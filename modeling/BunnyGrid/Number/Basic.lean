import BunnyGrid.Number.Shortest

/-! Numbers: whole numbers of any size and doubles, which stay different kinds but share one
order. -/
namespace BunnyGrid

inductive Number
  | int (i : Int)
  | double (d : Double)
  deriving DecidableEq

namespace Number

def zero : Number := .int 0

/-- The nearest double; a whole number past every finite double becomes infinite. -/
def toDouble : Number → Double
  | .int i => .ofInt i
  | .double d => d

/-- Where a number stands among all: before, among or after the finite ones, which are ordered by
their count of least units. NaN stands nowhere. -/
def place? : Number → Option (Int × Int)
  | .int i => some (0, i * unitsPerOne)
  | .double .nan => none
  | .double (.infinity negative) => some (if negative then -1 else 1, 0)
  | .double (.finite negative units _) => some (0, if negative then -(units : Int) else units)

/-- How two numbers stand to each other; none if one of them is NaN. No rounding takes place. -/
def compare? (a b : Number) : Option Ordering :=
  match a.place?, b.place? with
  | some p, some q => some ((compare p.1 q.1).then (compare p.2 q.2))
  | _, _ => none

def isZero : Number → Bool
  | .int i => i = 0
  | .double d => d.isZero

def isNaN : Number → Bool
  | .int _ => false
  | .double d => d.isNaN

def text (style : NumberStyle) : Number → String
  | .int i => toString i
  | .double d => style.text d

end Number
end BunnyGrid
