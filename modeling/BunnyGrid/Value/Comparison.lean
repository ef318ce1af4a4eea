import BunnyGrid.Data.Basic
import BunnyGrid.Text.Letter

/-! Comparison of plain values. Only values of one kind stand in an order: numbers by exact size,
texts by code points, false before true. -/
namespace BunnyGrid

namespace Scalar

def sameKind : Scalar → Scalar → Bool
  | .bool _, .bool _ | .number _, .number _ | .text _, .text _ => true
  | _, _ => false

/-- How two values stand to each other; none for different kinds and for NaN. -/
def compare? : Scalar → Scalar → Option Ordering
  | .bool a, .bool b => some (compare a b)
  | .number a, .number b => a.compare? b
  | .text s, .text t => some (compare s t)
  | _, _ => none

end Scalar

inductive CompareOp
  | eq
  | ne
  | lt
  | le
  | gt
  | ge
  deriving DecidableEq

namespace CompareOp

/-- Whether an operator holds of two values that stand to each other as given. Only "not equal"
holds of values without an order. -/
def accepts : CompareOp → Option Ordering → Bool
  | .eq, o => o == some .eq
  | .ne, o => o != some .eq
  | .lt, o => o == some .lt
  | .le, o => o == some .lt || o == some .eq
  | .gt, o => o == some .gt
  | .ge, o => o == some .gt || o == some .eq

def holds (op : CompareOp) (a b : Scalar) : Bool := op.accepts (a.compare? b)

/-- The name in programs. -/
def name : CompareOp → String
  | .eq => "EQ"
  | .ne => "NEQ"
  | .lt => "LT"
  | .le => "LTE"
  | .gt => "GT"
  | .ge => "GTE"

def all : List CompareOp := [.eq, .ne, .lt, .le, .gt, .ge]

/-- The operator of a name in any case. -/
def ofText? (s : String) : Option CompareOp := all.find? (·.name = Text.capitals s)

end CompareOp

inductive LogicOp
  | and
  | or
  deriving DecidableEq

namespace LogicOp

def apply : LogicOp → Bool → Bool → Bool
  | .and, a, b => a && b
  | .or, a, b => a || b

/-- The name in programs. -/
def name : LogicOp → String
  | .and => "AND"
  | .or => "OR"

def all : List LogicOp := [.and, .or]

/-- The operator of a name in any case. -/
def ofText? (s : String) : Option LogicOp := all.find? (·.name = Text.capitals s)

end LogicOp
end BunnyGrid
