import BunnyGrid.Text.Letter
import BunnyGrid.Value.Bounded

/-! Arithmetic on bounded numbers. An undefined result is zero. -/
namespace BunnyGrid

inductive ArithOp
  | add
  | sub
  | mul
  | div
  | pow
  | rem
  deriving DecidableEq

namespace ArithOp

/-- The largest exponent of an exact power. -/
def exactPower : Nat := 64

/-- The result before it is bounded. Sums, differences, products and small powers of whole numbers
are whole; all else is a double, which is not finite where the result is undefined. -/
def raw : ArithOp → Number → Number → Number
  | .add, .int i, .int j => .int (i + j)
  | .add, a, b => .double (a.toDouble.add b.toDouble)
  | .sub, .int i, .int j => .int (i - j)
  | .sub, a, b => .double (a.toDouble.sub b.toDouble)
  | .mul, .int i, .int j => .int (i * j)
  | .mul, a, b => .double (a.toDouble.mul b.toDouble)
  | .div, a, b => .double (a.toDouble.div b.toDouble)
  | .pow, .int i, .int j =>
    if 0 ≤ j ∧ j.natAbs ≤ exactPower then .int (Int.pow i j.toNat)
    else .double ((Double.ofInt i).pow (Double.ofInt j))
  | .pow, a, b => .double (a.toDouble.pow b.toDouble)
  | .rem, a, b => .double (a.toDouble.rem b.toDouble)

/-- The bounded result on two numbers that are bounded first. -/
def apply (op : ArithOp) (a b : Number) : Number := (op.raw a.bounded b.bounded).bounded

/-- The name in programs. -/
def name : ArithOp → String
  | .add => "ADD"
  | .sub => "SUB"
  | .mul => "MUL"
  | .div => "DIV"
  | .pow => "POW"
  | .rem => "MOD"

/-- Every spelling in capitals. -/
def spellings : List (String × ArithOp) :=
  [ ("ADD", .add), ("SUB", .sub), ("MINUS", .sub), ("MUL", .mul), ("MULTIPLY", .mul),
    ("DIV", .div), ("DIVIDE", .div), ("POW", .pow), ("POWER", .pow), ("MOD", .rem),
    ("MODULO", .rem) ]

/-- The operator of a spelling in any case. -/
def ofText? (s : String) : Option ArithOp := spellings.lookup (Text.capitals s)

end ArithOp

/-- An operator on two plain values. -/
def Scalar.arith (op : ArithOp) (a b : Scalar) : Number := (op.raw a.toNumber b.toNumber).bounded

/-- An operator on any data. -/
def Data.arith (op : ArithOp) (a b : Data) : Number := (op.raw a.toNumber b.toNumber).bounded

end BunnyGrid
