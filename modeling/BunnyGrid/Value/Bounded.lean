import BunnyGrid.Data.Basic

/-! Values as bounded numbers: whole numbers a double holds exactly, and the other finite doubles.
What is no number counts as zero. -/
namespace BunnyGrid

/-- The largest size up to which every whole number is a double. -/
def safeBound : Nat := 1 <<< 53

/-- A double within bounds: NaN and the infinities become zero, and whole numbers up to the safe
bound become whole. -/
def Double.bounded (d : Double) : Number :=
  if d.isFinite then
    match d.toInt? with
    | some i => if i.natAbs ≤ safeBound then .int i else .double d
    | none => .double d
  else .zero

namespace Number

/-- A number within bounds: a larger whole number goes on as the nearest double. -/
def bounded : Number → Number
  | .int i => if i.natAbs ≤ safeBound then .int i else (Double.ofInt i).bounded
  | .double d => d.bounded

/-- The whole part of a number; zero if it is not finite. -/
def truncate : Number → Int
  | .int i => i
  | .double d => d.truncate?.getD 0

end Number

namespace Scalar

/-- A value as a bounded number; a text counts if it is a numeral with blanks around it. -/
def toNumber : Scalar → Number
  | .bool b => .int (if b then 1 else 0)
  | .number n => n.bounded
  | .text s =>
    match Numeral.double? (String.ofList (Text.trim Text.isBlank s.toList)) with
    | some d => d.bounded
    | none => .zero

/-- A value as a count: the whole part of its number. -/
def toCount (v : Scalar) : Int := v.toNumber.truncate

end Scalar

namespace Data

/-- Data as a bounded number; only a plain value is one. -/
def toNumber : Data → Number
  | .scalar v => v.toNumber
  | _ => .zero

/-- Data as a count. -/
def toCount (d : Data) : Int := d.toNumber.truncate

end Data
end BunnyGrid
