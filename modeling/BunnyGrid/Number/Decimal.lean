import BunnyGrid.Number.Double
import BunnyGrid.Text.Blank
import BunnyGrid.Text.Digit

/-! Decimal numerals: the exact value of one, the double nearest to it, and how one is read. -/
namespace BunnyGrid

/-- A sign, and `digits` times ten to the power `exponent`. -/
structure Decimal where
  negative : Bool := false
  digits : Nat
  exponent : Int
  deriving DecidableEq

/-- How many decimal digits a number takes; zero takes one. -/
def digitCount (n : Nat) : Nat := (Nat.toDigits 10 n).length

namespace Decimal

/-- The nearest double. Values of more than 400 digits, or that many places below one, are past
every finite double and are not multiplied out. -/
def toDouble (d : Decimal) : Double :=
  let top := (digitCount d.digits : Int) + d.exponent
  if d.digits = 0 ∨ top < -400 then .finite d.negative 0 fits_zero
  else if 400 < top then .infinity d.negative
  else
    .ofRatio d.negative (d.digits * Nat.pow 10 d.exponent.toNat) (Nat.pow 10 (-d.exponent).toNat)

end Decimal

namespace Numeral
open Text

/-- An optional sign; true for minus. -/
def sign : List Char → Bool × List Char
  | '-' :: cs => (true, cs)
  | '+' :: cs => (false, cs)
  | cs => (false, cs)

/-- The digits in front, where one low line may stand between two digits. -/
def digits : List Char → List Nat × List Char
  | [] => ([], [])
  | c :: cs =>
    match digit? c with
    | none => ([], c :: cs)
    | some d =>
      match cs with
      | '_' :: after =>
        let (ds, rest) := digits after
        if ds.isEmpty then ([d], cs) else (d :: ds, rest)
      | cs =>
        let (ds, rest) := digits cs
        (d :: ds, rest)

/-- A whole number: blanks around, a sign, digits. -/
def int? (s : String) : Option Int :=
  let (negative, cs) := sign (trim isMargin s.toList)
  match digits cs with
  | (d :: ds, []) =>
    let n := ofDigits (d :: ds)
    some (if negative then -(n : Int) else n)
  | _ => none

/-- The fraction digits in front, after a point. -/
def fraction : List Char → List Nat × List Char
  | '.' :: cs => digits cs
  | cs => ([], cs)

/-- The exponent that ends a numeral; none written means zero. -/
def exponent? : List Char → Option Int
  | [] => some 0
  | e :: cs =>
    if e = 'e' ∨ e = 'E' then
      let (negative, cs) := sign cs
      match digits cs with
      | (d :: ds, []) =>
        let n := ofDigits (d :: ds)
        some (if negative then -(n : Int) else n)
      | _ => none
    else none

/-- A decimal without its sign: digits on at least one side of an optional point, then an
optional exponent. -/
def unsigned? (negative : Bool) (cs : List Char) : Option Decimal :=
  let (whole, cs) := digits cs
  let (places, cs) := fraction cs
  if whole.isEmpty && places.isEmpty then none
  else (exponent? cs).map fun e => ⟨negative, ofDigits (whole ++ places), e - places.length⟩

/-- A number: blanks around, a sign, then a decimal or a name of infinity or of no number. -/
def double? (s : String) : Option Double :=
  let (negative, cs) := sign (trim isMargin s.toList)
  let word := String.ofList (cs.map Char.toLower)
  if word = "inf" ∨ word = "infinity" then some (.infinity negative)
  else if word = "nan" then some .nan
  else (unsigned? negative cs).map Decimal.toDouble

end Numeral
end BunnyGrid
