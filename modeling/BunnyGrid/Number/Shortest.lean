import BunnyGrid.Number.Decimal

/-! The shortest decimal that reads back as a given double, and its written form. -/
namespace BunnyGrid

namespace Shortest

/-- The decimal exponent of the first digit of a positive number of units. -/
def leadingPlace (units : Nat) : Int :=
  (digitCount (units * Nat.pow 10 400 / unitsPerOne) : Int) - 401

/-- Whether `digits` times ten to the power `exponent` reads back as the given units. -/
def readsBack (units digits : Nat) (exponent : Int) : Bool :=
  (Decimal.toDouble ⟨false, digits, exponent⟩).toUnits? == some (units : Int)

/-- The nearer neighbour on the grid of multiples of ten to the power `exponent` that reads back;
a tie goes to the even one. -/
def onGrid? (units : Nat) (exponent : Int) : Option Decimal :=
  let num := units * Nat.pow 10 (-exponent).toNat
  let den := unitsPerOne * Nat.pow 10 exponent.toNat
  let below := num / den
  let nearer := nearestEven num den
  let farther := if nearer = below then below + 1 else below
  ([nearer, farther].find? (readsBack units · exponent)).map (⟨false, ·, exponent⟩)

/-- The decimal of the fewest digits, at most seventeen, that reads back as the given units. -/
def ofUnits (units : Nat) : Decimal :=
  let first := leadingPlace units
  ((List.range 17).findSome? fun (n : Nat) => onGrid? units (first - n)).getD ⟨false, 0, 0⟩

end Shortest

/-- The choices of a written form of doubles. -/
structure NumberStyle where
  /-- The first decimal exponent that is written out in places. -/
  placesFrom : Int := -4
  /-- The first decimal exponent that is too large to be written out. -/
  placesBelow : Int := 16
  /-- The least number of exponent digits. -/
  exponentWidth : Nat := 2
  /-- What ends a whole number that is written out. -/
  wholeEnd : String := ".0"
  nan : String
  infinity : String

namespace NumberStyle

private def zerosText (n : Nat) : String := String.ofList (List.replicate n '0')

/-- Digits written out in places; the first stands at the decimal exponent `first`. -/
def places (style : NumberStyle) (digits : List Char) (first : Int) : String :=
  if first < 0 then "0." ++ zerosText (-first - 1).toNat ++ String.ofList digits
  else
    let whole := first.toNat + 1
    if digits.length ≤ whole then
      String.ofList digits ++ zerosText (whole - digits.length) ++ style.wholeEnd
    else String.ofList (digits.take whole) ++ "." ++ String.ofList (digits.drop whole)

/-- Digits with an exponent, a point after the first digit if there are more. -/
def scientific (style : NumberStyle) (digits : List Char) (first : Int) : String :=
  let e := toString first.natAbs
  String.ofList (digits.take 1) ++ (if digits.length ≤ 1 then "" else ".") ++
    String.ofList (digits.drop 1) ++ (if first < 0 then "e-" else "e+") ++
    zerosText (style.exponentWidth - e.length) ++ e

/-- A positive or negative value with its sign. -/
private def signed (negative : Bool) (s : String) : String := if negative then "-" ++ s else s

def text (style : NumberStyle) : Double → String
  | .nan => style.nan
  | .infinity negative => signed negative style.infinity
  | .finite negative 0 _ => signed negative ("0" ++ style.wholeEnd)
  | .finite negative units _ =>
    let d := Shortest.ofUnits units
    let digits := (Nat.toDigits 10 d.digits).reverse.dropWhile (· = '0') |>.reverse
    let first := (digitCount d.digits : Int) - 1 + d.exponent
    signed negative
      (if style.placesFrom ≤ first ∧ first < style.placesBelow then style.places digits first
       else style.scientific digits first)

end NumberStyle

/-- How doubles are shown in messages. -/
def messageNumbers : NumberStyle where
  nan := "nan"
  infinity := "inf"

/-- How doubles are written in JSON. -/
def jsonNumbers : NumberStyle where
  nan := "NaN"
  infinity := "Infinity"

end BunnyGrid
