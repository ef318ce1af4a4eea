/-! Double-precision numbers as exact data: a sign and a whole number of the least positive unit,
2^-1074. Every operation works on exact naturals and rounds once, to nearest with ties to even. -/
namespace BunnyGrid

/-- How many binary places the least unit lies below one. -/
def unitPlaces : Nat := 1074

/-- One, counted in least units. -/
def unitsPerOne : Nat := 1 <<< unitPlaces

/-- The binary places that the units of a finite double stay below. -/
def topPlaces : Nat := 2098

/-- The bound on the units of a finite double. -/
def unitsBound : Nat := 1 <<< topPlaces

/-- A count of units that a double holds: at most 53 binary places, then zeros. -/
def Fits (units : Nat) : Prop :=
  units < unitsBound ∧ ∃ mantissa places, mantissa ≤ 1 <<< 53 ∧ units = mantissa <<< places

theorem unitsBound_pos : 0 < unitsBound := by
  rw [unitsBound, Nat.one_shiftLeft]
  exact Nat.two_pow_pos topPlaces

theorem fits_zero : Fits 0 := ⟨unitsBound_pos, 0, 0, Nat.zero_le _, rfl⟩

inductive Double
  | nan
  | infinity (negative : Bool)
  | finite (negative : Bool) (units : Nat) (fits : Fits units)
  deriving DecidableEq

/-- The whole number nearest to a quotient; of two as near, the even one. -/
def nearestEven (num den : Nat) : Nat :=
  let q := num / den
  let r := num % den
  if 2 * r < den then q else if den < 2 * r then q + 1 else q + q % 2

/-- How many low places of a quotient of units lie beyond the 53 that are kept. -/
def excessPlaces (q : Nat) : Nat := q.log2 + 1 - 53

theorem nearestEven_le (num den : Nat) : nearestEven num den ≤ num / den + 1 := by
  simp only [nearestEven]
  split
  · omega
  · split <;> omega

/-- The kept part of a quotient of units has at most 53 places, or is the next power of two. -/
theorem nearestEven_excess_le (num den : Nat) :
    nearestEven num (den <<< excessPlaces (num / den)) ≤ 1 <<< 53 := by
  refine Nat.le_trans (nearestEven_le _ _) ?_
  rw [Nat.shiftLeft_eq, Nat.one_shiftLeft, ← Nat.div_div_eq_div_mul]
  have hlog : num / den < 2 ^ ((num / den).log2 + 1) := Nat.lt_log2_self
  have hle : (num / den).log2 + 1 ≤ 53 + excessPlaces (num / den) := by
    unfold excessPlaces; omega
  have : num / den < 2 ^ 53 * 2 ^ excessPlaces (num / den) := by
    rw [← Nat.pow_add]
    exact Nat.lt_of_lt_of_le hlog (Nat.pow_le_pow_right (by decide) hle)
  exact Nat.div_lt_of_lt_mul (by rwa [Nat.mul_comm])

namespace Double

/-- The double nearest to a quotient of least units; infinite from the bound on. -/
def roundUnits (negative : Bool) (num den : Nat) : Double :=
  let places := excessPlaces (num / den)
  let units := nearestEven num (den <<< places) <<< places
  if h : units < unitsBound then
    .finite negative units ⟨h, _, places, nearestEven_excess_le num den, rfl⟩
  else .infinity negative

/-- The double nearest to a quotient. -/
def ofRatio (negative : Bool) (num den : Nat) : Double :=
  roundUnits negative (num * unitsPerOne) den

def zero : Double := .finite false 0 fits_zero

def ofInt (i : Int) : Double := ofRatio (i < 0) i.natAbs 1

/-- The value of a finite double in least units. -/
def toUnits? : Double → Option Int
  | .finite negative units _ => some (if negative then -(units : Int) else units)
  | _ => none

/-- The double nearest to a whole number of least units; a zero takes the given sign. -/
def ofUnits (zeroSign : Bool) (i : Int) : Double :=
  roundUnits (if i = 0 then zeroSign else i < 0) i.natAbs 1

def isFinite : Double → Bool
  | .finite .. => true
  | _ => false

def isNaN : Double → Bool
  | .nan => true
  | _ => false

def isNegative : Double → Bool
  | .nan => false
  | .infinity negative => negative
  | .finite negative .. => negative

def isZero : Double → Bool
  | .finite _ 0 _ => true
  | _ => false

def neg : Double → Double
  | .nan => .nan
  | .infinity negative => .infinity !negative
  | .finite negative units fits => .finite (!negative) units fits

/-- The whole part of a finite double, toward zero. -/
def truncate? : Double → Option Int
  | .finite negative units _ =>
    let whole := units / unitsPerOne
    some (if negative then -(whole : Int) else whole)
  | _ => none

/-- The value of a double that is a whole number. -/
def toInt? : Double → Option Int
  | .finite negative units fits =>
    if units % unitsPerOne = 0 then truncate? (.finite negative units fits) else none
  | _ => none

def add : Double → Double → Double
  | .nan, _ | _, .nan => .nan
  | .infinity s, .infinity t => if s = t then .infinity s else .nan
  | .infinity s, .finite .. => .infinity s
  | .finite .., .infinity t => .infinity t
  | .finite s m _, .finite t n _ =>
    ofUnits (s && t) ((if s then -(m : Int) else m) + (if t then -(n : Int) else n))

def sub (a b : Double) : Double := add a b.neg

def mul : Double → Double → Double
  | .nan, _ | _, .nan => .nan
  | .infinity s, b => if b.isZero then .nan else .infinity (s ^^ b.isNegative)
  | a, .infinity t => if a.isZero then .nan else .infinity (a.isNegative ^^ t)
  | .finite s m _, .finite t n _ => roundUnits (s ^^ t) (m * n) unitsPerOne

def div : Double → Double → Double
  | .nan, _ | _, .nan => .nan
  | .infinity s, b => if b.isFinite then .infinity (s ^^ b.isNegative) else .nan
  | .finite s _ _, .infinity t => .finite (s ^^ t) 0 fits_zero
  | .finite s m _, .finite t n _ =>
    if n = 0 then if m = 0 then .nan else .infinity (s ^^ t)
    else ofRatio (s ^^ t) m n

/-- The remainder of a division toward zero, which takes the sign of the dividend. -/
def rem : Double → Double → Double
  | .finite s m fits, .infinity _ => .finite s m fits
  | .finite s m _, .finite _ n _ => if n = 0 then .nan else roundUnits s (m % n) 1
  | _, _ => .nan

/-- The machine's 64-bit pattern of a double. -/
def toBits : Double → UInt64
  | .nan => 0x7ff8000000000000
  | .infinity negative => sign negative ||| 0x7ff0000000000000
  | .finite negative units _ =>
    let places := excessPlaces units
    sign negative + UInt64.ofNat (places <<< 52 + units >>> places)
where
  sign (negative : Bool) : UInt64 := if negative then 0x8000000000000000 else 0

/-- The double that a 64-bit pattern of the machine stands for. -/
def ofBits (bits : UInt64) : Double :=
  let negative := decide (bits.toNat >>> 63 = 1)
  let exponent := bits.toNat >>> 52 % 0x800
  let fraction := bits.toNat % (1 <<< 52)
  if exponent = 0x7ff then if fraction = 0 then .infinity negative else .nan
  else if exponent = 0 then roundUnits negative fraction 1
  else roundUnits negative ((1 <<< 52 + fraction) <<< (exponent - 1)) 1

/-- A power, as the machine's own routine rounds it. -/
def pow (a b : Double) : Double :=
  ofBits (Float.pow (Float.ofBits a.toBits) (Float.ofBits b.toBits)).toBits

end Double
end BunnyGrid
