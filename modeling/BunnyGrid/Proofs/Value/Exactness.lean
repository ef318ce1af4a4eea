import BunnyGrid.Proofs.Value.Bounded
import Mathlib.Algebra.Group.Int.Defs

/-! Arithmetic of whole numbers within the safe bound. It gives the whole number that it should,
though quotients, remainders and high powers go by way of doubles. -/
namespace BunnyGrid

namespace ArithOp

/-- What an operator means for whole numbers of any size: a quotient is taken toward zero, so that a
remainder has the sign of the dividend, and by zero both are zero. -/
def ideal : ArithOp → Int → Int → Int
  | .add, i, j => i + j
  | .sub, i, j => i - j
  | .mul, i, j => i * j
  | .div, i, j => if j = 0 then 0 else i.tdiv j
  | .pow, i, j => i ^ j.toNat
  | .rem, i, j => if j = 0 then 0 else i.tmod j

/-- Where an operator has a whole result: a division leaves no rest, and an exponent is from 0
to 64. -/
def IsExact : ArithOp → Int → Int → Prop
  | .div, i, j => j = 0 ∨ j ∣ i
  | .pow, _, j => 0 ≤ j ∧ j ≤ 64
  | _, _, _ => True

end ArithOp

section Signed

variable {i j k : Int}

/-- The sign that goes with a size matters only if the size is not zero. -/
theorem signed_of_sign {negative : Bool} (h : k ≠ 0 → negative = decide (k < 0)) :
    (if negative then -(k.natAbs : Int) else k.natAbs) = k := by
  by_cases hk : k = 0
  · subst hk
    split <;> rfl
  · rw [h hk, signed_natAbs]

theorem sign_tmod (h : i.tmod j ≠ 0) : decide (i < 0) = decide (i.tmod j < 0) := by
  rw [decide_eq_decide]
  rcases Int.le_total 0 i with hi | hi
  · have hrest := Int.tmod_nonneg j hi
    omega
  · have hrest := Int.tmod_nonneg j (Int.neg_nonneg_of_nonpos hi)
    rw [Int.neg_tmod] at hrest
    have hzero : i ≠ 0 := by
      rintro rfl
      exact h (Int.zero_tmod j)
    omega

theorem sign_mul (hj : j ≠ 0) (hk : k ≠ 0) :
    (decide (j * k < 0) ^^ decide (j < 0)) = decide (k < 0) := by
  have hneg {n : Int} (h : n < 0) : decide (n < 0) = true := decide_eq_true h
  have hpos {n : Int} (h : 0 < n) : decide (n < 0) = false := decide_eq_false (by omega)
  rcases Int.lt_or_gt_of_ne hj with hj | hj <;> rcases Int.lt_or_gt_of_ne hk with hk | hk
  · rw [hpos (Int.mul_pos_of_neg_of_neg hj hk), hneg hj, hneg hk]
    rfl
  · rw [hneg (Int.mul_neg_of_neg_of_pos hj hk), hneg hj, hpos hk]
    rfl
  · rw [hneg (Int.mul_neg_of_pos_of_neg hj hk), hpos hj, hneg hk]
    rfl
  · rw [hpos (Int.mul_pos hj hk), hpos hj, hpos hk]
    rfl

end Signed

namespace Double

variable {i j : Int}

/-- The remainder of whole numbers that doubles hold is exact. -/
theorem toUnits?_rem (hi : i.natAbs ≤ 2 ^ 53) (hj : j.natAbs ≤ 2 ^ 53) (hzero : j ≠ 0) :
    ((ofInt i).rem (ofInt j)).toUnits? = some (i.tmod j * unitsPerOne) := by
  have hpos : j.natAbs * unitsPerOne ≠ 0 :=
    Nat.ne_of_gt (Nat.mul_pos (Int.natAbs_pos.mpr hzero) unitsPerOne_pos)
  have hrest : (i.tmod j).natAbs ≤ 2 ^ 53 := by
    rw [Int.natAbs_tmod]
    exact Nat.le_trans (Nat.mod_le _ _) hi
  have hround := roundUnits_exact (decide (i < 0)) (fits_whole hrest) Nat.one_pos
  rw [Nat.mul_one] at hround
  rw [ofInt_exact (fits_whole hi), ofInt_exact (fits_whole hj), rem, if_neg hpos,
    Nat.mul_mod_mul_right, ← Int.natAbs_tmod, hround, toUnits?, signed_mul,
    signed_of_sign sign_tmod]

/-- A quotient of whole numbers that doubles hold is exact if there is no rest. -/
theorem toUnits?_div {k : Int} (hi : (j * k).natAbs ≤ 2 ^ 53) (hj : j.natAbs ≤ 2 ^ 53)
    (hk : k.natAbs ≤ 2 ^ 53) (hzero : j ≠ 0) :
    ((ofInt (j * k)).div (ofInt j)).toUnits? = some (k * unitsPerOne) := by
  have hpos : 0 < j.natAbs * unitsPerOne :=
    Nat.mul_pos (Int.natAbs_pos.mpr hzero) unitsPerOne_pos
  have hquotient : (j * k).natAbs * unitsPerOne * unitsPerOne =
      k.natAbs * unitsPerOne * (j.natAbs * unitsPerOne) := by
    rw [Int.natAbs_mul]
    ac_rfl
  rw [ofInt_exact (fits_whole hi), ofInt_exact (fits_whole hj), div, if_neg (Nat.ne_of_gt hpos),
    ofRatio, hquotient, roundUnits_exact _ (fits_whole hk) hpos, toUnits?, signed_mul,
    signed_of_sign (sign_mul hzero)]

theorem bounded_div_zero (hi : i.natAbs ≤ 2 ^ 53) : ((ofInt i).div (ofInt 0)).bounded = .zero := by
  rw [ofInt_exact (fits_whole hi), ofInt_exact (fits_whole (Nat.zero_le _)), div,
    Int.natAbs_zero, Nat.zero_mul, if_pos rfl]
  split <;> rfl

theorem bounded_rem_zero (hi : i.natAbs ≤ 2 ^ 53) : ((ofInt i).rem (ofInt 0)).bounded = .zero := by
  rw [ofInt_exact (fits_whole hi), ofInt_exact (fits_whole (Nat.zero_le _)), rem,
    Int.natAbs_zero, Nat.zero_mul, if_pos rfl]
  rfl

end Double

theorem Scalar.toNumber_int {i : Int} (h : i.natAbs ≤ 2 ^ 53) : (Scalar.int i).toNumber = .int i :=
  (Number.bounded_eq_self_iff (n := .int i)).mpr h

/-- An operator on whole numbers within the safe bound gives what it should, if that is a whole
number within the bound. -/
theorem Scalar.arith_exact {op : ArithOp} {i j : Int} (hi : i.natAbs ≤ 2 ^ 53)
    (hj : j.natAbs ≤ 2 ^ 53) (hexact : op.IsExact i j) (hideal : (op.ideal i j).natAbs ≤ 2 ^ 53) :
    Scalar.arith op (.int i) (.int j) = .int (op.ideal i j) := by
  rw [Scalar.arith, toNumber_int hi, toNumber_int hj]
  cases op with
  | add | sub | mul => exact Number.bounded_eq_self_iff.mpr hideal
  | pow =>
    have hsmall : 0 ≤ j ∧ j.natAbs ≤ ArithOp.exactPower := by
      obtain ⟨hlow, hhigh⟩ := hexact
      refine ⟨hlow, ?_⟩
      show j.natAbs ≤ 64
      omega
    rw [ArithOp.raw, if_pos hsmall]
    exact Number.bounded_eq_self_iff.mpr hideal
  | div =>
    by_cases hzero : j = 0
    · subst hzero
      exact Double.bounded_div_zero hi
    · obtain ⟨k, rfl⟩ := hexact.resolve_left hzero
      have hideal' : ArithOp.ideal .div (j * k) j = k := by
        rw [ArithOp.ideal, if_neg hzero, Int.mul_tdiv_cancel_left _ hzero]
      rw [hideal'] at hideal ⊢
      exact Double.bounded_of_whole (Double.toUnits?_div hi hj hideal hzero) hideal
  | rem =>
    by_cases hzero : j = 0
    · subst hzero
      exact Double.bounded_rem_zero hi
    · have hideal' : ArithOp.ideal .rem i j = i.tmod j := if_neg hzero
      rw [hideal'] at hideal ⊢
      exact Double.bounded_of_whole (Double.toUnits?_rem hi hj hzero) hideal

end BunnyGrid
