import BunnyGrid.Number.Basic
import Mathlib.Algebra.Group.Nat.Defs

/-! Where rounding changes nothing: a quotient that a double holds, and with it every whole number
up to the safe bound. -/
namespace BunnyGrid

section Rounding

variable {units den : Nat}

/-- A count of units that a double holds ends in all the zeros that rounding would drop. -/
theorem Fits.excess_dvd (h : Fits units) : 2 ^ excessPlaces units ∣ units := by
  obtain ⟨-, mantissa, places, hm, rfl⟩ := h
  rw [Nat.one_shiftLeft] at hm
  rw [Nat.shiftLeft_eq]
  rcases Nat.lt_or_eq_of_le hm with hlt | rfl
  · have hplaces : excessPlaces (mantissa * 2 ^ places) ≤ places := by
      by_cases hz : mantissa * 2 ^ places = 0
      · rw [hz]
        exact Nat.zero_le _
      · have hlog : (mantissa * 2 ^ places).log2 < 53 + places := by
          rw [Nat.log2_lt hz, Nat.pow_add]
          exact Nat.mul_lt_mul_of_pos_right hlt (Nat.two_pow_pos places)
        unfold excessPlaces
        omega
    exact Nat.dvd_trans (Nat.pow_dvd_pow 2 hplaces) (Nat.dvd_mul_left _ _)
  · -- The one mantissa of 54 places is a power of two.
    rw [← Nat.pow_add]
    apply Nat.pow_dvd_pow
    unfold excessPlaces
    rw [Nat.log2_two_pow]
    omega

theorem nearestEven_mul (n : Nat) (h : 0 < den) : nearestEven (n * den) den = n := by
  unfold nearestEven
  rw [Nat.mul_div_cancel n h, Nat.mul_mod_left]
  exact if_pos h

namespace Double

/-- A quotient that a double holds is rounded to itself. -/
theorem roundUnits_exact (negative : Bool) (h : Fits units) (hden : 0 < den) :
    roundUnits negative (units * den) den = .finite negative units h := by
  have hquotient : units * den / den = units := Nat.mul_div_cancel units hden
  obtain ⟨kept, hkept⟩ := h.excess_dvd
  have hscaled : units * den = kept * (den <<< excessPlaces units) := by
    rw [Nat.shiftLeft_eq]
    conv => lhs; rw [hkept]
    rw [Nat.mul_comm (2 ^ _) kept, Nat.mul_assoc, Nat.mul_comm (2 ^ _) den]
  have hpos : 0 < den <<< excessPlaces units := by
    rw [Nat.shiftLeft_eq]
    exact Nat.mul_pos hden (Nat.two_pow_pos _)
  have hunits : nearestEven (units * den) (den <<< excessPlaces units) <<< excessPlaces units =
      units := by
    rw [hscaled, nearestEven_mul kept hpos, Nat.shiftLeft_eq, Nat.mul_comm, ← hkept]
  unfold roundUnits
  simp only [hquotient, hunits]
  exact dif_pos h.1

end Double
end Rounding

section Whole

variable {i j : Int} {d : Double}

theorem unitsPerOne_pos : 0 < unitsPerOne := by
  rw [unitsPerOne, Nat.one_shiftLeft]
  exact Nat.two_pow_pos unitPlaces

theorem eq_of_mul_unitsPerOne (h : i * unitsPerOne = j * unitsPerOne) : i = j :=
  Int.eq_of_mul_eq_mul_right (Int.natCast_ne_zero.mpr (Nat.ne_of_gt unitsPerOne_pos)) h

/-- Every whole number of at most 53 places is a double. -/
theorem fits_whole {n : Nat} (h : n ≤ 2 ^ 53) : Fits (n * unitsPerOne) := by
  refine ⟨?_, n, unitPlaces, h, ?_⟩
  · have hbound : 2 ^ 53 * unitsPerOne < unitsBound := by decide +kernel
    exact Nat.lt_of_le_of_lt (Nat.mul_le_mul_right _ h) hbound
  · rw [unitsPerOne, Nat.one_shiftLeft, Nat.shiftLeft_eq]

/-- A sign and a size make up a whole number. -/
theorem signed_natAbs (i : Int) :
    (if decide (i < 0) then -(i.natAbs : Int) else i.natAbs) = i := by
  simp only [decide_eq_true_eq]
  split <;> omega

theorem signed_mul (negative : Bool) (n k : Nat) :
    (if negative then -((n * k : Nat) : Int) else (n * k : Nat)) =
      (if negative then -(n : Int) else n) * k := by
  cases negative
  · exact Int.natCast_mul n k
  · exact (congrArg Neg.neg (Int.natCast_mul n k)).trans (Int.neg_mul n k).symm

namespace Double

theorem ofInt_exact (h : Fits (i.natAbs * unitsPerOne)) :
    ofInt i = .finite (i < 0) (i.natAbs * unitsPerOne) h := by
  have hexact := roundUnits_exact (i < 0) h Nat.one_pos
  rwa [Nat.mul_one] at hexact

theorem toUnits?_ofInt (h : Fits (i.natAbs * unitsPerOne)) :
    (ofInt i).toUnits? = some (i * unitsPerOne) := by
  rw [ofInt_exact h, toUnits?, signed_mul, signed_natAbs]

/-- A double is a whole number if its units make that number up. -/
theorem toInt?_eq_some_iff : d.toInt? = some i ↔ d.toUnits? = some (i * unitsPerOne) := by
  cases d with
  | nan | infinity => exact ⟨nofun, nofun⟩
  | finite negative units fits =>
    simp only [toInt?, toUnits?, truncate?]
    constructor
    · intro h
      split at h
      case isFalse => cases h
      case isTrue hrest =>
        have hunits := Nat.div_mul_cancel (Nat.dvd_of_mod_eq_zero hrest)
        rw [← Option.some.inj h, ← signed_mul, hunits]
    · intro h
      have hsize : units = i.natAbs * unitsPerOne := by
        have h := congrArg Int.natAbs (Option.some.inj h)
        rw [Int.natAbs_mul, Int.natAbs_natCast] at h
        rw [← h]
        split <;> omega
      have hsign : (if negative then -(i.natAbs : Int) else i.natAbs) = i := by
        rw [hsize, signed_mul] at h
        exact eq_of_mul_unitsPerOne (Option.some.inj h)
      rw [if_pos (by rw [hsize, Nat.mul_mod_left]), hsize,
        Nat.mul_div_cancel _ unitsPerOne_pos, hsign]

end Double
end Whole
end BunnyGrid
