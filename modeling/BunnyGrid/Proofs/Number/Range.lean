import BunnyGrid.Proofs.Number.Rounding
import Mathlib.Tactic.Ring

/-! Which whole numbers are too large for a double, and how far rounding moves the others. -/
namespace BunnyGrid

section Units

variable {q : Nat}

theorem div_le_nearestEven (num den : Nat) : num / den ≤ nearestEven num den := by
  simp only [nearestEven]
  split
  · omega
  · split <;> omega

/-- The units that a quotient of units is rounded to. -/
def roundedUnits (q : Nat) : Nat := nearestEven q (1 <<< excessPlaces q) <<< excessPlaces q

theorem roundedUnits_fits (h : roundedUnits q < unitsBound) : Fits (roundedUnits q) := by
  have hkept := nearestEven_excess_le q 1
  rw [Nat.div_one] at hkept
  exact ⟨h, _, _, hkept, rfl⟩

/-- A quotient of units becomes the double of the rounded units, or infinite. -/
theorem roundUnits_one (negative : Bool) (q : Nat) :
    (∃ fits, Double.roundUnits negative q 1 = .finite negative (roundedUnits q) fits) ∨
      unitsBound ≤ roundedUnits q ∧ Double.roundUnits negative q 1 = .infinity negative := by
  have hunits : nearestEven q (1 <<< excessPlaces (q / 1)) <<< excessPlaces (q / 1) =
      roundedUnits q := by
    rw [Nat.div_one]
    rfl
  unfold Double.roundUnits
  simp only [hunits]
  split
  case isTrue h => exact .inl ⟨roundedUnits_fits h, rfl⟩
  case isFalse h => exact .inr ⟨Nat.le_of_not_lt h, rfl⟩

/-- Rounding never passes a power of two downward. -/
theorem two_pow_log2_le_roundedUnits (h : 52 ≤ q.log2) : 2 ^ q.log2 ≤ roundedUnits q := by
  have hplaces : q.log2 = 52 + excessPlaces q := by
    unfold excessPlaces
    omega
  have hq : q ≠ 0 := by
    rintro rfl
    simp at h
  have hkept : 2 ^ 52 ≤ q / 2 ^ excessPlaces q := by
    rw [Nat.le_div_iff_mul_le (Nat.two_pow_pos _), ← Nat.pow_add, ← hplaces]
    exact Nat.log2_self_le hq
  have hround := div_le_nearestEven q (2 ^ excessPlaces q)
  unfold roundedUnits
  rw [Nat.one_shiftLeft, Nat.shiftLeft_eq]
  calc 2 ^ q.log2 = 2 ^ 52 * 2 ^ excessPlaces q := by rw [← Nat.pow_add, ← hplaces]
    _ ≤ _ := Nat.mul_le_mul_right _ (hkept.trans hround)

theorem roundedUnits_le (q : Nat) : roundedUnits q ≤ 2 ^ 53 * 2 ^ excessPlaces q := by
  have hle := nearestEven_excess_le q 1
  rw [Nat.div_one, Nat.one_shiftLeft 53] at hle
  unfold roundedUnits
  rw [Nat.shiftLeft_eq]
  exact Nat.mul_le_mul_right _ hle

/-- Between a power of two and the next, rounding to even reaches the next one from half a place
below it on. -/
theorem nearestEven_lt_iff {half : Nat} (hpos : 0 < half) (hlt : q < 2 ^ 53 * (2 * half)) :
    nearestEven q (2 * half) < 2 ^ 53 ↔ q + half < 2 ^ 53 * (2 * half) := by
  have hsplit := Nat.div_add_mod q (2 * half)
  have hrest := Nat.mod_lt q (Nat.mul_pos Nat.two_pos hpos)
  have hkept : q / (2 * half) < 2 ^ 53 := Nat.div_lt_of_lt_mul (by rwa [Nat.mul_comm])
  unfold nearestEven
  generalize q / (2 * half) = kept at *
  generalize q % (2 * half) = rest at *
  rcases Nat.lt_or_ge (kept + 1) (2 ^ 53) with hlow | htop
  · have hroom : (kept + 2) * (2 * half) ≤ 2 ^ 53 * (2 * half) := Nat.mul_le_mul_right _ hlow
    have hexpand : (kept + 2) * (2 * half) = 2 * half * kept + 4 * half := by ring
    have hfar : q + half < 2 ^ 53 * (2 * half) := by omega
    refine iff_of_true ?_ hfar
    dsimp only
    split
    · omega
    · split <;> omega
  · -- The topmost place is odd, so a quotient halfway to the next one goes up.
    obtain rfl : kept = 2 ^ 53 - 1 := by omega
    dsimp only
    split
    · omega
    · split <;> omega

/-- Half a unit in the last place of the largest doubles. -/
def topHalf : Nat := 2 ^ (topPlaces - 54)

theorem topHalf_pos : 0 < topHalf := Nat.two_pow_pos _

theorem two_pow_topPlaces {j k : Nat} (h : j + k = 54) :
    2 ^ (topPlaces - k) = 2 ^ j * topHalf := by
  have hsum : topPlaces - k = j + (topPlaces - 54) := by
    unfold topPlaces
    omega
  rw [hsum, Nat.pow_add]
  rfl

theorem unitsBound_eq : unitsBound = 2 ^ 53 * (2 * topHalf) := by
  have hbound := two_pow_topPlaces (Nat.add_zero 54)
  rw [Nat.sub_zero] at hbound
  rw [unitsBound, Nat.one_shiftLeft, hbound]
  ring

/-- In the topmost binade the last place kept is the double of its half. -/
theorem two_pow_excessPlaces_of_top (hlow : 2 ^ 53 * topHalf ≤ q) (hhigh : q < unitsBound) :
    2 ^ excessPlaces q = 2 * topHalf := by
  have hpos := topHalf_pos
  have htop : 2 ^ (topPlaces - 1) = 2 ^ 53 * topHalf := two_pow_topPlaces rfl
  have hlast : 2 ^ (topPlaces - 53) = 2 ^ 1 * topHalf := two_pow_topPlaces rfl
  have hnext : topPlaces - 1 + 1 = topPlaces := Nat.sub_add_cancel (by unfold topPlaces; omega)
  have hlog : q.log2 = topPlaces - 1 := by
    rw [unitsBound, Nat.one_shiftLeft] at hhigh
    rw [Nat.log2_eq_iff (by omega), htop, hnext]
    exact ⟨hlow, hhigh⟩
  have hplaces : excessPlaces q = topPlaces - 53 := by
    unfold excessPlaces
    omega
  rw [hplaces, hlast, Nat.pow_one]

theorem two_pow_excessPlaces_le (hlow : q < 2 ^ 53 * topHalf) : 2 ^ excessPlaces q ≤ topHalf := by
  have htop : 2 ^ (topPlaces - 1) = 2 ^ 53 * topHalf := two_pow_topPlaces rfl
  unfold topHalf
  apply Nat.pow_le_pow_right Nat.two_pos
  by_cases hq : q = 0
  · rw [hq]
    exact Nat.zero_le _
  · have hlog : q.log2 < topPlaces - 1 := by
      rw [Nat.log2_lt hq, htop]
      exact hlow
    unfold excessPlaces
    omega

/-- A quotient of units is rounded to a finite double up to half a place below the bound. -/
theorem roundedUnits_lt_iff : roundedUnits q < unitsBound ↔ q + topHalf < unitsBound := by
  have hpos := topHalf_pos
  have hbound := unitsBound_eq
  rcases Nat.lt_or_ge q (2 ^ 53 * topHalf) with hlow | hlow
  · have hle := roundedUnits_le q
    have hscaled := Nat.mul_le_mul_left (2 ^ 53) (two_pow_excessPlaces_le hlow)
    omega
  · rcases Nat.lt_or_ge q unitsBound with hhigh | hhigh
    · have hplaces := two_pow_excessPlaces_of_top hlow hhigh
      rw [hbound] at hhigh ⊢
      rw [← nearestEven_lt_iff hpos hhigh, roundedUnits, Nat.one_shiftLeft, Nat.shiftLeft_eq,
        hplaces]
      exact Nat.mul_lt_mul_right (Nat.mul_pos Nat.two_pos hpos)
    · have hlog : topPlaces ≤ q.log2 := by
        rw [Nat.le_log2 (by omega), ← Nat.one_shiftLeft]
        exact hhigh
      have hkept : 2 ^ topPlaces ≤ 2 ^ q.log2 := Nat.pow_le_pow_right Nat.two_pos hlog
      have hround := two_pow_log2_le_roundedUnits (Nat.le_trans (by decide) hlog)
      rw [← Nat.one_shiftLeft topPlaces] at hkept
      have hover : unitsBound ≤ roundedUnits q := hkept.trans hround
      omega

end Units

section Whole

/-- The least whole number that is too large for a double: the largest finite double and half a unit
of its last place. -/
def doubleBound : Nat := 1 <<< 1024 - 1 <<< 970

theorem doubleBound_mul : doubleBound * unitsPerOne + topHalf = unitsBound := by decide +kernel

namespace Double

variable {i : Int}

theorem ofInt_of_lt (h : i.natAbs < doubleBound) : ∃ fits,
    ofInt i = .finite (i < 0) (roundedUnits (i.natAbs * unitsPerOne)) fits := by
  have hunits : roundedUnits (i.natAbs * unitsPerOne) < unitsBound := by
    rw [roundedUnits_lt_iff, ← doubleBound_mul, Nat.add_lt_add_iff_right]
    exact Nat.mul_lt_mul_of_pos_right h unitsPerOne_pos
  rcases roundUnits_one (i < 0) (i.natAbs * unitsPerOne) with hfinite | ⟨hover, -⟩
  · exact hfinite
  · omega

/-- A whole number that is too large becomes infinite. -/
theorem ofInt_of_le (h : doubleBound ≤ i.natAbs) : ofInt i = .infinity (i < 0) := by
  rcases roundUnits_one (i < 0) (i.natAbs * unitsPerOne) with ⟨fits, -⟩ | ⟨-, hinfinite⟩
  · have hunits := fits.1
    rw [roundedUnits_lt_iff, ← doubleBound_mul, Nat.add_lt_add_iff_right] at hunits
    have hover := Nat.mul_le_mul_right unitsPerOne h
    omega
  · exact hinfinite

/-- Rounding keeps the sign of a whole number and does not bring it back below the safe bound. -/
theorem truncate?_ofInt (hlarge : 2 ^ 53 ≤ i.natAbs) (hbound : i.natAbs < doubleBound) :
    ∃ n : Nat, 2 ^ 53 ≤ n ∧ (ofInt i).truncate? = some (if i < 0 then -(n : Int) else n) := by
  have hone : unitsPerOne = 2 ^ unitPlaces := by rw [unitsPerOne, Nat.one_shiftLeft]
  have hlow : 2 ^ (53 + unitPlaces) ≤ i.natAbs * unitsPerOne := by
    rw [Nat.pow_add, ← hone]
    exact Nat.mul_le_mul_right _ hlarge
  have hlog : 53 + unitPlaces ≤ (i.natAbs * unitsPerOne).log2 := by
    rw [Nat.le_log2]
    · exact hlow
    · exact Nat.ne_of_gt (Nat.lt_of_lt_of_le (Nat.two_pow_pos _) hlow)
  have hkept := two_pow_log2_le_roundedUnits (Nat.le_trans (by decide) hlog)
  have hunits : 2 ^ 53 * unitsPerOne ≤ roundedUnits (i.natAbs * unitsPerOne) := by
    calc 2 ^ 53 * unitsPerOne = 2 ^ (53 + unitPlaces) := by rw [hone, Nat.pow_add]
      _ ≤ 2 ^ (i.natAbs * unitsPerOne).log2 := Nat.pow_le_pow_right Nat.two_pos hlog
      _ ≤ _ := hkept
  obtain ⟨fits, hfinite⟩ := ofInt_of_lt hbound
  refine ⟨roundedUnits (i.natAbs * unitsPerOne) / unitsPerOne, ?_, ?_⟩
  · exact (Nat.le_div_iff_mul_le unitsPerOne_pos).mpr hunits
  · rw [hfinite, truncate?]
    simp

end Double

end Whole
end BunnyGrid
