import BunnyGrid.Proofs.Number.Range
import BunnyGrid.Proofs.Value.Bounded

/-! What a whole number counts as once it was bounded. -/
namespace BunnyGrid

/-- Two counts that are the same, or both less than one, or both past every whole number that a
double is sure to hold. -/
def SameCount (n n' : Int) : Prop := n = n' ∨ n < 1 ∧ n' < 1 ∨ 2 ^ 53 ≤ n ∧ 2 ^ 53 ≤ n'

theorem SameCount.refl (n : Int) : SameCount n n := .inl rfl

/-- A double that is a whole number has it as its whole part. -/
theorem Double.truncate?_of_toInt? {d : Double} {i : Int} (h : d.toInt? = some i) :
    d.truncate? = some i := by
  cases d with
  | nan | infinity => cases h
  | finite =>
    simp only [toInt?] at h
    split at h
    · exact h
    · cases h

/-- Bounding a finite double does not change its whole part. -/
theorem Double.truncate_bounded {d : Double} (h : d.isFinite = true) :
    d.bounded.truncate = d.truncate?.getD 0 := by
  unfold bounded
  rw [if_pos h]
  cases hi : d.toInt? with
  | none => rfl
  | some i =>
    dsimp only
    split
    · rw [truncate?_of_toInt? hi]
      rfl
    · rfl

namespace Scalar

variable {i : Int}

theorem toCount_int_of_le (h : i.natAbs ≤ 2 ^ 53) : (int i).toCount = i := by
  have hsafe : i.natAbs ≤ safeBound := h
  show (Number.bounded (.int i)).truncate = i
  rw [Number.bounded, if_pos hsafe]
  rfl

theorem toCount_int_of_lt (h : 2 ^ 53 < i.natAbs) :
    (int i).toCount = (Double.ofInt i).bounded.truncate := by
  have hsafe : ¬ i.natAbs ≤ safeBound := Nat.not_le.mpr h
  show (Number.bounded (.int i)).truncate = _
  rw [Number.bounded, if_neg hsafe]

/-- A whole number counts as one of its sign that is past the safe bound too if it is. -/
theorem toCount_int_of_large (hlarge : 2 ^ 53 < i.natAbs) (hbound : i.natAbs < doubleBound) :
    ∃ n : Nat, 2 ^ 53 ≤ n ∧ (int i).toCount = if i < 0 then -(n : Int) else n := by
  obtain ⟨fits, hfinite⟩ := Double.ofInt_of_lt hbound
  obtain ⟨n, hn, htruncate⟩ := Double.truncate?_ofInt (Nat.le_of_lt hlarge) hbound
  refine ⟨n, hn, ?_⟩
  rw [toCount_int_of_lt hlarge, Double.truncate_bounded (by rw [hfinite]; rfl), htruncate]
  rfl

/-- A whole number that is too large for a double counts as zero. -/
theorem toCount_int_of_huge (h : doubleBound ≤ i.natAbs) : (int i).toCount = 0 := by
  have hlarge : 2 ^ 53 < i.natAbs := Nat.lt_of_lt_of_le (by decide +kernel) h
  rw [toCount_int_of_lt hlarge, Double.ofInt_of_le h]
  rfl

/-- Below the bound a whole number counts as itself, as far as a map or a step limit can tell. -/
theorem sameCount_int (h : i < doubleBound) : SameCount i (int i).toCount := by
  rcases Nat.lt_or_ge (2 ^ 53) i.natAbs with hlarge | hsmall
  · rcases Nat.lt_or_ge i.natAbs doubleBound with hbound | hhuge
    · obtain ⟨n, hn, hcount⟩ := toCount_int_of_large hlarge hbound
      rw [hcount]
      unfold SameCount
      split <;> omega
    · rw [toCount_int_of_huge hhuge]
      unfold SameCount
      omega
  · rw [toCount_int_of_le hsmall]
    exact .refl i

end Scalar
end BunnyGrid
