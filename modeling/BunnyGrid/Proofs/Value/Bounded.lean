import BunnyGrid.Proofs.Number.Rounding
import BunnyGrid.Value.Arithmetic

/-! The normal form of numbers. Bounding a number gives one in normal form and leaves those as they
are, so every value counts as a normal number and arithmetic gives nothing else. -/
namespace BunnyGrid

/-- Numbers in normal form: whole numbers of at most 53 places, and finite doubles that are none of
these numbers. -/
def Number.IsNormal : Number → Prop
  | .int i => i.natAbs ≤ 2 ^ 53
  | .double d => ∃ u, d.toUnits? = some u ∧ ∀ i : Int, u = i * unitsPerOne → 2 ^ 53 < i.natAbs

namespace Double

variable {d : Double} {i : Int}

theorem toUnits?_of_not_isFinite (h : d.isFinite = false) : d.toUnits? = none := by
  cases d with
  | nan | infinity => rfl
  | finite => cases h

theorem exists_units (h : d.isFinite = true) : ∃ u, d.toUnits? = some u := by
  cases d with
  | nan | infinity => cases h
  | finite => exact ⟨_, rfl⟩

/-- What becomes of a double: zero if it is not finite, a whole number if it is one within the safe
bound, and else it is in normal form and stays. -/
theorem bounded_cases (d : Double) :
    (d.toUnits? = none ∧ d.bounded = .zero) ∨
    (∃ i : Int, i.natAbs ≤ 2 ^ 53 ∧ d.toUnits? = some (i * unitsPerOne) ∧ d.bounded = .int i) ∨
    ((Number.double d).IsNormal ∧ d.bounded = .double d) := by
  have hsafe : safeBound = 2 ^ 53 := by decide
  unfold bounded
  rw [hsafe]
  cases hd : d.isFinite with
  | false => exact .inl ⟨toUnits?_of_not_isFinite hd, rfl⟩
  | true =>
    right
    obtain ⟨u, hu⟩ := exists_units hd
    rw [if_pos rfl]
    cases hi : d.toInt? with
    | none =>
      refine .inr ⟨⟨u, hu, fun i hwhole => ?_⟩, rfl⟩
      rw [hwhole, ← toInt?_eq_some_iff, hi] at hu
      cases hu
    | some i =>
      have hwhole := toInt?_eq_some_iff.mp hi
      dsimp only
      split
      case isTrue hle => exact .inl ⟨i, hle, hwhole, rfl⟩
      case isFalse hlt =>
        refine .inr ⟨⟨_, hwhole, fun j hj => ?_⟩, rfl⟩
        rw [← eq_of_mul_unitsPerOne hj]
        exact Nat.lt_of_not_le hlt

theorem bounded_isNormal (d : Double) : d.bounded.IsNormal := by
  rcases d.bounded_cases with ⟨-, hb⟩ | ⟨i, hi, -, hb⟩ | ⟨hn, hb⟩
  · rw [hb]
    exact Nat.zero_le _
  · rw [hb]
    exact hi
  · rw [hb]
    exact hn

/-- A whole double within the safe bound becomes that whole number. -/
theorem bounded_of_whole (h : d.toUnits? = some (i * unitsPerOne)) (hi : i.natAbs ≤ 2 ^ 53) :
    d.bounded = .int i := by
  rcases d.bounded_cases with ⟨hu, -⟩ | ⟨j, -, hu, hb⟩ | ⟨⟨u, hu, hn⟩, -⟩
  · rw [hu] at h
    cases h
  · rw [hb, eq_of_mul_unitsPerOne (Option.some.inj (hu.symm.trans h))]
  · have hlt := hn i (Option.some.inj (hu.symm.trans h))
    omega

theorem bounded_of_isNormal (h : (Number.double d).IsNormal) : d.bounded = .double d := by
  obtain ⟨u, hu, hn⟩ := h
  rcases d.bounded_cases with ⟨hnone, -⟩ | ⟨i, hi, hwhole, -⟩ | ⟨-, hb⟩
  · rw [hnone] at hu
    cases hu
  · have hlt := hn i (Option.some.inj (hu.symm.trans hwhole))
    omega
  · exact hb

end Double

section Normal

theorem Number.bounded_isNormal (n : Number) : n.bounded.IsNormal := by
  have hsafe : safeBound = 2 ^ 53 := by decide
  cases n with
  | double d => exact d.bounded_isNormal
  | int i =>
    rw [bounded, hsafe]
    split
    case isTrue hi => exact hi
    case isFalse => exact Double.bounded_isNormal _

/-- Normal numbers are those that bounding leaves as they are. -/
theorem Number.bounded_eq_self_iff {n : Number} : n.bounded = n ↔ n.IsNormal := by
  refine ⟨fun h => h ▸ n.bounded_isNormal, fun h => ?_⟩
  cases n with
  | int i => exact if_pos h
  | double d => exact Double.bounded_of_isNormal h

theorem Scalar.toNumber_isNormal (v : Scalar) : v.toNumber.IsNormal := by
  cases v with
  | bool b =>
    show Int.natAbs (if b then 1 else 0) ≤ 2 ^ 53
    cases b <;> decide
  | number n => exact n.bounded_isNormal
  | text s =>
    rw [toNumber]
    split
    · exact Double.bounded_isNormal _
    · exact Nat.zero_le _

theorem Data.toNumber_isNormal (d : Data) : d.toNumber.IsNormal := by
  cases d with
  | scalar v => exact v.toNumber_isNormal
  | null | list | record => exact Nat.zero_le _

theorem Data.arith_isNormal (op : ArithOp) (a b : Data) : (Data.arith op a b).IsNormal :=
  Number.bounded_isNormal _

end Normal
end BunnyGrid
