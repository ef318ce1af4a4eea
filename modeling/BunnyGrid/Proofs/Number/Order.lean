import BunnyGrid.Proofs.Number.Rounding
import Mathlib.Algebra.Order.Field.Rat
import Mathlib.Algebra.Order.Ring.Cast
import Mathlib.Order.Compare
import Mathlib.Order.WithBot

/-! Numbers by their exact values, which is how they compare: nothing is rounded, however large a
whole number is. -/
namespace BunnyGrid.Number

/-- The exact value of a number, infinities included; NaN has none. -/
def value? : Number → Option (WithBot (WithTop ℚ))
  | .int i => some ((i : ℚ) : WithTop ℚ)
  | .double .nan => none
  | .double (.infinity negative) => some (if negative then ⊥ else ⊤)
  | .double (.finite negative units _) =>
    some (((if negative then -(units : ℚ) else units) / unitsPerOne : ℚ) : WithTop ℚ)

/-- The value of a count of least units. -/
def ofUnits (u : ℤ) : WithBot (WithTop ℚ) := ((u / unitsPerOne : ℚ) : WithTop ℚ)

/-- The values that places stand for. -/
inductive Places : ℤ × ℤ → WithBot (WithTop ℚ) → Prop
  | finite (u : ℤ) : Places (0, u) (ofUnits u)
  | bottom : Places (-1, 0) ⊥
  | top : Places (1, 0) ⊤

variable {m n : Number} {p q : ℤ × ℤ} {x y : WithBot (WithTop ℚ)}

theorem ofUnits_lt {u v : ℤ} (h : u < v) : ofUnits u < ofUnits v := by
  have hpos : (0 : ℚ) < unitsPerOne := Nat.cast_pos.mpr unitsPerOne_pos
  apply WithBot.coe_strictMono
  apply WithTop.coe_strictMono
  exact div_lt_div_of_pos_right (Int.cast_lt.mpr h) hpos

theorem compare_ofUnits (u v : ℤ) : compare (ofUnits u) (ofUnits v) = compare u v := by
  have hmono : StrictMono ofUnits := fun _ _ => ofUnits_lt
  rw [← cmp_eq_compare, ← cmp_eq_compare, hmono.cmp_map_eq]

/-- Places in their order are values in theirs. -/
theorem Places.compare_eq (hp : Places p x) (hq : Places q y) :
    (compare p.1 q.1).then (compare p.2 q.2) = compare x y := by
  symm
  cases hp with
  | finite u =>
    cases hq with
    | finite v => exact compare_ofUnits u v
    | bottom => exact compare_gt_iff_gt.mpr (WithBot.bot_lt_coe _)
    | top => exact compare_lt_iff_lt.mpr (WithBot.coe_lt_coe.mpr (WithTop.coe_lt_top _))
  | bottom =>
    cases hq with
    | finite v => exact compare_lt_iff_lt.mpr (WithBot.bot_lt_coe _)
    | bottom => exact compare_eq_iff_eq.mpr rfl
    | top => exact compare_lt_iff_lt.mpr (WithBot.bot_lt_coe _)
  | top =>
    cases hq with
    | finite v => exact compare_gt_iff_gt.mpr (WithBot.coe_lt_coe.mpr (WithTop.coe_lt_top _))
    | bottom => exact compare_gt_iff_gt.mpr (WithBot.bot_lt_coe _)
    | top => exact compare_eq_iff_eq.mpr rfl

/-- A number has a place and a value that agree, or is NaN and has neither. -/
theorem place_cases (n : Number) :
    (n.isNaN = true ∧ n.place? = none ∧ n.value? = none) ∨
    (n.isNaN = false ∧ ∃ p x, n.place? = some p ∧ n.value? = some x ∧ Places p x) := by
  have hone : (unitsPerOne : ℚ) ≠ 0 := Nat.cast_ne_zero.mpr (Nat.ne_of_gt unitsPerOne_pos)
  rcases n with i | (_ | negative | ⟨negative, units, fits⟩)
  · refine .inr ⟨rfl, _, _, rfl, ?_, .finite (i * unitsPerOne)⟩
    simp [value?, ofUnits, hone]
  · exact .inl ⟨rfl, rfl, rfl⟩
  · cases negative
    · exact .inr ⟨rfl, _, _, rfl, rfl, .top⟩
    · exact .inr ⟨rfl, _, _, rfl, rfl, .bottom⟩
  · refine .inr ⟨rfl, _, _, rfl, ?_, .finite _⟩
    cases negative <;> simp [value?, ofUnits]

theorem exists_value (h : n.isNaN = false) : ∃ x, n.value? = some x := by
  rcases n.place_cases with ⟨hnan, -⟩ | ⟨-, _, x, -, hx, -⟩
  · rw [h] at hnan
    cases hnan
  · exact ⟨x, hx⟩

theorem exists_place (h : n.value? = some x) : ∃ p, n.place? = some p ∧ Places p x := by
  rcases n.place_cases with ⟨-, -, hnone⟩ | ⟨-, p, y, hp, hy, hplaces⟩
  · rw [h] at hnone
    cases hnone
  · cases h.symm.trans hy
    exact ⟨p, hp, hplaces⟩

/-- Numbers compare as their exact values do. -/
theorem compare?_eq (hm : m.value? = some x) (hn : n.value? = some y) :
    m.compare? n = some (compare x y) := by
  obtain ⟨p, hp, hpx⟩ := exists_place hm
  obtain ⟨q, hq, hqy⟩ := exists_place hn
  unfold compare?
  rw [hp, hq, ← hpx.compare_eq hqy]

end BunnyGrid.Number
