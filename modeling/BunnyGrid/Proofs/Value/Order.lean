import BunnyGrid.Proofs.Number.Order
import BunnyGrid.Value.Comparison
import Mathlib.Data.Bool.Basic
import Mathlib.Data.String.Basic

/-! Comparison as a strict order of each kind of value. Values of one kind have ranks in a linear
order that comparison goes by: numbers their exact values, texts and truth values themselves. -/
namespace BunnyGrid

namespace Scalar

/-- Whether a value is NaN. -/
def isNaN : Scalar → Bool
  | .number n => n.isNaN
  | _ => false

variable {a b c : Scalar}

theorem sameKind_self (a : Scalar) : a.sameKind a = true := by
  cases a <;> rfl

theorem sameKind_symm (h : a.sameKind b = true) : b.sameKind a = true := by
  cases a <;> cases b <;> first | rfl | cases h

theorem compare?_of_not_sameKind (h : a.sameKind b = false) : a.compare? b = none := by
  cases a <;> cases b <;> first | rfl | cases h

/-- A truth value itself, to rank it. -/
def truth : Scalar → Bool
  | .bool b => b
  | _ => false

/-- The exact value of a number. -/
def size : Scalar → WithBot (WithTop ℚ)
  | .number n => n.value?.getD ⊥
  | _ => ⊥

/-- A text itself. -/
def string : Scalar → String
  | .text s => s
  | _ => ""

/-- Comparison ranks the values of a kind in a linear order. -/
theorem exists_rank (a : Scalar) : ∃ (α : Type) (_ : LinearOrder α) (rank : Scalar → α),
    ∀ b c, b.sameKind a = true → c.sameKind a = true → b.isNaN = false → c.isNaN = false →
      b.compare? c = some (compare (rank b) (rank c)) := by
  cases a with
  | bool =>
    refine ⟨Bool, inferInstance, truth, fun b c hb hc _ _ => ?_⟩
    cases b <;> cases hb
    cases c <;> cases hc
    rfl
  | number =>
    refine ⟨WithBot (WithTop ℚ), inferInstance, size, fun b c hb hc hnb hnc => ?_⟩
    cases b <;> cases hb
    cases c <;> cases hc
    obtain ⟨x, hx⟩ := Number.exists_value hnb
    obtain ⟨y, hy⟩ := Number.exists_value hnc
    simp only [compare?, size, hx, hy, Option.getD_some]
    exact Number.compare?_eq hx hy
  | text =>
    refine ⟨String, inferInstance, string, fun b c hb hc _ _ => ?_⟩
    cases b <;> cases hb
    cases c <;> cases hc
    rfl

end Scalar

namespace CompareOp

/-- How an operator relates two ranks. -/
def Relates {α : Type} [LinearOrder α] : CompareOp → α → α → Prop
  | .eq, x, y => x = y
  | .ne, x, y => x ≠ y
  | .lt, x, y => x < y
  | .le, x, y => x ≤ y
  | .gt, x, y => y < x
  | .ge, x, y => y ≤ x

variable {α : Type} [LinearOrder α] {a b : Scalar} {x y : α}

/-- An operator holds of two values if it relates their ranks. -/
theorem holds_iff_relates (op : CompareOp) (h : a.compare? b = some (Ord.compare x y)) :
    op.holds a b = true ↔ op.Relates x y := by
  unfold holds
  rw [h]
  rcases lt_trichotomy x y with hlt | heq | hgt
  · rw [compare_lt_iff_lt.mpr hlt]
    cases op <;> simp [accepts, Relates, hlt, hlt.le, hlt.ne, hlt.not_gt, hlt.not_ge]
  · rw [compare_eq_iff_eq.mpr heq]
    cases op <;> simp [accepts, Relates, heq]
  · rw [compare_gt_iff_gt.mpr hgt]
    cases op <;> simp [accepts, Relates, hgt, hgt.le, hgt.ne', hgt.not_gt, hgt.not_ge]

theorem countP_holds {o : Ordering} (h : a.compare? b = some o) :
    [lt, eq, gt].countP (·.holds a b) = 1 := by
  unfold holds
  rw [h]
  cases o <;> rfl

/-- The laws of a strict order and its equality, for three values. -/
structure Lawful (a b c : Scalar) : Prop where
  eq_self : eq.holds a a = true
  eq_symm : eq.holds a b = true → eq.holds b a = true
  eq_trans : eq.holds a b = true → eq.holds b c = true → eq.holds a c = true
  lt_trans : lt.holds a b = true → lt.holds b c = true → lt.holds a c = true
  /-- Exactly one of the three holds. -/
  trichotomy : [lt, eq, gt].countP (·.holds a b) = 1
  gt_eq : gt.holds a b = lt.holds b a
  le_eq : le.holds a b = (lt.holds a b || eq.holds a b)
  ge_eq : ge.holds a b = le.holds b a

/-- "Not equal" is the opposite of "equal" for all values. Of values of different kinds no other
operator holds. Those of one kind obey the laws of an order, NaN apart, and numbers stand in it as
their exact values do. -/
theorem comparison_lawful (a b c : Scalar) :
    (ne.holds a b = !eq.holds a b) ∧
    (a.sameKind b = false → ∀ op : CompareOp, op ≠ ne → op.holds a b = false) ∧
    (a.sameKind b = true → b.sameKind c = true →
      a.isNaN = false → b.isNaN = false → c.isNaN = false → Lawful a b c) ∧
    (∀ m n x y, m.value? = some x → n.value? = some y →
      (lt.holds (.number m) (.number n) = true ↔ x < y) ∧
      (eq.holds (.number m) (.number n) = true ↔ x = y)) := by
  refine ⟨rfl, fun h op hop => ?_, fun hab hbc ha hb hc => ?_, fun m n x y hm hn => ?_⟩
  · unfold holds
    rw [Scalar.compare?_of_not_sameKind h]
    cases op <;> first | rfl | exact absurd rfl hop
  · obtain ⟨α, _, rank, hrank⟩ := b.exists_rank
    have hbb := b.sameKind_self
    have hcb := Scalar.sameKind_symm hbc
    have haa := fun op => holds_iff_relates op (hrank a a hab hab ha ha)
    have hab' := fun op => holds_iff_relates op (hrank a b hab hbb ha hb)
    have hba := fun op => holds_iff_relates op (hrank b a hbb hab hb ha)
    have hbc' := fun op => holds_iff_relates op (hrank b c hbb hcb hb hc)
    have hac := fun op => holds_iff_relates op (hrank a c hab hcb ha hc)
    constructor
    case eq_self => exact (haa eq).mpr rfl
    case eq_symm => exact fun h => (hba eq).mpr ((hab' eq).mp h).symm
    case eq_trans => exact fun h h' => (hac eq).mpr (((hab' eq).mp h).trans ((hbc' eq).mp h'))
    case lt_trans =>
      exact fun h h' => (hac lt).mpr (lt_trans ((hab' lt).mp h) ((hbc' lt).mp h'))
    case trichotomy => exact countP_holds (hrank a b hab hbb ha hb)
    case gt_eq => exact Bool.eq_iff_iff.mpr ((hab' gt).trans (hba lt).symm)
    case le_eq =>
      rw [Bool.eq_iff_iff, Bool.or_eq_true, hab', hab', hab']
      exact le_iff_lt_or_eq
    case ge_eq => exact Bool.eq_iff_iff.mpr ((hab' ge).trans (hba le).symm)
  · have h := Number.compare?_eq hm hn
    exact ⟨holds_iff_relates lt h, holds_iff_relates eq h⟩

/-- The safe bound, and the next whole number, which no double is. -/
def bound : Scalar := .int (2 ^ 53)

def pastBound : Scalar := .int (2 ^ 53 + 1)

def endless : Scalar := .number (.double (.infinity false))

theorem comparison_lawful_past_bound :
    (bound.sameKind pastBound = true ∧ pastBound.sameKind endless = true ∧
      bound.isNaN = false ∧ pastBound.isNaN = false ∧ endless.isNaN = false) ∧
    Lawful bound pastBound endless ∧ lt.holds bound pastBound = true ∧
    (Scalar.bool true).sameKind pastBound = false ∧ eq.holds (.bool true) pastBound = false := by
  obtain ⟨-, -, hlawful, hvalue⟩ := comparison_lawful bound pastBound endless
  obtain ⟨-, hkinds, -⟩ := comparison_lawful (.bool true) pastBound endless
  have hless : (((2 ^ 53 : ℤ) : ℚ) : WithTop ℚ) < (((2 ^ 53 + 1 : ℤ) : ℚ) : WithTop ℚ) :=
    WithTop.coe_lt_coe.mpr (Int.cast_lt.mpr (by decide))
  have hlt : lt.holds bound pastBound = true :=
    (hvalue _ _ _ _ rfl rfl).1.mpr (WithBot.coe_lt_coe.mpr hless)
  exact ⟨⟨rfl, rfl, rfl, rfl, rfl⟩, hlawful rfl rfl rfl rfl rfl, hlt, rfl,
    hkinds rfl eq (by decide)⟩

end CompareOp
end BunnyGrid
