import BunnyGrid.Play.Evaluation
import BunnyGrid.Proofs.Play.Order
import BunnyGrid.Proofs.Value.Count
import Mathlib.Data.List.Forall2

/-! Programs that write amounts in two ways: as plain whole numbers, or as literals that have to be
evaluated. -/
namespace BunnyGrid

/-- Amounts that are written as the same, or as a plain number and the literal that counts as it. A
literal that is too large for a double counts as zero. -/
inductive Amount.Respelt : Amount → Amount → Prop
  | same (a : Amount) : Respelt a a
  | literal {n : Int} (h : n < doubleBound) : Respelt (.plain n) (.expr (.literal (.int n)))
  | tooLarge {n : Int} (h : doubleBound ≤ n) : Respelt (.plain 0) (.expr (.literal (.int n)))

/-- Blocks that are the same but for how amounts at any depth are written. -/
inductive Block.Respelt : Block → Block → Prop
  | same (b : Block) : Respelt b b
  | jump {kind amount amount'} (h : amount.Respelt amount') :
      Respelt (.act (.jump kind amount)) (.act (.jump kind amount'))
  | branch {condition yes yes' no no'} (hyes : List.Forall₂ Respelt yes yes')
      (hno : List.Forall₂ Respelt no no') :
      Respelt (.branch condition yes no) (.branch condition yes' no')
  | whileLoop {condition body body'} (h : List.Forall₂ Respelt body body') :
      Respelt (.whileLoop condition body) (.whileLoop condition body')
  | repeatLoop {times times' body body'} (htimes : times.Respelt times')
      (h : List.Forall₂ Respelt body body') :
      Respelt (.repeatLoop times body) (.repeatLoop times' body')

/-- Programs that are the same but for how amounts are written. -/
abbrev Program.Respelt (p p' : Program) : Prop := List.Forall₂ Block.Respelt p p'

theorem Amount.Respelt.sameCount {a a' : Amount} (h : a.Respelt a') (self : Option Bunny) :
    SameCount (a.eval self) (a'.eval self) := by
  cases h with
  | same a => exact .refl _
  | literal h => exact Scalar.sameCount_int h
  | @tooLarge n h =>
    have hzero : (Scalar.int n).toCount = 0 := Scalar.toCount_int_of_huge (by omega)
    exact .inl hzero.symm

theorem Program.Respelt.refl (p : Program) : p.Respelt p := List.forall₂_same.mpr fun b _ => .same b

theorem Program.Respelt.isEmpty_eq {p p' : Program} (h : p.Respelt p') :
    p'.isEmpty = p.isEmpty := by
  cases h <;> rfl

namespace Block

mutual

theorem count_of_respelt (b : Block) {b' : Block} (h : b.Respelt b') : b'.count = b.count := by
  cases h with
  | same => rfl
  | jump => rfl
  | branch hyes hno =>
    rw [count, count, countAll_of_respelt _ hyes, countAll_of_respelt _ hno]
  | whileLoop h => rw [count, count, countAll_of_respelt _ h]
  | repeatLoop _ h => rw [count, count, countAll_of_respelt _ h]

theorem countAll_of_respelt (bs : List Block) {bs' : List Block}
    (h : List.Forall₂ Block.Respelt bs bs') : countAll bs' = countAll bs := by
  cases h with
  | nil => rfl
  | cons hb hbs => rw [countAll, countAll, count_of_respelt _ hb, countAll_of_respelt _ hbs]

end

end Block

/-- A respelt program has as many blocks. -/
theorem Program.Respelt.count_eq {p p' : Program} (h : p.Respelt p') : p'.count = p.count :=
  Block.countAll_of_respelt p h

/-- Turns of the same bunnies with blocks that are the same but for how amounts are written. -/
def TurnsRespelt (turns turns' : List (Actor × Block)) : Prop :=
  List.Forall₂ (fun t t' => t'.1 = t.1 ∧ t.2.Respelt t'.2) turns turns'

theorem turnsRespelt_map (who : Actor) {p p' : Program} (h : p.Respelt p') :
    TurnsRespelt (p.map (who, ·)) (p'.map (who, ·)) := by
  unfold TurnsRespelt
  rw [List.forall₂_map_left_iff, List.forall₂_map_right_iff]
  exact h.imp fun _ _ hb => ⟨rfl, hb⟩

theorem turnsRespelt_mergedTurns (a b : Actor) {xs xs' ys ys' : Program} (hx : xs.Respelt xs')
    (hy : ys.Respelt ys') : TurnsRespelt (mergedTurns a b xs ys) (mergedTurns a b xs' ys') := by
  induction hx generalizing ys ys' with
  | nil => exact turnsRespelt_map b hy
  | cons hb hxs ih =>
    cases hy with
    | nil => exact turnsRespelt_map a (.cons hb hxs)
    | cons hc hys => exact .cons ⟨rfl, hb⟩ (.cons ⟨rfl, hc⟩ (ih hys))

end BunnyGrid
