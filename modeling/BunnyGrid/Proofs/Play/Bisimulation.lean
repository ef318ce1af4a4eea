import BunnyGrid.Proofs.Play.Congruence
import BunnyGrid.Proofs.Play.Walk

/-! Relations of plays that go in step. If the parts of actions keep a relation and neither a stop
nor a count tells related plays apart, then each move leaves the same code on both sides, and runs
of the same turns come to related plays. -/
namespace BunnyGrid.Play

/-- A relation of plays that makes the same moves on both sides and is kept by them. -/
structure IsBisimulation (rules : Rules) (who : Actor) (R : Play → Play → Prop) : Prop
    extends IsCongruence rules who R where
  halted : ∀ {p p'}, R p p' → p'.halted who = p.halted who
  tick : ∀ {p p'}, R p p' →
    (p'.tick rules).2 = (p.tick rules).2 ∧ R (p.tick rules).1 (p'.tick rules).1

namespace IsBisimulation

variable {rules : Rules} {who : Actor} {R : Play → Play → Prop} {p p' : Play}

theorem enter (hR : IsBisimulation rules who R) (h : R p p') :
    (p'.enter rules who).2 = (p.enter rules who).2 ∧
      R (p.enter rules who).1 (p'.enter rules who).1 := by
  unfold Play.enter
  rw [hR.halted h]
  split
  · exact ⟨rfl, h⟩
  · exact hR.tick h

theorem test (hR : IsBisimulation rules who R) (h : R p p') (condition : Expr) :
    (p'.test who condition).2 = (p.test who condition).2 ∧
      R (p.test who condition).1 (p'.test who condition).1 :=
  ⟨congrArg Scalar.truthy (hR.eval h condition), hR.tell h _ _⟩

/-- A move of code leaves the same code in related plays, and keeps them related. -/
theorem advance (hR : IsBisimulation rules who R) (h : R p p') (c : Code) :
    (c.advance rules who p').1 = (c.advance rules who p).1 ∧
      R (c.advance rules who p).2 (c.advance rules who p').2 := by
  have entered {left : List Code} :
      (if (p'.enter rules who).2 then left else []) = (if (p.enter rules who).2 then left else []) ∧
        R (p.enter rules who).1 (p'.enter rules who).1 := by
    rw [(hR.enter h).1]
    exact ⟨rfl, (hR.enter h).2⟩
  cases c with
  | block b =>
    unfold Code.advance
    rw [hR.halted h]
    cases hh : p.halted who with
    | true => exact ⟨rfl, h⟩
    | false =>
      have hh' := (hR.halted h).trans hh
      cases b with
      | act a => exact ⟨rfl, hR.perform h hh hh' a⟩
      | branch condition yes no =>
        obtain ⟨hflag, hq⟩ := hR.test h condition
        refine ⟨?_, hq⟩
        dsimp only
        rw [hflag]
        rfl
      | whileLoop condition body => exact ⟨rfl, h⟩
      | repeatLoop times body =>
        have htimes := Amount.eval_congr (hR.eval h) times
        exact ⟨congrArg (fun n : Int => [Code.rounds n.toNat body]) htimes, hR.tell h _ _⟩
      | unknown kind raw => exact ⟨rfl, hR.record (hR.tell h _ _) .malformed ""⟩
  | blocks bs =>
    cases bs with
    | nil => exact ⟨rfl, h⟩
    | cons b rest => exact entered
  | loop condition body =>
    obtain ⟨hflag, hq⟩ := hR.test h condition
    unfold Code.advance
    dsimp only
    rw [hflag]
    split
    · obtain ⟨hgoes, hr⟩ := hR.enter hq
      rw [hgoes]
      exact ⟨rfl, hr⟩
    · exact ⟨rfl, hq⟩
  | rounds n body =>
    cases n with
    | zero => exact ⟨rfl, h⟩
    | succ n => exact entered

end IsBisimulation

section Turns

variable {rules : Rules} {R : Play → Play → Prop} {p p' q q' : Play}

/-- Walks of the same code from related plays come to related plays. -/
theorem Walk.related (hR : ∀ who, IsBisimulation rules who R) {jobs : List (Actor × Code)}
    {ps ps' : List Play} (hw : Walk rules jobs p ps q) (hw' : Walk rules jobs p' ps' q')
    (h : R p p') : R q q' := by
  induction hw generalizing p' ps' with
  | done =>
    cases hw'
    exact h
  | @next who c codes rest p q ps r ha _ ih =>
    cases hw' with
    | next ha' hrest' =>
      obtain ⟨hcodes, hq⟩ := (hR who).advance h c
      rw [ha, ha'] at hcodes hq
      dsimp only at hcodes hq
      rw [hcodes] at hrest'
      exact ih hrest' hq

theorem takeTurns_related (hR : ∀ who, IsBisimulation rules who R) (h : R p p')
    (turns : List (Actor × Block)) : R (p.takeTurns rules turns) (p'.takeTurns rules turns) := by
  obtain ⟨ps, hw⟩ := takeTurns_walk rules turns p
  obtain ⟨ps', hw'⟩ := takeTurns_walk rules turns p'
  exact hw.related hR hw' h

end Turns

end BunnyGrid.Play
