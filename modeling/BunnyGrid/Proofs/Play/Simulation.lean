import BunnyGrid.Proofs.Play.Congruence
import BunnyGrid.Proofs.Play.Step

/-! Runs of the same blocks from two plays. If the plays agree in what a bunny's blocks look at, and
the step limit does not cut the first run short, then both runs take the same way. -/
namespace BunnyGrid

/-- The step limit ended the world. -/
def World.IsCut (w : World) : Prop := w.ended = true ∧ w.status = .runawayLoop

namespace Play

section Cut

variable {rules : Rules} {who : Actor} {p q : Play}

theorem Change.isCut (h : Change rules who p q) (hp : p.world.IsCut) : q.world.IsCut := by
  rw [(h.frozen hp.1).1]
  exact hp

/-- What the step limit has ended stays ended by it. -/
theorem Changes.isCut (h : Changes rules who p q) (hp : p.world.IsCut) : q.world.IsCut := by
  induction h with
  | refl => exact hp
  | tail _ h ih => exact h.isCut ih

theorem Course.isCut (h : Course rules p q) (hp : p.world.IsCut) : q.world.IsCut := by
  induction h with
  | refl => exact hp
  | tail _ h ih =>
    obtain ⟨who, h⟩ := h
    exact h.isCut ih

theorem not_isCut_of_finish (h : p.finish.world.status ≠ .runawayLoop) : ¬ p.world.IsCut := by
  intro hp
  rw [finish_of_not_running (by rw [hp.2]; decide)] at h
  exact h hp.2

theorem isCut_of_tick (h : p.tick rules = (q, false)) : q.world.IsCut := by
  by_cases hl : (p.world.steps : Int) + 1 ≤ rules.stepLimit
  · rw [tick_of_le rules p hl] at h
    cases h
  · obtain ⟨-, -, told, hw⟩ := tick_of_lt rules p (Int.not_le.mp hl)
    rw [h] at hw
    rw [hw]
    exact ⟨rfl, rfl⟩

/-- A count within the limit changes the counter only. -/
theorem eq_of_tick (h : p.tick rules = (q, true)) : (p.world.steps : Int) + 1 ≤ rules.stepLimit ∧
    q = { p with world := { p.world with steps := p.world.steps + 1 } } := by
  by_cases hl : (p.world.steps : Int) + 1 ≤ rules.stepLimit
  · rw [tick_of_le rules p hl] at h
    cases h
    exact ⟨hl, rfl⟩
  · have hflag := (tick_of_lt rules p (Int.not_le.mp hl)).1
    rw [h] at hflag
    cases hflag

end Cut

/-- A relation of plays in which one bunny's blocks do the same on both sides. -/
structure Simulates (rules : Rules) (who : Actor) (R : Play → Play → Prop) : Prop where
  halted : ∀ {p p'}, R p p' → p'.halted who = p.halted who
  eval : ∀ {p p'}, R p p' → ∀ e : Expr, e.eval (p'.self? who) = e.eval (p.self? who)
  tell : ∀ {p p'}, R p p' → ∀ ns ns', R { p with notices := ns } { p' with notices := ns' }
  perform : ∀ {p p'}, R p p' → p.halted who = false → ∀ a,
    R (p.perform rules who a) (p'.perform rules who a)
  skip : ∀ {p p'}, R p p' → p.halted who = false →
    R (p.record who .malformed "") (p'.record who .malformed "")
  tick : ∀ {p p' q}, R p p' → p.halted who = false → p.tick rules = (q, true) →
    ∃ q', p'.tick rules = (q', true) ∧ R q q'

namespace Simulates

variable {rules : Rules} {who : Actor} {R : Play → Play → Prop} {p p' q : Play}

theorem test (hR : Simulates rules who R) (hp : R p p') {condition : Expr} {flag : Bool}
    (h : p.test who condition = (q, flag)) :
    ∃ q', p'.test who condition = (q', flag) ∧ R q q' := by
  have hsame : (p'.test who condition).2 = flag := by
    have hflag : (p.test who condition).2 = flag := by rw [h]
    rw [← hflag]
    exact congrArg Scalar.truthy (hR.eval hp condition)
  cases h
  exact ⟨_, Prod.ext rfl hsame, hR.tell hp _ _⟩

theorem enter (hR : Simulates rules who R) (hp : R p p') {flag : Bool}
    (h : p.enter rules who = (q, flag)) (hq : ¬ q.world.IsCut) :
    ∃ q', p'.enter rules who = (q', flag) ∧ R q q' := by
  unfold Play.enter at h ⊢
  rw [hR.halted hp]
  cases hh : p.halted who with
  | true =>
    rw [hh] at h
    cases h
    exact ⟨p', rfl, hp⟩
  | false =>
    rw [hh] at h
    cases flag with
    | false => exact absurd (isCut_of_tick h) hq
    | true => exact hR.tick hp hh h

end Simulates

/-- A run that is not cut short is matched from every related play. -/
theorem Runs.simulate {rules : Rules} {who : Actor} {R : Play → Play → Prop}
    (hR : Simulates rules who R) {c : Code} {p q : Play} (h : Runs rules who c p q)
    (hq : ¬ q.world.IsCut) {p' : Play} (hp : R p p') : ∃ q', Runs rules who c p' q' ∧ R q q' := by
  -- A world that is cut short stays so, hence no play inside the derivation is cut short either and
  -- each of its counts can be matched.
  induction h generalizing p' with
  | halt h =>
    have h' := (hR.halted hp).trans h
    exact ⟨p', .halt h', hp⟩
  | act h =>
    have h' := (hR.halted hp).trans h
    exact ⟨_, .act h', hR.perform hp h _⟩
  | unknown h =>
    have h' := (hR.halted hp).trans h
    exact ⟨_, .unknown h', hR.skip (hR.tell hp _ _) h⟩
  | yes h ht _ ih =>
    have h' := (hR.halted hp).trans h
    obtain ⟨r, ht', hr⟩ := hR.test hp ht
    obtain ⟨s, hs, hRs⟩ := ih hq hr
    exact ⟨s, .yes h' ht' hs, hRs⟩
  | no h ht _ ih =>
    have h' := (hR.halted hp).trans h
    obtain ⟨r, ht', hr⟩ := hR.test hp ht
    obtain ⟨s, hs, hRs⟩ := ih hq hr
    exact ⟨s, .no h' ht' hs, hRs⟩
  | whileLoop h _ ih =>
    have h' := (hR.halted hp).trans h
    obtain ⟨s, hs, hRs⟩ := ih hq hp
    exact ⟨s, .whileLoop h' hs, hRs⟩
  | @repeatLoop times body p q h _ ih =>
    have h' := (hR.halted hp).trans h
    obtain ⟨s, hs, hRs⟩ := ih hq (hR.tell hp _ (p'.noteAll (times.notices (p'.self? who))).notices)
    rw [← Amount.eval_congr (hR.eval hp) times] at hs
    exact ⟨s, .repeatLoop h' hs, hRs⟩
  | nil => exact ⟨p', .nil, hp⟩
  | stop h =>
    obtain ⟨r, h', hr⟩ := hR.enter hp h hq
    exact ⟨r, .stop h', hr⟩
  | cons h hb hr ihb ihr =>
    have hrest := mt hr.changes.isCut hq
    obtain ⟨r, h', hRr⟩ := hR.enter hp h (mt hb.changes.isCut hrest)
    obtain ⟨s, hs, hRs⟩ := ihb hrest hRr
    obtain ⟨t, ht, hRt⟩ := ihr hq hRs
    exact ⟨t, .cons h' hs ht, hRt⟩
  | loopEnd ht =>
    obtain ⟨r, ht', hr⟩ := hR.test hp ht
    exact ⟨r, .loopEnd ht', hr⟩
  | loopStop ht h =>
    obtain ⟨r, ht', hr⟩ := hR.test hp ht
    obtain ⟨s, h', hs⟩ := hR.enter hr h hq
    exact ⟨s, .loopStop ht' h', hs⟩
  | loopNext ht h hb hl ihb ihl =>
    have hrest := mt hl.changes.isCut hq
    obtain ⟨r, ht', hRr⟩ := hR.test hp ht
    obtain ⟨s, h', hRs⟩ := hR.enter hRr h (mt hb.changes.isCut hrest)
    obtain ⟨t, hbt, hRt⟩ := ihb hrest hRs
    obtain ⟨u, hlu, hRu⟩ := ihl hq hRt
    exact ⟨u, .loopNext ht' h' hbt hlu, hRu⟩
  | roundsEnd => exact ⟨p', .roundsEnd, hp⟩
  | roundsStop h =>
    obtain ⟨r, h', hr⟩ := hR.enter hp h hq
    exact ⟨r, .roundsStop h', hr⟩
  | roundsNext h hb hr ihb ihr =>
    have hrest := mt hr.changes.isCut hq
    obtain ⟨r, h', hRr⟩ := hR.enter hp h (mt hb.changes.isCut hrest)
    obtain ⟨s, hs, hRs⟩ := ihb hrest hRr
    obtain ⟨t, ht, hRt⟩ := ihr hq hRs
    exact ⟨t, .roundsNext h' hs ht, hRt⟩

end Play
end BunnyGrid
