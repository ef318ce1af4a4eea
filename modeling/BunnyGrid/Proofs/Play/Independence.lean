import BunnyGrid.Proofs.Play.Alike
import BunnyGrid.Proofs.Play.Turns

/-! A bunny that takes turns with another one fares as if it ran alone. This is the argument by
which its way does not depend on the other one's program: two runs by turns are not compared with
each other, but each of them with the run of the one bunny. -/
namespace BunnyGrid
namespace Play

section Fair

variable {rules : Rules} {who other : Actor} {p p' q : Play}

/-- A world that is over only once no bunny is left. -/
def IsFair (p : Play) : Prop := p.world.ended = true → p.world.anyActive = false

theorem isFair_of_not_ended (h : p.world.ended = false) : p.IsFair := by
  intro hended
  rw [h] at hended
  cases hended

/-- Only a count can make a world unfair. -/
theorem Change.isFair (h : Change rules who p q) (hp : p.IsFair)
    (hs : q.world.steps = p.world.steps) : q.IsFair := by
  cases h with
  | tell => exact hp
  | turn hact | land hact =>
    have hended := not_ended_of_not_halted (not_halted_of_canAct hact)
    exact isFair_of_not_ended (by simp [hended])
  | store hh | skip hh =>
    have hended := not_ended_of_not_halted hh
    exact isFair_of_not_ended (by simp [hended])
  | leave hact =>
    have hended := not_ended_of_not_halted (not_halted_of_canAct hact)
    obtain ⟨told, hw⟩ := leave_world p who
    intro hover
    rw [hw] at hover ⊢
    dsimp only at hover ⊢
    split at hover
    · rw [hended] at hover
      cases hover
    · rename_i hnone
      rw [if_neg hnone]
      simpa [World.anyActive] using hnone
  | tick =>
    rw [tick_steps] at hs
    omega

/-- A fair world stays fair until the step limit ends it. -/
theorem Change.isFair_of_not_isCut (h : Change rules who p q) (hp : p.IsFair)
    (hq : ¬ q.world.IsCut) : q.IsFair := by
  rcases h.steps with hs | rfl
  · exact h.isFair hp hs
  · rcases ht : p.tick rules with ⟨q, _ | _⟩
    · rw [ht] at hq
      exact absurd (isCut_of_tick ht) hq
    · obtain ⟨-, rfl⟩ := eq_of_tick ht
      exact hp

theorem Changes.isFair (h : Changes rules who p q) (hp : p.IsFair) (hq : ¬ q.world.IsCut) :
    q.IsFair := by
  induction h with
  | refl => exact hp
  | tail _ h ih => exact h.isFair_of_not_isCut (ih (mt h.isCut hq)) hq

theorem perform_isFair (hp : p.IsFair) (hh : p.halted who = false) (a : Action) :
    (p.perform rules who a).IsFair := by
  obtain ⟨notices, hc⟩ := perform_change rules p who hh a
  exact hc.isFair hp (perform_steps rules p who a)

/-- In a fair world only a bunny that left has to stop. -/
theorem halted_of_isFair (hp : p.IsFair) (who : Actor) :
    p.halted who = !(p.bunny? who).any (·.active) := by
  unfold halted
  cases hactive : (p.bunny? who).any (·.active) with
  | false => simp
  | true =>
    obtain ⟨b, hb, hb'⟩ := (Option.any_eq_true _ _).mp hactive
    have hany : p.world.anyActive = true := by
      unfold World.anyActive
      exact List.any_eq_true.mpr ⟨b, List.mem_of_getElem? hb, hb'⟩
    cases hended : p.world.ended with
    | false => rfl
    | true =>
      rw [hp hended] at hany
      cases hany

end Fair

section Fares

variable {rules : Rules} {who other : Actor} {p p' q : Play}

/-- A bunny fares in the first play as in the second one, where no more was counted. -/
structure Fares (who : Actor) (p p' : Play) : Prop where
  alike : Alike who p p'
  steps_le : p'.world.steps ≤ p.world.steps
  fair : p.IsFair
  fair' : p'.IsFair

theorem Alike.halted (h : Alike who p p') (hp : p.IsFair) (hp' : p'.IsFair) :
    p'.halted who = p.halted who := by
  have hactive (o : Option Bunny) : o.any (·.active) = (o.map Bunny.unscored).any (·.active) := by
    cases o <;> rfl
  rw [halted_of_isFair hp', halted_of_isFair hp, hactive (p'.bunny? who), h.bunny, ← hactive]

theorem Fares.halted (h : Fares who p p') : p'.halted who = p.halted who :=
  h.alike.halted h.fair h.fair'

theorem fares_simulates (rules : Rules) (who : Actor) : Simulates rules who (Fares who) where
  halted := Fares.halted
  eval := fun h e => Expr.eval_congr h.alike.self e
  tell := fun h ns ns' => ⟨h.alike.tell ns ns', h.steps_le, h.fair, h.fair'⟩
  perform := by
    intro p p' h hh a
    have hh' := h.halted.trans hh
    have hsteps := perform_steps rules p who a
    have hsteps' := perform_steps rules p' who a
    have hle := h.steps_le
    have halike := (alike_isCongruence rules who).perform h.alike hh hh' a
    exact ⟨halike, by omega, perform_isFair h.fair hh a, perform_isFair h.fair' hh' a⟩
  skip := by
    intro p p' h hh
    have hh' := h.halted.trans hh
    have hskip : Change rules who p (p.record who .malformed "") := .skip hh
    have hskip' : Change rules who p' (p'.record who .malformed "") := .skip hh'
    refine ⟨h.alike.record .malformed "", ?_, hskip.isFair h.fair (by simp),
      hskip'.isFair h.fair' (by simp)⟩
    rw [record_steps, record_steps]
    exact h.steps_le
  tick := by
    intro p p' q h hh ht
    obtain ⟨hl, rfl⟩ := eq_of_tick ht
    have hle := h.steps_le
    have hl' : (p'.world.steps : Int) + 1 ≤ rules.stepLimit := by omega
    refine ⟨_, tick_of_le rules p' hl', ⟨h.alike.bunny, h.alike.size, h.alike.puddle,
      h.alike.trail⟩, ?_, h.fair, h.fair'⟩
    exact Nat.succ_le_succ hle

theorem Fares.of_other (h : Fares who p p') (hc : Changes rules other p q) (ho : who.Apart other)
    (hq : ¬ q.world.IsCut) : Fares who q p' where
  alike := (hc.alike_of_other ho).symm.trans h.alike
  steps_le := Nat.le_trans h.steps_le hc.steps_le
  fair := hc.isFair h.fair hq
  fair' := h.fair'

end Fares

end Play

namespace Task
open Play

/-- Wherever its bunny fares as in `p`, the rest of a task leads it alone to where it fares as in
`q`. -/
def Follows (rules : Rules) (t : Task) (p q : Play) : Prop :=
  ∀ p', Fares t.who p p' →
    ∃ q', Runs rules t.who (.blocks t.remaining) p' q' ∧ Fares t.who q q'

variable {rules : Rules} {t t' other other' : Task} {p q r : Play}

theorem follows_of_settled (h : t.remaining = [] ∨ p.halted t.who = true) :
    Follows rules t p p := by
  intro p' hp
  have h' : t.remaining = [] ∨ p'.halted t.who = true := by rwa [hp.halted]
  exact ⟨p', runs_of_settled h', hp⟩

/-- A task's own turn goes on as its bunny would alone. -/
theorem Moves.follows (h : Moves rules t p t' q) (hq : ¬ q.world.IsCut) (hs : t.Sound p) :
    Follows rules t' q r → Follows rules t p r := by
  intro hrest p' hp
  obtain ⟨hwho, -, ⟨rfl, hleft⟩ | ⟨hh, b, hleft, ht | ⟨q₀, ht, hr⟩⟩⟩ := h.inv hs
  · have hrest' := hrest p'
    rw [hwho, hleft] at hrest'
    exact hrest' hp
  · exact absurd (isCut_of_tick ht) hq
  · have hsim := fares_simulates rules t.who
    have henter := (enter_of_not_halted hh).trans ht
    obtain ⟨q₀', henter', hq₀⟩ := hsim.enter hp henter (mt hr.changes.isCut hq)
    obtain ⟨q', hr', hq'⟩ := hr.simulate hsim hq hq₀
    have hrest' := hrest q'
    rw [hwho] at hrest'
    obtain ⟨r', hrest'', hr''⟩ := hrest' hq'
    rw [hleft]
    exact ⟨r', .cons henter' hr' hrest'', hr''⟩

/-- The other task's turn is not felt. -/
theorem Moves.follows_other (h : Moves rules other p other' q) (ho : t.who.Apart other.who)
    (hq : ¬ q.world.IsCut) (hp : p.IsFair) (hs : t.Sound p) :
    t.Sound q ∧ (Follows rules t q r → Follows rules t p r) := by
  have hc := h.changes
  refine ⟨fun hf => ?_, fun hrest p' hp' => hrest p' (hp'.of_other hc ho hq)⟩
  have hsame : q.halted t.who = p.halted t.who :=
    (hc.alike_of_other ho).halted hp (hc.isFair hp hq)
  rw [hsame]
  exact hs hf

/-- Each of two tasks that take turns leads its bunny to where it comes to alone. -/
theorem Alternates.follows {a b : Task} (h : Alternates rules a b p q) (hab : a.who.Apart b.who)
    (hq : ¬ q.world.IsCut) (hp : p.IsFair) (ha : a.Sound p) (hb : b.Sound p) :
    Follows rules a p q ∧ Follows rules b p q := by
  -- A round is followed backwards from its end: the other task's turn is not felt, and the own turn
  -- is the next part of the run alone. Soundness is what ends it, at a task that is finished.
  induction h with
  | @done a b p h =>
    have settled {t : Task} (ht : t.Sound p) (h : t.finished = true ∨ p.world.ended = true) :
        Follows rules t p p := by
      refine follows_of_settled ?_
      rcases h with h | h
      · exact ht h
      · exact .inr (halted_of_ended h t.who)
    simp only [Bool.or_eq_true, Bool.and_eq_true] at h
    exact ⟨settled ha (h.imp_left (·.1)), settled hb (h.imp_left (·.2))⟩
  | @round a a' b b' p q r s h hma hmb hrest ih =>
    have hr : ¬ r.world.IsCut := mt hrest.course.isCut hq
    have hq' : ¬ q.world.IsCut := mt hmb.changes.isCut hr
    have hfair := hma.changes.isFair hp hq'
    obtain ⟨hwa, ha', -⟩ := hma.inv ha
    obtain ⟨hb', hother⟩ := hma.follows_other (r := s) hab.symm hq' hp hb
    obtain ⟨hwb, hb'', -⟩ := hmb.inv hb'
    obtain ⟨ha'', hother'⟩ := hmb.follows_other (r := s) (hwa ▸ hab) hr hfair ha'
    obtain ⟨hfa, hfb⟩ := ih (hwa ▸ hwb ▸ hab) hq (hmb.changes.isFair hfair hr) ha'' hb''
    exact ⟨hma.follows hq' ha (hother' hfa), hother (hmb.follows hr hb' hfb)⟩

end Task
end BunnyGrid
