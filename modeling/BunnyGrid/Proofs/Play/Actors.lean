import BunnyGrid.Proofs.Play.Step
import BunnyGrid.Proofs.Play.Turns

/-! Plays in which only some bunnies act. A run is a chain of steps of the first two bunnies, each
called by its place, and a single step is one of the first. -/
namespace BunnyGrid

namespace Play

/-- One step of a play, by a bunny that may act. -/
inductive StepBy (rules : Rules) (may : Actor → Prop) (p : Play) : Play → Prop
  | change {who q} (hwho : may who) (h : Change rules who p q) : StepBy rules may p q
  | start (h : p.world.ended = false) (message : String) :
      StepBy rules may p ((p.setStatus .running).setMessage message)
  | finish (h : p.world.status = .idle ∨ p.world.status = .running) (message : String) :
      StepBy rules may p ((p.setStatus .completed).setMessage message)

/-- A chain of steps by bunnies that may act. -/
abbrev StepsBy (rules : Rules) (may : Actor → Prop) : Play → Play → Prop :=
  Relation.ReflTransGen (StepBy rules may)

variable {rules : Rules} {may : Actor → Prop} {who : Actor} {first second : Program} {p q : Play}

theorem StepBy.step (h : StepBy rules may p q) : Step rules p q := by
  cases h with
  | change _ h => exact .change h
  | start h message => exact .start h message
  | finish h message => exact .finish h message

theorem StepsBy.steps (h : StepsBy rules may p q) : Steps rules p q :=
  Relation.ReflTransGen.mono (fun _ _ h => h.step) _ _ h

theorem Change.stepsBy (hwho : may who) (h : Change rules who p q) : StepsBy rules may p q :=
  .single (.change hwho h)

theorem Changes.stepsBy (hwho : may who) (h : Changes rules who p q) : StepsBy rules may p q :=
  Relation.ReflTransGen.mono (fun _ _ h => .change hwho h) _ _ h

end Play

namespace Task
open Play

variable {rules : Rules} {may : Actor → Prop} {p q : Play}

theorem Moves.who {t t' : Task} (h : Moves rules t p t' q) : t'.who = t.who := by
  cases h with
  | rest | stop => rfl
  | late | take => exact settle_who ..

theorem Alternates.stepsBy {a b : Task} (h : Alternates rules a b p q) (ha : may a.who)
    (hb : may b.who) : StepsBy rules may p q := by
  induction h with
  | done => exact .refl
  | round _ hma hmb _ ih =>
    have hrest := ih (hma.who ▸ ha) (hmb.who ▸ hb)
    exact (hma.changes.stepsBy ha).trans ((hmb.changes.stepsBy hb).trans hrest)

end Task

namespace Play

variable {rules : Rules} {may : Actor → Prop} {first second : Program} {p q : Play}

/-- The world and the log are the same, whatever was told. -/
structure Same (p q : Play) : Prop where
  world : q.world = p.world
  events : q.events = p.events

section Slots

variable (hslot : ∀ slot, may (.ofSlot slot))

include hslot

theorem Same.stepsBy (h : Same p q) : StepsBy rules may p q := by
  have hq : { p with notices := q.notices } = q := by
    cases q
    simp [← h.world, ← h.events]
  have htell : Change rules (.ofSlot 0) p { p with notices := q.notices } := .tell q.notices
  rw [hq] at htell
  exact htell.stepsBy (hslot 0)

theorem start_stepsBy (h : p.world.ended = false) : StepsBy rules may p p.start := by
  have hstart : StepBy rules may p ((p.setStatus .running).setMessage "Running...") := .start h _
  have htold : Same ((p.setStatus .running).setMessage "Running...") p.start := ⟨rfl, rfl⟩
  exact .head hstart (htold.stepsBy hslot)

omit hslot in
theorem finish_stepsBy (p : Play) : StepsBy rules may p p.finish := by
  unfold finish
  split
  · exact .single (.finish (.inr ‹_›) _)
  · exact .refl

/-- In a run the first two bunnies act. -/
theorem Ends.stepsBy (h : Ends rules first second p q) : StepsBy rules may p q := by
  cases h with
  | ended => exact .refl
  | @alone q h _ hr =>
    have hrun : StepsBy rules may p.start q := hr.changes.stepsBy (hslot 0)
    exact (start_stepsBy hslot h).trans (hrun.trans (finish_stepsBy q))
  | @pair q h _ hr =>
    have hrun : StepsBy rules may p.start q := hr.stepsBy (hslot 0) (hslot 1)
    exact (start_stepsBy hslot h).trans (hrun.trans (finish_stepsBy q))

theorem run_stepsBy (rules : Rules) (first second : Program) (p : Play) :
    StepsBy rules may p (p.run rules first second).1 := by
  by_cases h : p.HasNothing first second
  · obtain ⟨hw, he, -⟩ := run_of_hasNothing rules h
    exact Same.stepsBy hslot ⟨hw, he⟩
  · obtain ⟨p', q, hw, he, hends, hw', he', -⟩ := run_ends rules h
    have hbefore : StepsBy rules may p p' := Same.stepsBy hslot ⟨hw, he⟩
    have hafter : StepsBy rules may q (p.run rules first second).1 := Same.stepsBy hslot ⟨hw', he'⟩
    exact hbefore.trans ((hends.stepsBy hslot).trans hafter)

theorem runStep_stepsBy (rules : Rules) (p : Play) (program : Program) (index : Int) :
    StepsBy rules may p (p.runStep rules program index).1 := by
  unfold runStep
  dsimp only
  split
  case h_1 => exact .refl
  case h_2 block hb =>
    have hp : p.world.ended = false := by
      cases h : p.world.ended <;> simp_all
    let r := if p.world.status = .idle then p.setStatus .running else p
    have hstart : StepsBy rules may p r := by
      unfold r
      split
      · exact .single (.start hp p.world.message)
      · exact .refl
    split
    · exact hstart.trans ((exec_runs _ r).changes.stepsBy (hslot 0))
    · have htold : Same r (r.note (.stepSkips block.typeName)) := ⟨rfl, rfl⟩
      exact hstart.trans (htold.stepsBy hslot)

end Slots

/-- Every bunny may act. -/
def Anyone (_ : Actor) : Prop := True

theorem anyone (slot : Nat) : Anyone (.ofSlot slot) := trivial

theorem start_steps (h : p.world.ended = false) : Steps rules p p.start :=
  (start_stepsBy anyone h).steps

theorem Ends.steps (h : Ends rules first second p q) : Steps rules p q := (h.stepsBy anyone).steps

theorem run_steps (rules : Rules) (first second : Program) (p : Play) :
    Steps rules p (p.run rules first second).1 := (run_stepsBy anyone rules first second p).steps

end Play
end BunnyGrid
