import BunnyGrid.Proofs.Play.Pace
import BunnyGrid.Proofs.Session.Status

/-! Whatever the programs, a run comes to an end. -/
namespace BunnyGrid

namespace Session
open Play

variable {rules : Rules}

/-- On a stage the programs run from where its world stands. -/
theorem continueWith_of_stage {s : Session} {stage : Stage} (hs : s.stage = some stage)
    (first second : Program) :
    let ran := stage.toPlay.run s.rules first second
    s.continueWith first second =
      { session := { s with stage := some (stage.after ran.1) }, value := ran.2,
        notices := ran.1.notices } := by
  unfold continueWith perform
  rw [hs]

theorem continueWith_of_none {s : Session} (hs : s.stage = none) (first second : Program) :
    s.continueWith first second = { session := s, value := noMapResult } := by
  unfold continueWith perform
  rw [hs]

/-- Without something to run the stage stays, and the answer is a refusal. -/
theorem continueWith_of_hasNothing {s : Session} {stage : Stage} {first second : Program}
    (hs : s.stage = some stage) (h : stage.toPlay.HasNothing first second) :
    (s.continueWith first second).session = s ∧
      (s.continueWith first second).value.status = .emptyProgram := by
  obtain ⟨hw, he, hr⟩ := run_of_hasNothing s.rules h
  rw [continueWith_of_stage hs]
  dsimp only
  rw [hr]
  refine ⟨?_, rfl⟩
  unfold Stage.after
  rw [hw, he]
  cases s
  simp_all [Stage.toPlay]

/-- With something to run the programs come to their end on the stage. -/
theorem continueWith_ends {s : Session} {stage : Stage} {first second : Program}
    (hs : s.stage = some stage) (h : ¬ stage.toPlay.HasNothing first second) :
    ∃ told q, Ends s.rules first second { stage.toPlay with notices := told } q ∧
      (s.continueWith first second).session.stage = some (stage.after q) ∧
      (s.continueWith first second).value = q.result := by
  obtain ⟨p, q, hw, he, hq, hw', he', hr⟩ := run_ends s.rules h
  refine ⟨p.notices, q, ?_, ?_, ?_⟩
  · dsimp only
    rw [← hw, ← he]
    exact hq
  · rw [continueWith_of_stage hs]
    simp only [Stage.after, hw', he']
  · rw [continueWith_of_stage hs]
    exact hr

/-- On every stage that a history leads to, programs come to an end, in exactly one way: the run
has a terminal status unless it is refused, the counter is at most one past the step limit, and
every new event is paid for by a count. -/
theorem continueWith_terminates (rules : Rules) (history : List Operation) (stage : Stage)
    (hs : (after rules history).stage = some stage) (first second : Program) :
    let reply := (after rules history).continueWith first second
    ∃ told q, reply.session.stage = some (stage.after q) ∧
      (reply.value.status.isRefusal = false →
        (∀ r, Ends rules first second { stage.toPlay with notices := told } r ↔ r = q) ∧
        reply.value = q.result ∧ q.world.status.isTerminal = true) ∧
      (q.world.steps : Int) ≤ max rules.stepLimit 0 + 1 ∧
      ∃ new : List Event, q.events.toList = stage.events.toList ++ new ∧
        new.length + stage.world.steps ≤ q.world.steps := by
  have hc := after_coherent rules history stage hs
  rw [after_rules] at hc
  by_cases h : stage.toPlay.HasNothing first second
  · obtain ⟨hsame, hr⟩ := continueWith_of_hasNothing hs h
    refine ⟨#[], stage.toPlay, ?_, ?_, ?_, [], by simp [Stage.toPlay], by simp [Stage.toPlay]⟩
    · rw [hsame]
      exact hs
    · intro hn
      rw [hr] at hn
      cases hn
    · have hle := hc.steps_le_succ
      simp only [Stage.toPlay]
      omega
  · obtain ⟨told, q, hq, hst, hr⟩ := continueWith_ends hs h
    rw [after_rules] at hq
    have hcq : q.world.Coherent rules.stepLimit.toNat := hq.steps.coherent hc
    refine ⟨told, q, hst, fun _ => ⟨fun r => ?_, hr, hq.isTerminal hc⟩, ?_, ?_⟩
    · exact ⟨fun hr' => hr'.det hq, fun hr' => hr' ▸ hq⟩
    · have hle := hcq.steps_le_succ
      omega
    · obtain ⟨new, he, hn⟩ := hq.paced
      refine ⟨new, he, ?_⟩
      simp only [Stage.toPlay] at hn
      omega

/-- Turning for ever takes all counts there are, and one more. -/
theorem continueWith_terminates_spin :
    ∃ q : Play, ((after { stepLimit := 3 } [.install .least]).continueWith .spin []).session.stage =
        some ((Stage.ofBoard .least).after q) ∧
      (((after { stepLimit := 3 } [.install .least]).continueWith .spin []).value.status =
        .runawayLoop) ∧ (q.world.steps : Int) ≤ max 3 0 + 1 := by
  obtain ⟨told, q, hst, hr, hn, -⟩ :=
    continueWith_terminates { stepLimit := 3 } [.install .least] _ rfl .spin []
  exact ⟨q, hst, rfl, hn⟩

end Session
end BunnyGrid
