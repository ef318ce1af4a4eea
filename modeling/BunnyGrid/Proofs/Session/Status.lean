import BunnyGrid.Proofs.World.Board
import BunnyGrid.Proofs.Play.Coherence
import BunnyGrid.Proofs.Session.Progress

/-! The status of a session agrees with the rest of its world after every history. -/
namespace BunnyGrid

namespace Session

/-- The status of a session's world is true. -/
def Coherent (s : Session) : Prop :=
  ∀ stage, s.stage = some stage → stage.world.Coherent s.rules.stepLimit.toNat

theorem Leads.coherent {s s' : Session} (h : s.Leads s') (hs : s.Coherent) : s'.Coherent := by
  intro stage' hs'
  obtain ⟨stage, hst, hn⟩ := h.exists_before hs'
  rw [h.1]
  have hreset (stage : Stage) (_ : stage.world.Coherent s.rules.stepLimit.toNat) :
      stage.reset.world.Coherent s.rules.stepLimit.toNat :=
    (World.ofBoard_going stage.board _).coherent
  exact hn.kept hreset (fun stage q hq h => hq.coherent h) (hs stage hst)

theorem applyAll_coherent (s : Session) (ops : List Operation) (hs : s.Coherent) :
    (s.applyAll ops).Coherent := by
  let I (stage : Stage) : Prop := stage.world.Coherent s.rules.stepLimit.toNat
  have hnew (board : Board) : I (.ofBoard board) := (World.ofBoard_going board _).coherent
  have hplay (stage : Stage) (q : Play) (hq : Play.Steps s.rules stage.toPlay q)
      (h : I stage) : I (stage.after q) := Play.Steps.coherent hq h
  have hscore (stage : Stage) (slot : Nat) (score : Int) (h : I stage) :
      I { stage with world := stage.world.mapBunny slot fun b => { b with score } } :=
    World.Coherent.congr h rfl rfl (by simp [World.anyActive, any_active_modify]) rfl
  intro stage hstage
  rw [applyAll_rules]
  exact applyAll_kept hnew hplay hscore rfl hs ops stage hstage

theorem apply_coherent (s : Session) (op : Operation) (hs : s.Coherent) :
    (s.apply op).Coherent := applyAll_coherent s [op] hs

theorem after_coherent (rules : Rules) (history : List Operation) :
    (after rules history).Coherent :=
  applyAll_coherent _ history (by intro stage h; cases h)

/-- After every history the world is over exactly if all bunnies left the map or the counter passed
the step limit, and the status says which. -/
theorem status_truthful (rules : Rules) (hl : 0 ≤ rules.stepLimit) (history : List Operation)
    (stage : Stage) (hs : (after rules history).stage = some stage) :
    (stage.world.ended = true ↔
      stage.world.status = .boundaryExit ∨ stage.world.status = .runawayLoop) ∧
    (stage.world.status = .boundaryExit ↔ ∀ b ∈ stage.world.bunnies, b.active = false) ∧
    (stage.world.status = .runawayLoop ↔ (stage.world.steps : Int) = rules.stepLimit + 1) ∧
    (stage.world.status ≠ .runawayLoop → (stage.world.steps : Int) ≤ rules.stepLimit) := by
  have h := after_coherent rules history stage hs
  rw [after_rules] at h
  refine ⟨h.ended_iff, ?_, ?_, fun hr => ?_⟩
  · rw [h.exit_iff]
    simp [World.anyActive]
  · rw [h.runaway_iff]
    omega
  · have := h.steps_le hr
    omega

/-- A bunny that turns for ever is stopped by the first count past the limit. -/
theorem status_truthful_spin :
    ∃ stage, (after { stepLimit := 3 } [.install .least, .run .spin []]).stage = some stage ∧
      stage.world.ended = true ∧ (stage.world.steps : Int) = 3 + 1 := by
  refine ⟨_, rfl, ?_⟩
  have h := status_truthful { stepLimit := 3 } (by decide) [.install .least, .run .spin []] _ rfl
  have hs : Status.runawayLoop = .runawayLoop := rfl
  exact ⟨h.1.mpr (.inr hs), h.2.2.1.mp hs⟩

end Session
end BunnyGrid
