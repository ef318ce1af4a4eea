import BunnyGrid.Proofs.Session.Termination

/-! What a refusal leaves of a session. All refusals but one are made before anything is put
back. -/
namespace BunnyGrid

namespace Session
open Play

/-- Whether a run is refused only after the world was put back: the one program that has blocks is
meant for a second bunny that the map does not have. -/
def RefusesLate (s : Session) (first second : Program) : Prop :=
  ∃ stage, s.stage = some stage ∧ stage.board.bunnyCount = 1 ∧ first = [] ∧ second ≠ [] ∧
    (second.count : Int) ≤ stage.board.blockLimit

variable {s : Session} {stage : Stage} {first second program : Program}

/-- Without a map nothing passes the first check. -/
theorem exists_stage_of_passes {programs : List Program} (h : s.refusal? programs = none) :
    ∃ stage, s.stage = some stage := by
  unfold refusal? at h
  split at h
  · cases h
  · exact ⟨_, ‹_›⟩

theorem refusal?_congr {s' : Session} {stage' : Stage} (hs : s.stage = some stage)
    (hs' : s'.stage = some stage') (hb : stage'.board = stage.board) (programs : List Program) :
    s'.refusal? programs = s.refusal? programs := by
  simp only [refusal?, hs, hs', hb]

theorem overLimit?_pair_eq_none {limit : Int} {n : Nat} :
    overLimit? limit n [first, second] = none ↔
      (first.count : Int) ≤ limit ∧ (second.count : Int) ≤ limit := by
  simp only [overLimit?]
  grind

/-- A run passes the first check if one of the programs has blocks and none has too many. -/
theorem refusal?_pair_eq_none (hs : s.stage = some stage) :
    s.refusal? [first, second] = none ↔ ¬ (first = [] ∧ second = []) ∧
      (first.count : Int) ≤ stage.board.blockLimit ∧
      (second.count : Int) ≤ stage.board.blockLimit := by
  unfold refusal?
  rw [hs]
  simp only [List.all_cons, List.all_nil, Bool.and_true, Bool.and_eq_true, List.isEmpty_iff]
  split
  case isTrue h => simp [h]
  case isFalse h => simp [h, overLimit?_pair_eq_none]

/-- A program that is too long is refused with a message and nothing else. -/
theorem eq_of_overLimit? {limit : Int} {n : Nat} {programs : List Program} {r : RunResult}
    (h : overLimit? limit n programs = some r) :
    r = { status := .blockLimitExceeded, message := r.message } := by
  induction programs generalizing n with
  | nil => cases h
  | cons p rest ih =>
    unfold overLimit? at h
    split at h
    · cases h
      rfl
    · exact ih h

theorem isRefusal_of_overLimit? {limit : Int} {n : Nat} {programs : List Program} {r : RunResult}
    (h : overLimit? limit n programs = some r) : r.status.isRefusal = true := by
  rw [eq_of_overLimit? h]
  rfl

theorem isRefusal_of_refusal? {programs : List Program} {r : RunResult}
    (h : s.refusal? programs = some r) : r.status.isRefusal = true := by
  unfold refusal? at h
  split at h
  · cases h
    rfl
  · split at h
    · cases h
      rfl
    · exact isRefusal_of_overLimit? h

/-- A stage that is put back has the bunnies of its board. -/
theorem reset_bunnies_length (stage : Stage) :
    stage.reset.toPlay.world.bunnies.length = stage.board.bunnyCount := by
  simp [Stage.reset, Stage.ofBoard, Stage.toPlay, World.ofBoard, Board.bunnyCount]

theorem refusesLate_iff (hs : s.stage = some stage) : s.RefusesLate first second ↔
    s.refusal? [first, second] = none ∧ stage.reset.toPlay.HasNothing first second := by
  rw [refusal?_pair_eq_none hs, HasNothing, reset_bunnies_length]
  constructor
  · rintro ⟨stage', hs', hone, rfl, hsecond, hle⟩
    cases hs.symm.trans hs'
    have hzero : Program.count [] = 0 := rfl
    exact ⟨⟨fun h => hsecond h.2, by omega, hle⟩, rfl, .inr hone⟩
  · rintro ⟨⟨hsome, -, hle⟩, rfl, hnone⟩
    have hsecond : second ≠ [] := fun h => hsome ⟨rfl, h⟩
    exact ⟨stage, hs, hnone.resolve_left hsecond, rfl, hsecond, hle⟩

theorem reset_stage (hs : s.stage = some stage) : s.reset.stage = some stage.reset := by
  simp [reset, hs]

/-- A run that is refused late leaves the world put back. -/
theorem run_of_refusesLate (h : s.RefusesLate first second) :
    (s.run first second).session = s.reset ∧ (s.run first second).value.status = .emptyProgram := by
  obtain ⟨stage, hs, -⟩ := id h
  obtain ⟨hpass, hnone⟩ := (refusesLate_iff hs).mp h
  unfold run
  rw [hpass]
  exact continueWith_of_hasNothing (reset_stage hs) hnone

/-- A run that passes the first check and has something to run is not refused. -/
theorem run_not_refused (hc : s.Coherent) (hpass : s.refusal? [first, second] = none)
    (h : ¬ s.RefusesLate first second) : (s.run first second).value.status.isRefusal = false := by
  obtain ⟨stage, hs⟩ := exists_stage_of_passes hpass
  have hsome : ¬ stage.reset.toPlay.HasNothing first second := fun hnone =>
    h ((refusesLate_iff hs).mpr ⟨hpass, hnone⟩)
  have hreset : stage.reset.world.Coherent s.rules.stepLimit.toNat :=
    (reset_leads s).coherent hc _ (reset_stage hs)
  obtain ⟨told, q, hq, -, hr⟩ := continueWith_ends (reset_stage hs) hsome
  unfold run
  rw [hpass]
  dsimp only
  rw [hr]
  have hq : q.world.Coherent s.rules.stepLimit.toNat := hq.steps.coherent hreset
  exact hq.not_refusal

/-- A run that is not refused comes to its end from where the stage is put back. -/
theorem ends_of_run (hs : s.stage = some stage)
    (h : (s.run first second).value.status.isRefusal = false) :
    ∃ told q, Ends s.rules first second { stage.reset.toPlay with notices := told } q ∧
      (s.run first second).session.stage = some (stage.reset.after q) ∧
      (s.run first second).value = q.result := by
  cases hpass : s.refusal? [first, second] with
  | some r =>
    unfold run at h
    rw [hpass] at h
    cases (isRefusal_of_refusal? hpass).symm.trans h
  | none =>
    have hrun : s.run first second = s.reset.continueWith first second := by
      unfold run
      rw [hpass]
    have hsome : ¬ stage.reset.toPlay.HasNothing first second := by
      intro hnone
      rw [hrun, (continueWith_of_hasNothing (reset_stage hs) hnone).2] at h
      cases h
    rw [hrun]
    exact continueWith_ends (reset_stage hs) hsome

theorem nextStep_value_status {plan : List Action} (hs : s.stage = some stage) :
    (s.nextStep plan).value.status = (s.nextStep plan).session.status := by
  simp only [nextStep, runStep, perform, hs, status, world?]
  rfl

/-- A step that passes the check tells the status of the session. -/
theorem step_value_status (h : s.refusal? [program] = none) :
    (s.step program).value.status = (s.step program).session.status := by
  obtain ⟨stage, hs⟩ := exists_stage_of_passes h
  unfold step
  rw [h]
  dsimp only
  split
  all_goals
    dsimp only
    split
    · simp [result, status, world?, hs, Play.result, Stage.toPlay]
    · exact nextStep_value_status hs

theorem Coherent.status_not_refusal (hc : s.Coherent) (hs : s.stage = some stage) :
    s.status.isRefusal = false := by
  unfold status world?
  rw [hs]
  exact (hc stage hs).not_refusal

theorem step_of_refusal {r : RunResult} (h : s.refusal? [program] = some r) :
    s.step program = { session := s, value := r } := by
  unfold step
  rw [h]

/-- A refused step leaves the session as it was. -/
theorem step_of_refused (hc : s.Coherent) (h : (s.step program).value.status.isRefusal = true) :
    (s.step program).session = s := by
  cases hpass : s.refusal? [program] with
  | some r => rw [step_of_refusal hpass]
  | none =>
    have hleads := step_leads s program
    obtain ⟨stage, hs⟩ := exists_stage_of_passes hpass
    obtain ⟨stage', hs', -⟩ := hleads.exists_after hs
    rw [step_value_status hpass, (hleads.coherent hc).status_not_refusal hs'] at h
    cases h

/-- A run that is refused at the first check leaves the session as it was. -/
theorem run_of_refused (hc : s.Coherent)
    (h : (s.run first second).value.status.isRefusal = true)
    (hlate : ¬ s.RefusesLate first second) :
    (s.run first second).session = s := by
  cases hpass : s.refusal? [first, second] with
  | some r =>
    unfold run
    rw [hpass]
  | none =>
    rw [run_not_refused hc hpass hlate] at h
    cases h

/-- After every history a refused step leaves the session as it was. A refused run does so unless
it is refused late, which puts the world back. -/
theorem refusal_keeps_iff (rules : Rules) (history : List Operation)
    (program first second : Program) :
    let s := after rules history
    ((s.step program).value.status.isRefusal = true → (s.step program).session = s) ∧
    ((s.run first second).value.status.isRefusal = true →
      ((s.run first second).session = s ↔ ¬ s.RefusesLate first second ∨ s.reset = s)) ∧
    (s.RefusesLate first second → (s.run first second).value.status = .emptyProgram ∧
      (s.run first second).session = s.reset) := by
  intro s
  have hc : s.Coherent := after_coherent rules history
  refine ⟨step_of_refused hc, fun h => ?_, fun hlate => (run_of_refusesLate hlate).symm⟩
  by_cases hlate : s.RefusesLate first second
  · rw [(run_of_refusesLate hlate).1]
    simp [hlate]
  · simp [hlate, run_of_refused hc h hlate]

/-- On a map with one bunny a refused run may put a completed world back. -/
theorem refused_run_resets :
    let s := after {} [.install .least, .run [.act (.turn .right)] []]
    let reply := s.run [] [.act (.turn .right)]
    reply.value.status = .emptyProgram ∧ s.status = .completed ∧ reply.session.status = .idle := by
  decide

end Session
end BunnyGrid
