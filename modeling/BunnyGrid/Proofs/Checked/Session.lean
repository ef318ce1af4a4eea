import BunnyGrid.Proofs.Checked.Run
import BunnyGrid.Proofs.Session.Refusal

/-! Sessions in which every lookup is checked. A session always has a bunny on its map, so none of
its lookups fails. -/
namespace BunnyGrid

namespace Session.Checked

def perform {α : Type} (s : Session) (missing : α) (f : Play → Except Fault (Play × α)) :
    Except Fault (Reply α) :=
  match s.stage with
  | none => .ok { session := s, value := missing }
  | some stage => do
    let (p, value) ← f stage.toPlay
    .ok { session := { s with stage := some (stage.after p) }, value, notices := p.notices }

def continueWith (s : Session) (first second : Program) : Except Fault (Reply RunResult) :=
  perform s noMapResult (Play.Checked.run s.rules first second)

def run (s : Session) (first second : Program) : Except Fault (Reply RunResult) :=
  match s.refusal? [first, second] with
  | some r => .ok { session := s, value := r }
  | none => continueWith s.reset first second

def runStep (s : Session) (program : Program) (index : Int) :
    Except Fault (Reply (Option Int)) :=
  perform s none fun p => Play.Checked.runStep s.rules p program index

/-- A play after a step; past the end of the plan it is completed. -/
def conclude (ends : Bool) (p : Play) : Except Fault (Play × RunResult) := do
  let p ← if ends then Play.Checked.completeStep p else .ok p
  .ok (p, p.result)

def nextStep (s : Session) (plan : List Action) : Except Fault (Reply RunResult) := do
  let ran ← runStep s (plan.map .act) s.cursor
  let cursor := (ran.value.map Int.toNat).getD s.cursor
  let ends := ran.value.isNone || plan.length ≤ cursor
  let last ← perform { ran.session with cursor } noMapResult (conclude ends)
  .ok { last with notices := ran.notices ++ last.notices }

def step (s : Session) (program : Program) : Except Fault (Reply RunResult) :=
  match s.refusal? [program] with
  | some r => .ok { session := s, value := r }
  | none =>
    let planned :=
      match s.plan with
      | some plan => (plan, [])
      | none =>
        let u := program.unroll (some s.rules.stepLimit)
        (u.actions, u.skipped)
    let notices := (planned.2.map Notice.cannotUnroll).toArray
    let s := { s with plan := some planned.1 }
    if s.isOver then .ok { session := s, value := s.result none "", notices }
    else do
      let reply ← nextStep s planned.1
      .ok { reply with notices := notices ++ reply.notices }

end Session.Checked

namespace Session

/-- Whether there is a bunny on the map, if there is a map. -/
def Peopled (s : Session) : Prop :=
  ∀ stage, s.stage = some stage → Play.Checked.Has stage.toPlay 0

variable {s s' : Session}

theorem ofBoard_has (board : Board) : Play.Checked.Has (Stage.ofBoard board).toPlay 0 := by
  have hcount : (Stage.ofBoard board).toPlay.world.bunnies.length = board.bunnyCount := by
    simp [Stage.ofBoard, Stage.toPlay, World.ofBoard, Board.bunnyCount]
  show 0 < (Stage.ofBoard board).toPlay.world.bunnies.length
  rw [hcount]
  rcases board.bunnyCount_eq with h | h <;> omega

theorem steps_has {rules : Rules} {p q : Play} (h : Play.Steps rules p q)
    (hp : Play.Checked.Has p 0) : Play.Checked.Has q 0 := by
  induction h with
  | refl => exact hp
  | tail _ h ih =>
    cases h with
    | change h => exact ih.congr h.bunnies_length
    | start | finish => exact ih

theorem Leads.peopled (h : s.Leads s') (hs : s.Peopled) : s'.Peopled := by
  intro stage' hs'
  obtain ⟨stage, hstage, hn⟩ := h.exists_before hs'
  have hreset (t : Stage) (_ : Play.Checked.Has t.toPlay 0) : Play.Checked.Has t.reset.toPlay 0 :=
    ofBoard_has t.board
  have hplay (t : Stage) (q : Play) (hq : Play.Steps s.rules t.toPlay q)
      (ht : Play.Checked.Has t.toPlay 0) : Play.Checked.Has (t.after q).toPlay 0 := by
    have hq' : Play.Checked.Has q 0 := steps_has hq ht
    exact hq'
  exact hn.kept hreset hplay (hs stage hstage)

theorem loadBoard_peopled (s : Session) (board : Board) : (s.loadBoard board).session.Peopled := by
  intro stage hstage
  cases hstage
  exact ofBoard_has board

/-- Nothing that is done to a session empties its map. -/
theorem apply_peopled (s : Session) (op : Operation) (hs : s.Peopled) : (s.apply op).Peopled := by
  rcases apply_cases s op with h | ⟨board, h⟩ | ⟨stage, slot, score, hst, h⟩
  · exact h.peopled hs
  · rw [h]
    exact loadBoard_peopled s board
  · rw [h]
    intro stage' hst'
    cases hst'
    exact (hs stage hst).congr (by simp [Stage.toPlay])

namespace Checked

open Play.Checked (ok_bind)

theorem perform_eq {α : Type} {missing : α} {f : Play → Except Fault (Play × α)}
    {g : Play → Play × α} (h : ∀ stage, s.stage = some stage →
      f stage.toPlay = .ok (g stage.toPlay)) :
    perform s missing f = .ok (s.perform missing g) := by
  unfold perform Session.perform
  cases hs : s.stage with
  | none => rfl
  | some stage =>
    dsimp only
    rw [h stage hs]
    rfl

theorem continueWith_eq (hs : s.Peopled) (first second : Program) :
    continueWith s first second = .ok (s.continueWith first second) :=
  perform_eq fun stage hstage => Play.Checked.run_eq first second (hs stage hstage)

/-- A run never fails. -/
theorem run_eq (hs : s.Peopled) (first second : Program) :
    run s first second = .ok (s.run first second) := by
  unfold run Session.run
  cases s.refusal? [first, second] with
  | some r => rfl
  | none => exact continueWith_eq ((reset_leads s).peopled hs) first second

theorem runStep_eq (hs : s.Peopled) (program : Program) (index : Int) :
    runStep s program index = .ok (s.runStep program index) :=
  perform_eq fun stage hstage => Play.Checked.runStep_eq program index (hs stage hstage)

theorem conclude_eq (ends : Bool) {p : Play} (h : Play.Checked.Has p 0) :
    conclude ends p = .ok (if ends then completeStep p else p,
      (if ends then completeStep p else p).result) := by
  unfold conclude
  cases ends with
  | false => rfl
  | true =>
    rw [if_pos rfl, Play.Checked.completeStep_eq h]
    rfl

theorem perform_conclude_eq (hs : s.Peopled) (ends : Bool) :
    perform s noMapResult (conclude ends) = .ok (s.perform noMapResult fun p =>
      (if ends then completeStep p else p, (if ends then completeStep p else p).result)) :=
  perform_eq fun stage hstage => conclude_eq ends (hs stage hstage)

theorem nextStep_eq (hs : s.Peopled) (plan : List Action) :
    nextStep s plan = .ok (s.nextStep plan) := by
  have hran : (s.runStep (plan.map .act) s.cursor).session.Peopled :=
    (runStep_leads s (plan.map .act) s.cursor).peopled hs
  unfold nextStep
  rw [runStep_eq hs, ok_bind]
  dsimp only
  rw [perform_conclude_eq]
  · rfl
  · exact hran

/-- A step never fails. -/
theorem step_eq (hs : s.Peopled) (program : Program) : step s program = .ok (s.step program) := by
  unfold step Session.step
  cases s.refusal? [program] with
  | some r => rfl
  | none =>
    have hopened (plan : List Action) : Peopled { s with plan := some plan } := hs
    cases s.plan with
    | none | some plan =>
      dsimp only
      split
      · rfl
      · rw [nextStep_eq (hopened _)]
        rfl

end Checked

end Session
end BunnyGrid
