import BunnyGrid.Proofs.Session.Refusal

/-! A run begins by putting everything back, so nothing that was done on a map before is left in
it. -/
namespace BunnyGrid

namespace Session
open Play

/-- The board that an operation loads. -/
def Operation.board? : Operation → Option Board
  | .load d => (Board.ofData d).toOption
  | .install board => some board
  | _ => none

variable {s s' : Session} {stage stage' : Stage} {op : Operation} {board : Board}

section Board

theorem apply_of_board? (s : Session) (h : op.board? = some board) :
    s.apply op = (s.loadBoard board).session := by
  cases op with
  | load d =>
    cases hd : Board.ofData d with
    | error e =>
      simp only [Operation.board?, hd] at h
      cases h
    | ok board' =>
      simp only [Operation.board?, hd] at h
      have hb : board' = board := Option.some.inj h
      subst board'
      simp only [apply, load, hd]
      rfl
  | install board' =>
    have hb : board' = board := Option.some.inj h
    subst board'
    rfl
  | _ => cases h

theorem Leads.exists_board (h : s.Leads s') (hs : s.stage = some stage) :
    ∃ stage', s'.stage = some stage' ∧ stage'.board = stage.board := by
  obtain ⟨stage', hs', hn⟩ := h.exists_after hs
  let I (t : Stage) : Prop := t.board = stage.board
  have hboard : I stage' := hn.kept (fun _ ht => ht) (fun _ _ _ ht => ht) rfl
  exact ⟨stage', hs', hboard⟩

/-- Only a load changes the board. -/
theorem apply_board (s : Session) (hop : op.board? = none) (hs : s.stage = some stage) :
    ∃ stage', (s.apply op).stage = some stage' ∧ stage'.board = stage.board := by
  by_cases hplays : op.plays = true
  · exact (apply_leads s hplays).exists_board hs
  · cases op with
    | load d =>
      cases hd : Board.ofData d with
      | error e =>
        simp only [apply, load, hd]
        exact ⟨stage, hs, rfl⟩
      | ok board =>
        simp only [Operation.board?, hd] at hop
        cases hop
    | install board => cases hop
    | setScore index score =>
      simp only [apply]
      split
      case h_1 h =>
        obtain ⟨t, slot, ht, rfl⟩ := setScore_cases h
        have hsame : t = stage := Option.some.inj (ht.symm.trans hs)
        subst t
        exact ⟨_, rfl, rfl⟩
      case h_2 => exact ⟨stage, hs, rfl⟩
    | _ => exact absurd rfl hplays

theorem applyAll_board (s : Session) (ops : List Operation) (hops : ∀ op ∈ ops, op.board? = none)
    (hs : s.stage = some stage) :
    ∃ stage', (s.applyAll ops).stage = some stage' ∧ stage'.board = stage.board := by
  induction ops generalizing s stage with
  | nil => exact ⟨stage, hs, rfl⟩
  | cons op ops ih =>
    obtain ⟨t, ht, hb⟩ := apply_board s (hops op (.head _)) hs
    obtain ⟨t', ht', hb'⟩ := ih (s.apply op) (fun op h => hops op (.tail _ h)) ht
    exact ⟨t', ht', hb'.trans hb⟩

end Board

/-- Sessions with one board and the same rules are the same once they are put back. -/
theorem reset_eq (hs : s.stage = some stage) (hs' : s'.stage = some stage')
    (hr : s'.rules = s.rules) (hb : stage'.board = stage.board) : s'.reset = s.reset := by
  have hback : stage'.reset = stage.reset := congrArg Stage.ofBoard hb
  unfold reset
  rw [hr, hs, hs', Option.map_some, Option.map_some, hback]

theorem run_congr (hs : s.stage = some stage) (hs' : s'.stage = some stage')
    (hr : s'.rules = s.rules) (hb : stage'.board = stage.board) (first second : Program) :
    (s'.run first second).value = (s.run first second).value ∧
      ((s.run first second).value.status.isRefusal = false →
        (s'.run first second).session = (s.run first second).session) := by
  have hcheck := refusal?_congr hs hs' hb [first, second]
  have hreset := reset_eq hs hs' hr hb
  unfold run
  rw [hcheck, hreset]
  cases hpass : s.refusal? [first, second] with
  | none => exact ⟨rfl, fun _ => rfl⟩
  | some r =>
    refine ⟨rfl, fun h => ?_⟩
    have hrefused : r.status.isRefusal = true := isRefusal_of_refusal? hpass
    rw [hrefused] at h
    cases h

/-- After a load a run has the outcome that it has in a new session on the same map, whatever was
done before the load and, without another load, after it. If it is not refused, it also leaves the
same session. -/
theorem run_forgets_history (base : Session) (hop : op.board? = some board) (ops : List Operation)
    (hops : ∀ op ∈ ops, op.board? = none) (first second : Program) :
    let s := (base.apply op).applyAll ops
    let fresh := after base.rules [op]
    (s.run first second).value = (fresh.run first second).value ∧
      ((s.run first second).value.status.isRefusal = false →
        (s.run first second).session = (fresh.run first second).session) := by
  intro s fresh
  have hload : (base.apply op).stage = some (.ofBoard board) := by
    rw [apply_of_board? base hop]
    rfl
  have hfresh : fresh.stage = some (.ofBoard board) := by
    show (apply { rules := base.rules } op).stage = _
    rw [apply_of_board? _ hop]
    rfl
  obtain ⟨stage, hs, hb⟩ := applyAll_board (base.apply op) ops hops hload
  have hrules : fresh.rules = s.rules := by
    rw [after_rules, applyAll_rules, apply_rules]
  obtain ⟨hvalue, hsession⟩ := run_congr hs hfresh hrules hb.symm first second
  exact ⟨hvalue.symm, fun h => (hsession h).symm⟩

/-- A score that was written and a step that was taken do not show in the next run. -/
theorem run_forgets_history_least :
    let right : Block := .act (.turn .right)
    let s := after {} [.install .least, .step [right, right], .setScore 0 7]
    s.cursor = 1 ∧ (s.run [right] []).value = ((after {} [.install .least]).run [right] []).value ∧
      (s.run [right] []).value.scores = [0] := by
  intro right s
  have hop : Operation.board? (.install .least) = some .least := rfl
  have h := run_forgets_history {} hop [.step [right, right], .setScore 0 7]
    (by simp [Operation.board?]) [right] []
  exact ⟨by decide, h.1, by decide⟩

end Session
end BunnyGrid
