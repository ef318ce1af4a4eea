import BunnyGrid.Proofs.Play.Lockstep
import BunnyGrid.Proofs.Session.Harvest
import BunnyGrid.Proofs.Session.Refusal

/-! What lies on the cells of a map never decides what a program does on it. -/
namespace BunnyGrid

/-- Whether the block limit of a map lets two programs through. -/
def Board.Admits (b : Board) (first second : Program) : Prop :=
  (first.count : Int) ≤ b.blockLimit ∧ (second.count : Int) ≤ b.blockLimit

/-- Two runs went in step: their results are so, and so are the worlds and the logs that they
leave. -/
structure Reply.InStep (r r' : Reply RunResult) : Prop where
  value : r.value.InStep r'.value
  stage : ∃ st st', r.session.stage = some st ∧ r'.session.stage = some st' ∧
    st.toPlay.InStep st'.toPlay

namespace Session
open Play

variable {s s' : Session} {stage stage' : Stage} {first second : Program}

theorem continueWith_inStep (hs : s.stage = some stage) (hs' : s'.stage = some stage')
    (hr : s'.rules = s.rules) (h : stage.toPlay.InStep stage'.toPlay) (first second : Program) :
    (s.continueWith first second).InStep (s'.continueWith first second) := by
  obtain ⟨hplay, hresult⟩ := h.run s.rules first second
  rw [continueWith_of_stage hs, continueWith_of_stage hs', hr]
  exact ⟨hresult, _, _, rfl, rfl, hplay.congr rfl rfl rfl rfl⟩

/-- The first check finds the same of two programs that the block limits of two maps let through or
both refuse. -/
theorem refusal?_inStep (hs : s.stage = some stage) (hs' : s'.stage = some stage')
    (hadmits : stage'.board.Admits first second ↔ stage.board.Admits first second) :
    (s.refusal? [first, second] = none ∧ s'.refusal? [first, second] = none) ∨
      ∃ r r', s.refusal? [first, second] = some r ∧ s'.refusal? [first, second] = some r' ∧
        r.InStep r' := by
  unfold refusal?
  rw [hs, hs']
  dsimp only
  split
  · exact .inr ⟨_, _, rfl, rfl, rfl, rfl, rfl, rfl⟩
  · have hnone (board : Board) :
        overLimit? board.blockLimit 1 [first, second] = none ↔ board.Admits first second :=
      overLimit?_pair_eq_none
    cases hover : overLimit? stage.board.blockLimit 1 [first, second] with
    | none =>
      have hpass := hadmits.mpr ((hnone _).mp hover)
      exact .inl ⟨rfl, (hnone _).mpr hpass⟩
    | some r =>
      cases hover' : overLimit? stage'.board.blockLimit 1 [first, second] with
      | none =>
        have hpass := hadmits.mp ((hnone _).mp hover')
        rw [(hnone _).mpr hpass] at hover
        cases hover
      | some r' =>
        refine .inr ⟨r, r', rfl, rfl, ?_⟩
        rw [eq_of_overLimit? hover, eq_of_overLimit? hover']
        exact ⟨rfl, rfl, rfl, rfl⟩

/-- On two maps of one size with the same starts, the same programs go the same way whatever lies on
the cells: the runs have the same status and count, their bunnies end at the same places with the
same facings and variables, on or off the map, and their events tell of the same bunnies, places and
facings. The check that comes before a run can only tell such maps apart by their block limits. -/
theorem run_ignores_cells (rules : Rules) (board board' : Board)
    (hsize : board'.grid.size = board.grid.size) (hstarts : board'.starts = board.starts)
    (first second : Program) :
    let s := after rules [.install board]
    let s' := after rules [.install board']
    (s.continueWith first second).InStep (s'.continueWith first second) ∧
      ((board'.Admits first second ↔ board.Admits first second) →
        (s.run first second).InStep (s'.run first second)) := by
  intro s s'
  have hstage : s.stage = some (.ofBoard board) := rfl
  have hstage' : s'.stage = some (.ofBoard board') := rfl
  have hfresh : (Stage.ofBoard board).toPlay.InStep (Stage.ofBoard board').toPlay :=
    ofBoard_inStep hsize hstarts
  refine ⟨continueWith_inStep hstage hstage' rfl hfresh first second, fun hadmits => ?_⟩
  unfold run
  rcases refusal?_inStep hstage hstage' hadmits with ⟨hpass, hpass'⟩ | ⟨r, r', hr, hr', hvalue⟩
  · rw [hpass, hpass']
    exact continueWith_inStep (reset_stage hstage) (reset_stage hstage') rfl hfresh first second
  · rw [hr, hr']
    exact ⟨hvalue, _, _, hstage, hstage', hfresh⟩

/-- The strawberry that is picked on one of two maps shows in the score and nowhere else. -/
theorem run_ignores_cells_patch :
    let meadow : Board := { Board.patch with grid := .blank 2 }
    let hops : Program := [.act (.jump .ahead (.plain 1)), .act (.jump .ahead (.plain 1))]
    let reply := (after {} [.install .patch]).run hops []
    let reply' := (after {} [.install meadow]).run hops []
    (meadow.Admits hops [] ↔ Board.patch.Admits hops []) ∧ reply.InStep reply' ∧
      reply.value.status = .boundaryExit ∧ reply.value.scores = [3] ∧
      reply'.value.scores = [0] := by
  intro meadow hops reply reply'
  have hadmits : meadow.Admits hops [] ↔ Board.patch.Admits hops [] := Iff.rfl
  have h := run_ignores_cells {} .patch meadow rfl rfl hops []
  exact ⟨hadmits, h.2 hadmits, by decide, by decide, by decide⟩

end Session
end BunnyGrid
