import BunnyGrid.Proofs.Play.Placement
import BunnyGrid.Proofs.Session.Progress

/-! The world of a session stays well formed from the load of its board on. -/
namespace BunnyGrid

namespace Session

theorem Leads.wellFormed {s s' : Session} {board : Board} (h : s.Leads s')
    (hs : s.stage = some (.ofBoard board)) (hb : board.WellFormed) :
    ∃ stage, s'.stage = some stage ∧ stage.board = board ∧ stage.world.WellFormed board := by
  obtain ⟨stage, hs', hn⟩ := h.exists_after hs
  let I (stage : Stage) : Prop := stage.board = board ∧ stage.world.WellFormed board
  have hreset (stage : Stage) (hst : I stage) : I stage.reset := by
    refine ⟨hst.1, ?_⟩
    unfold Stage.reset
    rw [hst.1]
    exact World.ofBoard_wellFormed hb
  have hplay (stage : Stage) (q : Play) (hq : Play.Steps s.rules stage.toPlay q) (hst : I stage) :
      I (stage.after q) := ⟨hst.1, hq.wellFormed hst.2⟩
  have hstage : I stage := hn.kept hreset hplay ⟨rfl, World.ofBoard_wellFormed hb⟩
  exact ⟨stage, hs', hstage⟩

/-- From the load of a map on, whatever is played, the grid keeps the size that the map gives, one
or two bunnies stay on it with scores that are not negative, and the cells are the map's own but for
strawberries that are gone. -/
theorem load_keeps_wellFormed (s : Session) (d : Data) (reply : Reply Unit)
    (h : s.load d = .ok reply) (ops : List Operation) (hops : ∀ op ∈ ops, op.plays = true) :
    ∃ board stage fields rows, Board.ofData d = .ok board ∧
      (reply.session.applyAll ops).stage = some stage ∧ stage.board = board ∧
      d = .record fields ∧ Data.field "mapData" fields = .list rows ∧
      Board.readSize fields rows = .ok stage.world.grid.size ∧ 1 ≤ stage.world.grid.size ∧
      (stage.world.bunnies.length = 1 ∨ stage.world.bunnies.length = 2) ∧
      (stage.toPlay.result.scores.length = stage.world.bunnies.length ∧
        stage.toPlay.result.moves.length = stage.world.bunnies.length ∧
        stage.toPlay.result.active.length = stage.world.bunnies.length) ∧
      (∀ b ∈ stage.world.bunnies, 0 ≤ b.x ∧ b.x < stage.world.grid.size ∧
        0 ≤ b.y ∧ b.y < stage.world.grid.size ∧ 0 ≤ b.score) ∧
      ∀ x y, (stage.world.grid.cell x y).WellFormed ∧
        (stage.world.grid.cell x y = board.grid.cell x y ∨
          stage.world.grid.cell x y = {} ∧ (board.grid.cell x y).kind = .strawberry) := by
  unfold load at h
  cases hd : Board.ofData d with
  | error e =>
    rw [hd] at h
    cases h
  | ok board =>
    rw [hd] at h
    cases h
    have hb := Board.ofData_wellFormed hd
    obtain ⟨fields, rows, hf, hr, -, hn⟩ := Board.ofData_size hd
    have hleads := applyAll_leads (s.loadBoard board).session ops hops
    have hload : (s.loadBoard board).session.stage = some (.ofBoard board) := rfl
    obtain ⟨stage, hs, hboard, hw⟩ := hleads.wellFormed hload hb
    refine ⟨board, stage, fields, rows, rfl, hs, hboard, hf, hr, ?_, ?_, ?_, ?_, ?_, ?_⟩
    · rw [hw.size]
      exact hn
    · rw [hw.size]
      exact hb.size_pos
    · rw [hw.count]
      exact board.bunnyCount_eq
    · simp [Play.result, Stage.toPlay]
    · intro b hmem
      have hplaced := Grid.contains_iff.mp (hw.placed b hmem)
      have hscore := hw.scores b hmem
      have hsize := hw.size
      omega
    · intro x y
      exact ⟨hw.cell_wellFormed hb x y, hw.cells x y⟩

/-- A bunny that jumps off the least map is still placed on it. -/
theorem load_keeps_wellFormed_least :
    ∃ reply, Session.load {} Board.leastData = .ok reply ∧
      ∃ stage, (reply.session.applyAll [.jump 0 .ahead 1]).stage = some stage ∧
        stage.world.status = .boundaryExit ∧ ∀ b ∈ stage.world.bunnies, 0 ≤ b.x ∧ 0 ≤ b.y := by
  have hload : Session.load {} Board.leastData = .ok (loadBoard {} .least) := by
    unfold load
    rw [Board.ofData_least]
    rfl
  refine ⟨_, hload, ?_⟩
  obtain ⟨board, stage, fields, rows, -, hs, -, -, -, -, -, -, -, hb, -⟩ :=
    load_keeps_wellFormed {} _ _ hload [.jump 0 .ahead 1] (by decide)
  refine ⟨stage, hs, ?_, fun b hmem => ⟨(hb b hmem).1, (hb b hmem).2.2.1⟩⟩
  cases hs
  rfl

end Session
end BunnyGrid
