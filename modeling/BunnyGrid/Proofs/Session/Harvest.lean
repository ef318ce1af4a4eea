import BunnyGrid.Proofs.Play.Harvest
import BunnyGrid.Proofs.Session.Progress

/-! Whatever is done to a session, the strawberries of its map are accounted for. -/
namespace BunnyGrid

/-- A map with a strawberry ahead of the bunny and a stone behind the corner. -/
def Board.patchData : Data :=
  .record
    [ ("mapData", .list
        [ .list [.null, .record [("type", .text "strawberry"), ("value", .int 3)]],
          .list [.null, .record [("type", .text "stone")]] ]),
      ("bunnyPosition", .record [("x", .int 0), ("y", .int 0), ("direction", .text "right")]) ]

def Board.patchRows : Vector (Vector Cell 2) 2 :=
  #v[#v[{}, ⟨.strawberry, 3⟩], #v[{}, ⟨.stone, 0⟩]]

def Board.patch : Board where
  grid := ⟨2, patchRows⟩
  first := ⟨0, 0, .right⟩

theorem Board.ofData_patch : ofData patchData = .ok patch := by
  let berry : Data := .record [("type", .text "strawberry"), ("value", .int 3)]
  let stone : Data := .record [("type", .text "stone")]
  have hkind : CellKind.ofName? (Text.smalls "strawberry") = some .strawberry := by decide +kernel
  have hberry : Cell.ofData berry = .ok ⟨.strawberry, 3⟩ := by
    unfold Cell.ofData
    simp only [berry, Data.field?, Data.text, List.lookup_cons, Data.asText]
    simp [hkind, Cell.wholeValue, Data.int, Scalar.int]
  have htop : Vector.mapM Cell.ofData #v[.null, berry] = .ok #v[{}, ⟨.strawberry, 3⟩] := by
    rw [vector_mapM_eq_ok]
    have hempty : Cell.ofData .null = .ok {} := rfl
    simp [hberry, hempty, bind, pure, Except.bind, Except.pure]
  have hbottom : Vector.mapM Cell.ofData #v[.null, stone] = .ok #v[{}, ⟨.stone, 0⟩] :=
    vector_mapM_eq_ok.mpr rfl
  have hrows : Vector.mapM (Vector.mapM Cell.ofData) #v[#v[.null, berry], #v[.null, stone]] =
      .ok patchRows := by
    rw [vector_mapM_eq_ok]
    simp [htop, hbottom, bind, pure, Except.bind, Except.pure, patchRows]
  have hgrid : readGrid 2 [.list [.null, berry], .list [.null, stone]] = .ok patch.grid :=
    bind_eq_ok.mpr ⟨_, hrows, rfl⟩
  show ofFields _ = _
  unfold ofFields
  simp only [bind_eq_ok]
  exact ⟨_, rfl, _, rfl, _, rfl, _, hgrid, _, rfl, _, rfl, _, rfl, rfl⟩

namespace Session

variable {s s' : Session} {board : Board}

theorem Leads.harvested (h : s.Leads s') (hs : s.stage = some (.ofBoard board))
    (hr : 0 ≤ s.rules.stonePenalty) (hb : board.WellFormed) :
    ∃ stage, s'.stage = some stage ∧ stage.board = board ∧ stage.toPlay.Harvested board := by
  obtain ⟨stage, hs', hn⟩ := h.exists_after hs
  let I (stage : Stage) : Prop := stage.board = board ∧ stage.toPlay.Harvested board
  have hreset (stage : Stage) (hst : I stage) : I stage.reset := by
    refine ⟨hst.1, ?_⟩
    unfold Stage.reset
    rw [hst.1]
    exact Play.ofBoard_harvested hb
  have hplay (stage : Stage) (q : Play) (hq : Play.Steps s.rules stage.toPlay q) (hst : I stage) :
      I (stage.after q) := by
    have hkept := hq.harvested hst.2 hr hb
    exact ⟨hst.1, hkept.wellFormed, hkept.total_le, hkept.total_eq, hkept.once⟩
  have hstage : I stage := hn.kept hreset hplay ⟨rfl, Play.ofBoard_harvested hb⟩
  exact ⟨stage, hs', hstage⟩

/-- From a map that was just loaded or put back on, whatever is played, the scores and the
strawberries that are left come to no more than the map had, and to just that until a stone is hit.
At no place is a strawberry picked twice. -/
theorem strawberries_conserved (s : Session) (hr : 0 ≤ s.rules.stonePenalty) (d : Data)
    (board : Board) (hd : Board.ofData d = .ok board) (hs : s.stage = some (.ofBoard board))
    (ops : List Operation) (hops : ∀ op ∈ ops, op.plays = true) :
    ∃ stage, (s.applyAll ops).stage = some stage ∧ stage.board = board ∧
      stage.world.totalScore + stage.world.grid.strawberries ≤ board.grid.strawberries ∧
      ((∀ e ∈ stage.events.toList, e.kind ≠ .stone) →
        stage.world.totalScore + stage.world.grid.strawberries = board.grid.strawberries) ∧
      ∀ x y, Event.picked stage.events.toList x y ≤ 1 := by
  have hb := Board.ofData_wellFormed hd
  have hleads := applyAll_leads s ops hops
  obtain ⟨stage, hst, hboard, h⟩ := hleads.harvested hs hr hb
  refine ⟨stage, hst, hboard, h.total_le, h.total_eq, fun x y => ?_⟩
  have honce := h.once x y
  have hone : board.grid.standing x y ≤ 1 := by
    unfold Grid.standing
    split <;> omega
  simp only [Stage.toPlay] at honce
  omega

/-- A strawberry that was picked is lost at a stone. -/
theorem strawberries_conserved_patch :
    let s : Session := (loadBoard {} .patch).session
    ∃ stage, (s.applyAll [.jump 0 .ahead 1]).stage = some stage ∧
      stage.world.totalScore + stage.world.grid.strawberries = 3 ∧
      ∃ stage', (s.applyAll [.jump 0 .ahead 1, .turn 0 .right, .jump 0 .ahead 1]).stage =
        some stage' ∧ stage'.world.totalScore + stage'.world.grid.strawberries ≤ 3 := by
  intro s
  have hthree : Board.patch.grid.strawberries = 3 := by decide +kernel
  obtain ⟨stage, hs, -, -, heq, -⟩ := strawberries_conserved s (by decide) _ _ Board.ofData_patch
    rfl [.jump 0 .ahead 1] (by decide)
  obtain ⟨stage', hs', -, hle, -⟩ := strawberries_conserved s (by decide) _ _ Board.ofData_patch
    rfl [.jump 0 .ahead 1, .turn 0 .right, .jump 0 .ahead 1] (by decide)
  rw [hthree] at heq hle
  refine ⟨stage, hs, heq ?_, stage', hs', hle⟩
  cases hs
  decide

end Session
end BunnyGrid
