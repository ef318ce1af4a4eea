import BunnyGrid.Proofs.Play.Account
import BunnyGrid.Proofs.Session.Actors
import BunnyGrid.Proofs.Session.Harvest
import BunnyGrid.Proofs.Session.Refusal

/-! After every history on a map, the log since the world was last put back accounts for each
bunny. -/
namespace BunnyGrid

namespace Session

/-- A session on a board whose log accounts for its bunnies. -/
def Accounted (board : Board) (s : Session) : Prop :=
  ∃ stage, s.stage = some stage ∧ stage.board = board ∧
    Play.Accounted s.rules board stage.toPlay

/-- Whether an operation calls no bunny by counting from the end. -/
def Operation.isDirect (op : Operation) : Bool := op.index?.all fun index => 0 ≤ index

variable {board : Board} {s : Session}

theorem Operation.allowed_of_isDirect {op : Operation} (h : op.isDirect = true) :
    op.Allowed (·.isDirect = true) := by
  intro index hindex count who hwho
  unfold isDirect at h
  rw [hindex] at h
  exact (Actor.ofIndex?_label hwho).2 (of_decide_eq_true h)

theorem PlayedBy.accounted {rules : Rules} {stage stage' : Stage}
    (h : PlayedBy (·.isDirect = true) rules stage stage')
    (hp : Play.Accounted rules board stage.toPlay) (hb : board.WellFormed) :
    stage'.board = stage.board ∧ Play.Accounted rules board stage'.toPlay := by
  obtain ⟨q, hq, rfl⟩ := h
  obtain ⟨hw, ha⟩ := hq.accounted hp hb
  exact ⟨rfl, hw, ha⟩

theorem Accounted.goOn {op : Operation} (h : s.Accounted board) (hb : board.WellFormed)
    (hgo : op.goesOn = true) (hdirect : op.isDirect = true) : (s.apply op).Accounted board := by
  obtain ⟨stage, hs, hboard, hp⟩ := h
  have hmay := Operation.allowed_of_isDirect hdirect
  have halong := apply_playedBy Actor.isDirect_ofSlot s hgo hmay
  obtain ⟨stage', hs', hplayed⟩ := halong.exists_after hs
  obtain ⟨hsame, hp'⟩ := hplayed.accounted hp hb
  rw [← apply_rules s op] at hp'
  exact ⟨stage', hs', hsame.trans hboard, hp'⟩

theorem Accounted.putBack (h : s.Accounted board) (hb : board.WellFormed) {s' : Session}
    (hs' : s'.stage = s.stage.map .reset) : s'.Accounted board := by
  obtain ⟨stage, hs, rfl, -⟩ := h
  refine ⟨stage.reset, by rw [hs', hs]; rfl, rfl, ?_⟩
  exact Play.ofBoard_accounted s'.rules hb

/-- Whatever is played, the log goes on accounting for each bunny. -/
theorem Accounted.apply {op : Operation} (h : s.Accounted board) (hb : board.WellFormed)
    (hplays : op.plays = true) (hdirect : op.isDirect = true) : (s.apply op).Accounted board := by
  by_cases hgo : op.goesOn = true
  · exact h.goOn hb hgo hdirect
  · cases op with
    | load | install | setScore => cases hplays
    | reset | resetWorld => exact h.putBack hb rfl
    | run first second =>
      have hrest : (s.run first second).session = s ∨
          (s.run first second).session = s.reset.apply (.continueWith first second) := by
        unfold run
        split
        · exact .inl rfl
        · exact .inr rfl
      have hback : s.reset.Accounted board := h.putBack hb rfl
      show Accounted board (s.run first second).session
      rcases hrest with hkept | hrun
      · rw [hkept]
        exact h
      · rw [hrun]
        exact hback.goOn hb rfl rfl
    | _ => exact absurd rfl hgo

theorem Accounted.applyAll (h : s.Accounted board) (hb : board.WellFormed) (ops : List Operation)
    (hplays : ∀ op ∈ ops, op.plays = true) (hdirect : ∀ op ∈ ops, op.isDirect = true) :
    (s.applyAll ops).Accounted board := by
  induction ops generalizing s with
  | nil => exact h
  | cons op ops ih =>
    have hop := h.apply hb (hplays op (.head _)) (hdirect op (.head _))
    exact ih hop (fun op h => hplays op (.tail _ h)) (fun op h => hdirect op (.tail _ h))

/-- From a map that was just loaded or put back on, the log accounts for each bunny: its moves are
its landings and the price of its puddles, its score is what its strawberries and stones come to,
its last event shows it as it stands, and it has left the map exactly if that is its only exit. -/
theorem log_accounts {s : Session} {d : Data} {board : Board} (hd : Board.ofData d = .ok board)
    (hs : s.stage = some (.ofBoard board)) (ops : List Operation)
    (hplays : ∀ op ∈ ops, op.plays = true) (hdirect : ∀ op ∈ ops, op.isDirect = true) :
    ∃ stage, (s.applyAll ops).stage = some stage ∧
      ∀ (slot : Nat) b, stage.world.bunnies[slot]? = some b →
        let own := Event.ofSlot stage.events.toList slot
        b.moves = own.countP Event.isLanding + s.rules.puddleCost * own.countP Event.isPuddle ∧
        b.score = own.foldl (Event.scored s.rules board.grid) 0 ∧
        (∀ e, own.getLast? = some e → e.x = b.x ∧ e.y = b.y ∧ e.facing = b.facing ∧
          e.score = b.score ∧ e.moves = b.moves) ∧
        (b.active = false ↔
          (∃ e, own.getLast? = some e ∧ e.kind = .exit) ∧ own.countP Event.isExit = 1) := by
  have hb := Board.ofData_wellFormed hd
  have hstart : s.Accounted board := ⟨_, hs, rfl, Play.ofBoard_accounted s.rules hb⟩
  obtain ⟨stage, hs', -, hp⟩ := hstart.applyAll hb ops hplays hdirect
  rw [applyAll_rules] at hp
  refine ⟨stage, hs', fun slot b hbunny => ?_⟩
  have ha := hp.account slot b hbunny
  refine ⟨ha.moves, ha.score, fun e hlast => ?_, ha.active_iff⟩
  have hshows := ha.last e hlast
  exact ⟨hshows.x, hshows.y, hshows.facing, hshows.score, hshows.moves⟩

/-- A bunny picks a strawberry, hits a stone and jumps off the map. -/
theorem log_accounts_patch :
    let s := after {} [.install .patch]
    let ops : List Operation :=
      [.jump 0 .ahead 1, .turn 0 .right, .jump 0 .ahead 1, .jump 0 .ahead 1]
    ∃ stage, (s.applyAll ops).stage = some stage ∧
      (stage.events.toList.map (·.kind)) = [.strawberry, .turn, .stone, .exit] ∧
      (Event.ofSlot stage.events.toList 0).foldl (Event.scored {} Board.patch.grid) 0 = 0 ∧
      (Event.ofSlot stage.events.toList 0).countP Event.isExit = 1 := by
  intro s ops
  have hops : ∀ op ∈ ops, op.plays = true ∧ op.isDirect = true := by
    simp [ops, Operation.plays, Operation.isDirect, Operation.index?]
  have hkinds : (s.applyAll ops).stage.map (fun stage => stage.events.toList.map (·.kind)) =
      some [.strawberry, .turn, .stone, .exit] := by
    decide +kernel
  have hbunny : (s.applyAll ops).stage.map (·.world.bunnies[0]?) =
      some (some { x := 1, y := 1, facing := .down, active := false, score := 0, moves := 2 }) := by
    decide +kernel
  obtain ⟨stage, hs, haccounts⟩ := log_accounts (s := s) Board.ofData_patch rfl ops
    (fun op h => (hops op h).1) (fun op h => (hops op h).2)
  rw [hs] at hkinds hbunny
  obtain ⟨-, hscore, -, hexit⟩ := haccounts 0 _ (Option.some.inj hbunny)
  exact ⟨stage, hs, Option.some.inj hkinds, hscore.symm, (hexit.mp rfl).2⟩

end Session
end BunnyGrid
