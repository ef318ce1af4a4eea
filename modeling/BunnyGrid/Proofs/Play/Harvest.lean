import BunnyGrid.Proofs.Play.Placement

/-! Strawberries are accounted for: each of the board's is on the grid or in the log, once, and what
it is worth is on the grid or among the scores, unless a stone took it. -/
namespace BunnyGrid

theorem map_modify_of_eq {α β : Type} {f : α → α} {g : α → β} (h : ∀ a, g (f a) = g a)
    (as : List α) (i : Nat) : (as.modify i f).map g = as.map g := by
  have hid (a : α) : id (g a) = g (f a) := (h a).symm
  rw [← modify_map hid, List.modify_id]

/-- How many strawberries stand at a place. -/
def Grid.standing (g : Grid) (x y : Int) : Nat := if (g.cell x y).kind = .strawberry then 1 else 0

/-- How many strawberries were picked at a place. -/
def Event.picked (events : List Event) (x y : Int) : Nat :=
  events.countP fun e => e.kind = .strawberry ∧ e.x = x ∧ e.y = y

theorem World.totalScore_modify {w : World} {i : Nat} {b : Bunny} (h : w.bunnies[i]? = some b)
    (f : Bunny → Bunny) :
    (w.mapBunny i f).totalScore = w.totalScore - b.score + (f b).score := by
  obtain ⟨hlen, hb⟩ := List.getElem?_eq_some_iff.mp h
  have hset : w.bunnies.modify i f = w.bunnies.set i (f b) := by
    rw [List.modify_eq_set_get f hlen, List.get_eq_getElem, hb]
  have hsum (bs : List Bunny) : (bs.map (·.score)).foldr (· + ·) 0 = (bs.map (·.score)).sum := rfl
  unfold totalScore
  rw [mapBunny_bunnies, hset, hsum, hsum, List.map_set, List.sum_set',
    dif_pos (by simpa using hlen), List.getElem_map, hb]
  omega

namespace Play

/-- What a play has in common with the board that it was started from. -/
structure Harvested (board : Board) (p : Play) : Prop where
  wellFormed : p.world.WellFormed board
  total_le : p.world.totalScore + p.world.grid.strawberries ≤ board.grid.strawberries
  total_eq : (∀ e ∈ p.events.toList, e.kind ≠ .stone) →
    p.world.totalScore + p.world.grid.strawberries = board.grid.strawberries
  once : ∀ x y, Event.picked p.events.toList x y + p.world.grid.standing x y =
    board.grid.standing x y

variable {rules : Rules} {who : Actor} {p q : Play} {board : Board}

/-- Where no strawberry is picked, the account holds as long as only a stone lowers the scores. -/
theorem Harvested.keep (hp : p.Harvested board) (hw : q.world.WellFormed board)
    (hg : q.world.grid = p.world.grid) {new : List Event}
    (he : q.events.toList = p.events.toList ++ new) (hn : ∀ e ∈ new, e.kind ≠ .strawberry)
    (hle : q.world.totalScore ≤ p.world.totalScore)
    (hstone : q.world.totalScore = p.world.totalScore ∨ ∃ e ∈ new, e.kind = .stone) :
    q.Harvested board where
  wellFormed := hw
  total_le := by
    have hbefore := hp.total_le
    rw [hg]
    omega
  total_eq := by
    intro hno
    rw [he] at hno
    rcases hstone with hsame | ⟨e, hmem, hkind⟩
    · rw [hg, hsame]
      exact hp.total_eq fun e hmem => hno e (List.mem_append_left _ hmem)
    · exact absurd hkind (hno e (List.mem_append_right _ hmem))
  once := by
    intro x y
    have hnew : Event.picked new x y = 0 := by
      unfold Event.picked
      rw [List.countP_eq_zero]
      intro e hmem
      simp [hn e hmem]
    have hsplit : Event.picked q.events.toList x y =
        Event.picked p.events.toList x y + Event.picked new x y := by
      rw [he]
      exact List.countP_append
    rw [hsplit, hnew, hg]
    exact hp.once x y

theorem land_totalScore {b : Bunny} (hb : p.bunny? who = some b) (x y : Int) :
    (p.land rules who x y).world.totalScore =
      p.world.totalScore - b.score + (b.landed rules (p.world.grid.cell x y) x y).score := by
  rw [← World.totalScore_modify hb]
  unfold World.totalScore
  rw [land_bunnies, World.mapBunny_bunnies]

/-- A strawberry moves from its cell to the score of the bunny that lands there, and to the log. -/
theorem Harvested.pick (hp : p.Harvested board) (hb : board.WellFormed)
    {b : Bunny} (hbunny : p.bunny? who = some b) {x y : Int}
    (hxy : p.world.grid.contains x y = true) (hk : (p.world.grid.cell x y).kind = .strawberry)
    (hw : (p.land rules who x y).world.WellFormed board) :
    (p.land rules who x y).Harvested board := by
  have hgrid : (p.land rules who x y).world.grid = p.world.grid.put x y {} := by
    rw [land_grid, Grid.landed, if_pos hk]
  have hvalue := (hp.wellFormed.cell_wellFormed hb x y).strawberry hk
  have hscore := hp.wellFormed.scores b (List.mem_of_getElem? hbunny)
  have hgain : (b.landed rules (p.world.grid.cell x y) x y).score =
      b.score + (p.world.grid.cell x y).value := by
    simp only [Bunny.landed, hk]
    omega
  have hloss : (p.world.grid.put x y {}).strawberries =
      p.world.grid.strawberries - (p.world.grid.cell x y).value := by
    have hput := Grid.strawberries_put hxy {}
    simpa [Cell.worth, hk] using hput
  have htotal : (p.land rules who x y).world.totalScore +
      (p.land rules who x y).world.grid.strawberries =
        p.world.totalScore + p.world.grid.strawberries := by
    rw [land_totalScore hbunny, hgrid, hgain, hloss]
    omega
  obtain ⟨message, hlog⟩ := land_log rules p who hbunny x y
  rw [hk] at hlog
  refine ⟨hw, ?_, ?_, ?_⟩
  · rw [htotal]
    exact hp.total_le
  · intro hno
    rw [htotal]
    exact hp.total_eq fun e hmem => hno e (by rw [hlog]; exact List.mem_append_left _ hmem)
  · intro x' y'
    rw [hlog, hgrid, ← hp.once x' y']
    by_cases hplace : x' = x ∧ y' = y
    · obtain ⟨rfl, rfl⟩ := hplace
      simp [Event.picked, Grid.standing, Grid.cell_put hxy, hk, Bunny.event, CellKind.landing]
    · have hplace' : ¬ (x = x' ∧ y = y') := fun h => hplace ⟨h.1.symm, h.2.symm⟩
      simp [Event.picked, Grid.standing, Grid.cell_put hxy, hplace, hplace', Bunny.event]

theorem land_harvested (hp : p.Harvested board) (hr : 0 ≤ rules.stonePenalty)
    (hb : board.WellFormed) {b : Bunny} (hbunny : p.bunny? who = some b) {x y : Int}
    (hxy : p.world.grid.contains x y = true)
    (hw : (p.land rules who x y).world.WellFormed board) :
    (p.land rules who x y).Harvested board := by
  obtain ⟨message, hlog⟩ := land_log rules p who hbunny x y
  have htotal : (p.land rules who x y).world.totalScore =
      p.world.totalScore - b.score + (b.landed rules (p.world.grid.cell x y) x y).score :=
    land_totalScore hbunny x y
  have hscore := hp.wellFormed.scores b (List.mem_of_getElem? hbunny)
  have hsame (hk : (p.world.grid.cell x y).kind ≠ .strawberry) :
      (p.land rules who x y).world.grid = p.world.grid := by
    rw [land_grid, Grid.landed, if_neg hk]
  cases hk : (p.world.grid.cell x y).kind with
  | strawberry => exact hp.pick hb hbunny hxy hk hw
  | stone =>
    refine hp.keep hw (hsame (by simp [hk])) hlog ?_ ?_ (.inr ?_)
    · simp [hk, Bunny.event, CellKind.landing]
    · rw [htotal]
      simp only [Bunny.landed, hk]
      omega
    · simp [hk, Bunny.event, CellKind.landing]
  | empty | puddle =>
    have hkeep : (p.land rules who x y).world.totalScore = p.world.totalScore := by
      rw [htotal]
      simp only [Bunny.landed, hk]
      omega
    refine hp.keep hw (hsame (by simp [hk])) hlog ?_ (by omega) (.inl hkeep)
    simp [hk, Bunny.event, CellKind.landing]

theorem Change.harvested (h : Change rules who p q) (hp : p.Harvested board)
    (hr : 0 ≤ rules.stonePenalty) (hb : board.WellFormed) : q.Harvested board := by
  have hw := h.wellFormed hp.wellFormed
  rcases h.stays_or_lands with hstays | ⟨x, y, hact, hxy, rfl⟩
  · obtain ⟨f, hf, hbunnies⟩ := hstays.bunnies
    obtain ⟨new, hlog, hnew⟩ := hstays.log
    have hscores : q.world.totalScore = p.world.totalScore := by
      unfold World.totalScore
      rw [hbunnies, map_modify_of_eq fun b => (hf b).2.2.1]
    exact hp.keep hw hstays.grid hlog (fun e hmem => (hnew e hmem).2 .strawberry)
      (Int.le_of_eq hscores) (.inl hscores)
  · obtain ⟨b, hbunny, -⟩ := exists_bunny_of_not_halted (not_halted_of_canAct hact)
    exact land_harvested hp hr hb hbunny hxy hw

theorem Step.harvested (h : Step rules p q) (hp : p.Harvested board) (hr : 0 ≤ rules.stonePenalty)
    (hb : board.WellFormed) : q.Harvested board := by
  cases h with
  | change h => exact h.harvested hp hr hb
  | start | finish =>
    exact ⟨hp.wellFormed.congr rfl rfl, hp.total_le, hp.total_eq, hp.once⟩

theorem Steps.harvested (h : Steps rules p q) (hp : p.Harvested board) (hr : 0 ≤ rules.stonePenalty)
    (hb : board.WellFormed) : q.Harvested board := by
  induction h with
  | refl => exact hp
  | tail _ h ih => exact h.harvested ih hr hb

/-- On a board that is just set up nothing is picked and nobody has a score. -/
theorem ofBoard_harvested (hb : board.WellFormed) :
    Harvested board { world := .ofBoard board } := by
  have htotal : (World.ofBoard board).totalScore = 0 := by
    unfold World.totalScore World.ofBoard Board.starts
    cases board.second <;> rfl
  have hsum : (World.ofBoard board).totalScore + (World.ofBoard board).grid.strawberries =
      board.grid.strawberries := by
    rw [htotal, Int.zero_add]
    rfl
  refine ⟨World.ofBoard_wellFormed hb, Int.le_of_eq hsum, fun _ => hsum, fun x y => ?_⟩
  exact Nat.zero_add _

end Play
end BunnyGrid
