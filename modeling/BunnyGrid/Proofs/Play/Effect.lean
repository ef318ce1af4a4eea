import BunnyGrid.Play.Basic

/-! What the operations of a play do to its world and its log. Beyond this module no operation is
unfolded. -/
namespace BunnyGrid

@[simp] theorem Actor.isDirect_ofSlot (slot : Nat) : (ofSlot slot).isDirect = true :=
  decide_eq_true rfl

theorem modify_map {α β : Type} {f : α → α} {f' : β → β} {g : α → β}
    (h : ∀ a, f' (g a) = g (f a)) (as : List α) (i : Nat) :
    (as.map g).modify i f' = (as.modify i f).map g := by
  apply List.ext_getElem?
  intro j
  rw [List.getElem?_modify, List.getElem?_map, List.getElem?_map, List.getElem?_modify]
  cases as[j]? with
  | none => rfl
  | some a =>
    simp only [Option.map_eq_map, Option.map_some]
    split
    · rw [h]
    · rfl

namespace World

@[simp] theorem mapBunny_grid (w : World) (slot : Nat) (f : Bunny → Bunny) :
    (w.mapBunny slot f).grid = w.grid := rfl

@[simp] theorem mapBunny_bunnies (w : World) (slot : Nat) (f : Bunny → Bunny) :
    (w.mapBunny slot f).bunnies = w.bunnies.modify slot f := rfl

@[simp] theorem mapBunny_steps (w : World) (slot : Nat) (f : Bunny → Bunny) :
    (w.mapBunny slot f).steps = w.steps := rfl

@[simp] theorem mapBunny_ended (w : World) (slot : Nat) (f : Bunny → Bunny) :
    (w.mapBunny slot f).ended = w.ended := rfl

@[simp] theorem mapBunny_status (w : World) (slot : Nat) (f : Bunny → Bunny) :
    (w.mapBunny slot f).status = w.status := rfl

@[simp] theorem mapBunny_message (w : World) (slot : Nat) (f : Bunny → Bunny) :
    (w.mapBunny slot f).message = w.message := rfl

end World

/-- A bunny after it landed on a cell at a place. -/
def Bunny.landed (rules : Rules) (cell : Cell) (x y : Int) (b : Bunny) : Bunny :=
  let b := { b with x, y, moves := b.moves + 1 }
  match cell.kind with
  | .strawberry => { b with score := max 0 (b.score + cell.value) }
  | .stone => { b with score := max 0 (b.score - rules.stonePenalty) }
  | .puddle => { b with moves := b.moves + rules.puddleCost }
  | .empty => b

@[simp] theorem Bunny.landed_active (rules : Rules) (cell : Cell) (x y : Int) (b : Bunny) :
    (b.landed rules cell x y).active = b.active := by
  unfold landed
  split <;> rfl

@[simp] theorem Bunny.landed_x (rules : Rules) (cell : Cell) (x y : Int) (b : Bunny) :
    (b.landed rules cell x y).x = x := by
  unfold landed
  split <;> rfl

@[simp] theorem Bunny.landed_y (rules : Rules) (cell : Cell) (x y : Int) (b : Bunny) :
    (b.landed rules cell x y).y = y := by
  unfold landed
  split <;> rfl

theorem Bunny.landed_score_nonneg (rules : Rules) (cell : Cell) (x y : Int) {b : Bunny}
    (hb : 0 ≤ b.score) : 0 ≤ (b.landed rules cell x y).score := by
  unfold landed
  split <;> dsimp only <;> omega

/-- What the log says of a bunny as it stands. -/
def Bunny.event (b : Bunny) (label : Int) (kind : EventKind) (message : String) : Event :=
  { kind, message, agent := label, x := b.x, y := b.y, facing := b.facing, score := b.score
    moves := b.moves }

/-- What the log calls a landing on a cell of a kind. -/
def CellKind.landing : CellKind → EventKind
  | .empty => .move
  | .strawberry => .strawberry
  | .stone => .stone
  | .puddle => .puddle

/-- A grid after a bunny landed at a place: a strawberry is gone. -/
def Grid.landed (g : Grid) (x y : Int) : Grid :=
  if (g.cell x y).kind = .strawberry then g.put x y {} else g

namespace Play

@[simp] theorem note_world (p : Play) (n : Notice) : (p.note n).world = p.world := rfl

@[simp] theorem note_events (p : Play) (n : Notice) : (p.note n).events = p.events := rfl

@[simp] theorem mapBunny_world (p : Play) (who : Actor) (f : Bunny → Bunny) :
    (p.mapBunny who f).world = p.world.mapBunny who.slot f := rfl

@[simp] theorem mapBunny_events (p : Play) (who : Actor) (f : Bunny → Bunny) :
    (p.mapBunny who f).events = p.events := rfl

section Record

variable (p : Play) (who : Actor) (kind : EventKind) (message : String)

/-- An event changes nothing of the world but its message. -/
theorem record_world : ∃ told,
    (p.record who kind message).world = { p.world with message := told } := by
  unfold record
  split
  · exact ⟨p.world.message, rfl⟩
  · dsimp only
    split
    · exact ⟨p.world.message, rfl⟩
    · exact ⟨message, rfl⟩

@[simp] theorem record_grid : (p.record who kind message).world.grid = p.world.grid := by
  obtain ⟨_, h⟩ := p.record_world who kind message
  rw [h]

@[simp] theorem record_bunnies :
    (p.record who kind message).world.bunnies = p.world.bunnies := by
  obtain ⟨_, h⟩ := p.record_world who kind message
  rw [h]

@[simp] theorem record_steps : (p.record who kind message).world.steps = p.world.steps := by
  obtain ⟨_, h⟩ := p.record_world who kind message
  rw [h]

@[simp] theorem record_ended : (p.record who kind message).world.ended = p.world.ended := by
  obtain ⟨_, h⟩ := p.record_world who kind message
  rw [h]

@[simp] theorem record_status : (p.record who kind message).world.status = p.world.status := by
  obtain ⟨_, h⟩ := p.record_world who kind message
  rw [h]

/-- Recording logs one event, or none if there is no such bunny. -/
theorem record_events : ∃ new : List Event, new.length ≤ 1 ∧
    (p.record who kind message).events.toList = p.events.toList ++ new := by
  unfold record
  split
  · exact ⟨[], by simp, by simp⟩
  · dsimp only
    split
    · exact ⟨[_], by simp, Array.toList_push⟩
    · exact ⟨[_], by simp, Array.toList_push⟩

theorem bunny?_record : (p.record who kind message).bunny? who = p.bunny? who := by
  simp [bunny?]

theorem record_of_none (h : p.bunny? who = none) : p.record who kind message = p := by
  unfold record
  rw [h]

theorem record_log {b : Bunny} (h : p.bunny? who = some b) :
    (p.record who kind message).events.toList =
      p.events.toList ++ [b.event who.label kind message] := by
  unfold record
  rw [h]
  dsimp only
  split <;> exact Array.toList_push

end Record

theorem bunny?_mapBunny (p : Play) (who : Actor) (f : Bunny → Bunny) :
    (p.mapBunny who f).bunny? who = (p.bunny? who).map f := by
  simp [bunny?]

theorem bunny?_mapBunny_of_some {p : Play} {who : Actor} {b : Bunny} (h : p.bunny? who = some b)
    (f : Bunny → Bunny) : (p.mapBunny who f).bunny? who = some (f b) := by
  rw [bunny?_mapBunny, h]
  rfl

/-- The log tells of a bunny as it stands after it was changed. -/
theorem mapBunny_log {p : Play} {who : Actor} {b : Bunny} (h : p.bunny? who = some b)
    (f : Bunny → Bunny) (kind : EventKind) (message : String) :
    ((p.mapBunny who f).record who kind message).events.toList =
      p.events.toList ++ [(f b).event who.label kind message] :=
  record_log _ who kind message (bunny?_mapBunny_of_some h f)

section Move

variable (rules : Rules) (p : Play) (who : Actor)

/-- A landing is felt by the bunny and by the grid, and nothing else but the message changes. -/
theorem land_world (x y : Int) : ∃ told, (p.land rules who x y).world =
    { p.world with
      grid := p.world.grid.landed x y
      bunnies := p.world.bunnies.modify who.slot (.landed rules (p.world.grid.cell x y) x y)
      message := told } := by
  unfold land Grid.landed
  dsimp only [mapBunny_world, World.mapBunny_grid]
  cases hk : (p.world.grid.cell x y).kind <;> dsimp only
  all_goals
    obtain ⟨told, h⟩ := record_world _ who _ _
    refine ⟨told, h.trans ?_⟩
    simp only [mapBunny_world, World.mapBunny, List.modify_modify_eq, reduceCtorEq, if_true,
      if_false]
    congr 2
    funext b
    simp only [Function.comp, Bunny.landed, hk]

/-- A landing logs one event, or none if there is no such bunny. -/
theorem land_events (x y : Int) : ∃ new : List Event, new.length ≤ 1 ∧
    (p.land rules who x y).events.toList = p.events.toList ++ new := by
  unfold land
  dsimp only
  split <;> exact record_events _ who _ _

/-- A landing is logged by the kind of its cell, with the bunny as it then stands. -/
theorem land_log {b : Bunny} (h : p.bunny? who = some b) (x y : Int) : ∃ message,
    (p.land rules who x y).events.toList = p.events.toList ++
      [(b.landed rules (p.world.grid.cell x y) x y).event who.label
        (p.world.grid.cell x y).kind.landing message] := by
  have hmoved : (p.mapBunny who fun b => { b with x, y, moves := b.moves + 1 }).bunny? who =
      some { b with x, y, moves := b.moves + 1 } := bunny?_mapBunny_of_some h _
  unfold land Bunny.landed
  dsimp only [mapBunny_world, World.mapBunny_grid]
  cases hk : (p.world.grid.cell x y).kind <;> dsimp only
  case empty => exact ⟨_, record_log _ who _ _ hmoved⟩
  all_goals
    refine ⟨_, record_log _ who _ _ ?_⟩
    exact bunny?_mapBunny_of_some hmoved _

@[simp] theorem land_grid (x y : Int) :
    (p.land rules who x y).world.grid = p.world.grid.landed x y := by
  obtain ⟨told, hw⟩ := land_world rules p who x y
  rw [hw]

@[simp] theorem land_steps (x y : Int) :
    (p.land rules who x y).world.steps = p.world.steps := by
  obtain ⟨told, hw⟩ := land_world rules p who x y
  rw [hw]

@[simp] theorem land_ended (x y : Int) :
    (p.land rules who x y).world.ended = p.world.ended := by
  obtain ⟨told, hw⟩ := land_world rules p who x y
  rw [hw]

@[simp] theorem land_status (x y : Int) :
    (p.land rules who x y).world.status = p.world.status := by
  obtain ⟨told, hw⟩ := land_world rules p who x y
  rw [hw]

@[simp] theorem land_bunnies (x y : Int) : (p.land rules who x y).world.bunnies =
    p.world.bunnies.modify who.slot (.landed rules (p.world.grid.cell x y) x y) := by
  obtain ⟨told, hw⟩ := land_world rules p who x y
  rw [hw]

/-- A bunny that leaves ends the world if no other bunny is left. -/
theorem leave_world : ∃ told, (p.leave who).world =
    let bunnies := p.world.bunnies.modify who.slot fun b => { b with active := false }
    if bunnies.any (·.active) then { p.world with bunnies, message := told }
    else { p.world with bunnies, message := told, ended := true, status := .boundaryExit } := by
  unfold leave
  obtain ⟨told, h⟩ := record_world (p.mapBunny who fun b => { b with active := false }) who .exit
    s!"Bunny {who.label + 1} jumped off the map!"
  refine ⟨told, ?_⟩
  dsimp only
  rw [apply_ite Play.world, h]
  rfl

/-- Leaving logs one event, or none if there is no such bunny. -/
theorem leave_events : ∃ new : List Event, new.length ≤ 1 ∧
    (p.leave who).events.toList = p.events.toList ++ new := by
  unfold leave
  dsimp only
  split <;> exact record_events _ who _ _

@[simp] theorem leave_grid : (p.leave who).world.grid = p.world.grid := by
  obtain ⟨told, hw⟩ := leave_world p who
  rw [hw]
  dsimp only
  split <;> rfl

@[simp] theorem leave_steps : (p.leave who).world.steps = p.world.steps := by
  obtain ⟨told, hw⟩ := leave_world p who
  rw [hw]
  dsimp only
  split <;> rfl

@[simp] theorem leave_bunnies : (p.leave who).world.bunnies =
    p.world.bunnies.modify who.slot fun b => { b with active := false } := by
  obtain ⟨told, hw⟩ := leave_world p who
  rw [hw]
  dsimp only
  split <;> rfl

theorem leave_log {b : Bunny} (h : p.bunny? who = some b) : ∃ message,
    (p.leave who).events.toList = p.events.toList ++
      [{ b with active := false }.event who.label .exit message] := by
  unfold leave
  dsimp only
  split <;> exact ⟨_, mapBunny_log h _ _ _⟩

end Move

section Tick

variable (rules : Rules) (p : Play)

/-- Within the limit a count changes nothing else. -/
theorem tick_of_le (h : (p.world.steps : Int) + 1 ≤ rules.stepLimit) :
    p.tick rules = ({ p with world := { p.world with steps := p.world.steps + 1 } }, true) := by
  unfold tick
  dsimp only
  rw [if_pos (by push_cast; exact h)]

/-- The first count past the limit ends the world. -/
theorem tick_of_lt (h : rules.stepLimit < (p.world.steps : Int) + 1) :
    (p.tick rules).2 = false ∧ (p.tick rules).1.events = p.events ∧
      ∃ told, (p.tick rules).1.world =
        { p.world with
          steps := p.world.steps + 1, ended := true, status := .runawayLoop, message := told } := by
  unfold tick
  dsimp only
  rw [if_neg (by push_cast; omega)]
  exact ⟨rfl, rfl, _, rfl⟩

@[simp] theorem tick_steps : (p.tick rules).1.world.steps = p.world.steps + 1 := by
  by_cases h : (p.world.steps : Int) + 1 ≤ rules.stepLimit
  · rw [tick_of_le rules p h]
  · obtain ⟨-, -, told, hw⟩ := tick_of_lt rules p (Int.not_le.mp h)
    rw [hw]

@[simp] theorem tick_grid : (p.tick rules).1.world.grid = p.world.grid := by
  by_cases h : (p.world.steps : Int) + 1 ≤ rules.stepLimit
  · rw [tick_of_le rules p h]
  · obtain ⟨-, -, told, hw⟩ := tick_of_lt rules p (Int.not_le.mp h)
    rw [hw]

@[simp] theorem tick_bunnies : (p.tick rules).1.world.bunnies = p.world.bunnies := by
  by_cases h : (p.world.steps : Int) + 1 ≤ rules.stepLimit
  · rw [tick_of_le rules p h]
  · obtain ⟨-, -, told, hw⟩ := tick_of_lt rules p (Int.not_le.mp h)
    rw [hw]

@[simp] theorem tick_events : (p.tick rules).1.events = p.events := by
  by_cases h : (p.world.steps : Int) + 1 ≤ rules.stepLimit
  · rw [tick_of_le rules p h]
  · exact (tick_of_lt rules p (Int.not_le.mp h)).2.1

end Tick

end Play
end BunnyGrid
