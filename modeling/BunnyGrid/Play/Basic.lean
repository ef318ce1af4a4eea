import BunnyGrid.Play.Event
import BunnyGrid.Play.Notice

/-! A world in play: turns and jumps, their effects and the events they leave. -/
namespace BunnyGrid

/-- The rules of the game. -/
structure Rules where
  /-- Blocks and loop rounds that a run may take. -/
  stepLimit : Int := 1000
  stonePenalty : Int := 10
  puddleCost : Int := 5
  deriving DecidableEq

/-- A bunny that is told to act: its place among the bunnies, and the index it was called by. -/
structure Actor where
  slot : Nat
  label : Int
  deriving DecidableEq

namespace Actor

/-- The bunny at a place, called by that place. -/
def ofSlot (slot : Nat) : Actor := ⟨slot, slot⟩

/-- Whether the bunny was called by its place, not by counting from the end. -/
def isDirect (who : Actor) : Bool := who.label = who.slot

/-- The bunny of an index among `count`; a negative one counts from the end. -/
def ofIndex? (count : Nat) (index : Int) : Option Actor :=
  if 0 ≤ index then
    if index < count then some ⟨index.toNat, index⟩ else none
  else if 0 ≤ index + count then some ⟨(index + count).toNat, index⟩
  else none

end Actor

/-- Where a jump leads. -/
def Bunny.target (b : Bunny) (kind : Jump) (amount : Int) : Int × Int :=
  let ahead := b.facing.vector
  let aside (quarters : Int) :=
    let side := (b.facing.turned quarters).vector
    (b.x + ahead.1 + side.1 * amount, b.y + ahead.2 + side.2 * amount)
  match kind with
  | .ahead => (b.x + ahead.1 * amount, b.y + ahead.2 * amount)
  | .right => aside 1
  | .left => aside 3

/-- A world, the events of its log, and what the log was told during this run. -/
structure Play where
  world : World
  events : Array Event := #[]
  notices : Array Notice := #[]

namespace Play

def note (p : Play) (n : Notice) : Play := { p with notices := p.notices.push n }

def noteAll (p : Play) (ns : List Notice) : Play := { p with notices := p.notices ++ ns }

def bunny? (p : Play) (who : Actor) : Option Bunny := p.world.bunnies[who.slot]?

/-- The bunny that an expression reads: none if it was called by counting from the end. -/
def self? (p : Play) (who : Actor) : Option Bunny := if who.isDirect then p.bunny? who else none

def mapBunny (p : Play) (who : Actor) (f : Bunny → Bunny) : Play :=
  { p with world := p.world.mapBunny who.slot f }

def setMessage (p : Play) (message : String) : Play :=
  { p with world := { p.world with message } }

def setStatus (p : Play) (status : Status) : Play :=
  { p with world := { p.world with status } }

/-- Log an event as the bunny stands now; a message of it becomes the world's. -/
def record (p : Play) (who : Actor) (kind : EventKind) (message : String) : Play :=
  match p.bunny? who with
  | none => p
  | some b =>
    let event : Event :=
      { kind, message, agent := who.label, x := b.x, y := b.y, facing := b.facing,
        score := b.score, moves := b.moves }
    let p := { p with events := p.events.push event }
    if message.isEmpty then p else (p.setMessage message).note (.said (who.label + 1) message)

/-- Whether a bunny may turn or jump. -/
def canAct (p : Play) (who : Actor) : Bool :=
  !p.world.ended && who.isDirect && (p.bunny? who).any (·.active)

/-- Turn a bunny in place. The flag says whether it turned. -/
def turn (p : Play) (who : Actor) (t : Turn) : Play × Bool :=
  if p.canAct who then
    let p := p.mapBunny who fun b => { b with facing := b.facing.turned t.quarters }
    (p.record who .turn "", true)
  else (p, false)

/-- A bunny leaves the map. The world is over once no bunny is left on it. -/
def leave (p : Play) (who : Actor) : Play :=
  let p := p.mapBunny who fun b => { b with active := false }
  let p := p.record who .exit s!"Bunny {who.label + 1} jumped off the map!"
  if p.world.anyActive then p
  else { p with world := { p.world with ended := true, status := .boundaryExit } }

/-- A bunny lands on a cell of the grid, which has its effect. -/
def land (rules : Rules) (p : Play) (who : Actor) (x y : Int) : Play :=
  let p := p.mapBunny who fun b => { b with x, y, moves := b.moves + 1 }
  let number := who.label + 1
  let cell := p.world.grid.cell x y
  match cell.kind with
  | .strawberry =>
    let p := p.mapBunny who fun b => { b with score := max 0 (b.score + cell.value) }
    let p := { p with world := { p.world with grid := p.world.grid.put x y {} } }
    p.record who .strawberry s!"Bunny {number} picked {cell.value} strawberries"
  | .stone =>
    let p := p.mapBunny who fun b => { b with score := max 0 (b.score - rules.stonePenalty) }
    p.record who .stone s!"Bunny {number} hit a stone! -{rules.stonePenalty} strawberries"
  | .puddle =>
    let p := p.mapBunny who fun b => { b with moves := b.moves + rules.puddleCost }
    p.record who .puddle s!"Bunny {number} stepped in a puddle! +{rules.puddleCost} moves"
  | .empty => p.record who .move ""

/-- A bunny jumps. The flag says whether it landed on the grid; an amount below one is malformed
and the bunny stays. -/
def jump (rules : Rules) (p : Play) (who : Actor) (kind : Jump) (amount : Int) : Play × Bool :=
  if p.canAct who then
    if amount < 1 then ((p.note (.malformedJump kind amount)).record who .malformed "", false)
    else
      match p.bunny? who with
      | none => (p, false)
      | some b =>
        let (x, y) := b.target kind amount
        if p.world.grid.contains x y then (p.land rules who x y, true) else (p.leave who, false)
  else (p, false)

/-- Whether a bunny's program has to stop. -/
def halted (p : Play) (who : Actor) : Bool := p.world.ended || !(p.bunny? who).any (·.active)

/-- Count one block or loop round. Past the step limit the world is over; the flag says whether the
count was within it. -/
def tick (rules : Rules) (p : Play) : Play × Bool :=
  let p := { p with world := { p.world with steps := p.world.steps + 1 } }
  if (p.world.steps : Int) ≤ rules.stepLimit then (p, true)
  else
    let message :=
      s!"Program ran too long (over {rules.stepLimit} steps), possible infinite loop"
    let world := { p.world with ended := true, status := .runawayLoop, message }
    ({ p with world }.note (.stepLimit rules.stepLimit), false)

/-- How many more counts are within the step limit. -/
def ticksLeft (rules : Rules) (p : Play) : Nat := (rules.stepLimit - p.world.steps).toNat

/-- Count one block or loop round of a bunny unless its program has to stop. The flag says whether
it goes on. -/
def enter (rules : Rules) (p : Play) (who : Actor) : Play × Bool :=
  if p.halted who then (p, false) else p.tick rules

/-- The outcome as the world stands. -/
def result (p : Play) : RunResult where
  status := p.world.status
  scores := p.world.bunnies.map (·.score)
  moves := p.world.bunnies.map (·.moves)
  active := p.world.bunnies.map (·.active)
  steps := p.world.steps
  message := p.world.message
  events := p.events.toList

end Play
end BunnyGrid
