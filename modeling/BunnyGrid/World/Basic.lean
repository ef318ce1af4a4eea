import BunnyGrid.World.Board

/-! The world that programs run in: the grid as it stands, the bunnies, and how the run is
doing. -/
namespace BunnyGrid

/-- How a run is doing, or why it never started. -/
inductive Status
  | idle
  | running
  | completed
  | boundaryExit
  | runawayLoop
  | emptyProgram
  | noMapLoaded
  | blockLimitExceeded
  deriving DecidableEq

namespace Status

def all : List Status :=
  [ .idle, .running, .completed, .boundaryExit, .runawayLoop, .emptyProgram, .noMapLoaded,
    .blockLimitExceeded ]

def name : Status → String
  | .idle => "idle"
  | .running => "running"
  | .completed => "completed"
  | .boundaryExit => "boundary_exit"
  | .runawayLoop => "runaway_loop"
  | .emptyProgram => "empty_program"
  | .noMapLoaded => "no_map_loaded"
  | .blockLimitExceeded => "block_limit_exceeded"

def ofName? (s : String) : Option Status := all.find? (·.name = s)

/-- Whether a run has come to its end. -/
def isTerminal : Status → Bool
  | .completed | .boundaryExit | .runawayLoop => true
  | _ => false

/-- Whether a run was refused before it started. -/
def isRefusal : Status → Bool
  | .emptyProgram | .noMapLoaded | .blockLimitExceeded => true
  | _ => false

end Status

/-- The variables of one bunny, in the order in which they were first set. -/
abbrev Store := List (String × Scalar)

namespace Store

/-- The value of a variable; zero before it is set. -/
def get (s : Store) (name : String) : Scalar := (s.lookup name).getD (.int 0)

def set (name : String) (value : Scalar) : Store → Store
  | [] => [(name, value)]
  | (key, old) :: rest =>
    if key = name then (key, value) :: rest else (key, old) :: set name value rest

end Store

structure Bunny where
  x : Int
  y : Int
  facing : Direction := .up
  /-- False once the bunny has left the map. -/
  active : Bool := true
  score : Int := 0
  moves : Int := 0
  vars : Store := []
  deriving DecidableEq

namespace Bunny

def ofStart (s : Start) : Bunny := { x := s.x, y := s.y, facing := s.facing }

/-- Position, facing and activity as data. -/
def toData (b : Bunny) : Data :=
  .record [("x", .int b.x), ("y", .int b.y), ("direction", .text b.facing.name),
    ("active", .bool b.active)]

end Bunny

structure World where
  grid : Grid
  bunnies : List Bunny
  /-- Blocks and loop rounds run so far. -/
  steps : Nat := 0
  /-- Whether nothing can happen any more. -/
  ended : Bool := false
  status : Status := .idle
  message : String := "Ready"
  deriving DecidableEq

namespace World

/-- The world as a board starts it. -/
def ofBoard (b : Board) : World := { grid := b.grid, bunnies := b.starts.map .ofStart }

def anyActive (w : World) : Bool := w.bunnies.any (·.active)

def totalScore (w : World) : Int := (w.bunnies.map (·.score)).foldr (· + ·) 0

/-- Change one bunny. -/
def mapBunny (w : World) (slot : Nat) (f : Bunny → Bunny) : World :=
  { w with bunnies := w.bunnies.modify slot f }

/-- A world as data, the variables left out. -/
def toData (w : World) : Data :=
  .record
    [ ("gridSize", .int w.grid.size), ("mapData", w.grid.toData),
      ("agents", .list (w.bunnies.map Bunny.toData)),
      ("scores", .list (w.bunnies.map fun b => .int b.score)),
      ("moveCounts", .list (w.bunnies.map fun b => .int b.moves)),
      ("status", .text w.status.name), ("message", .text w.message),
      ("stepCounter", .int w.steps), ("gameOver", .bool w.ended) ]

end World
end BunnyGrid
