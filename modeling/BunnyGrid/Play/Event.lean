import BunnyGrid.World.Basic

/-! The events of a run: each tells which bunny did what, and how it stands after it. -/
namespace BunnyGrid

inductive EventKind
  | turn
  | move
  | strawberry
  | stone
  | puddle
  | exit
  | variable
  | malformed
  deriving DecidableEq

def EventKind.name : EventKind → String
  | .turn => "turn"
  | .move => "move"
  | .strawberry => "strawberry"
  | .stone => "stone"
  | .puddle => "puddle"
  | .exit => "exit"
  | .variable => "variable"
  | .malformed => "malformed"

structure Event where
  kind : EventKind
  /-- The bunny's index as it was given; a negative one counts from the end. -/
  agent : Int
  x : Int
  y : Int
  facing : Direction
  score : Int
  moves : Int
  message : String
  deriving DecidableEq

/-- An event as data. -/
def Event.toData (e : Event) : Data :=
  .record
    [ ("kind", .text e.kind.name), ("agent", .int e.agent), ("x", .int e.x), ("y", .int e.y),
      ("direction", .text e.facing.name), ("score", .int e.score), ("moveCount", .int e.moves),
      ("message", .text e.message) ]

/-- How a run came out: the status and, for each bunny, score, moves and whether it is still on
the map. -/
structure RunResult where
  status : Status
  scores : List Int := []
  moves : List Int := []
  active : List Bool := []
  steps : Nat := 0
  message : String := ""
  events : List Event := []
  deriving DecidableEq

namespace RunResult

def totalScore (r : RunResult) : Int := r.scores.foldr (· + ·) 0

def isSuccess (r : RunResult) : Bool := r.status = .completed

/-- How many events have a kind's name, of one bunny or of all. -/
def countEvents (r : RunResult) (kind : String) (agent : Option Int) : Nat :=
  r.events.countP fun e => e.kind.name = kind && agent.all (e.agent = ·)

/-- A result as data. -/
def toData (r : RunResult) : Data :=
  .record
    [ ("status", .text r.status.name), ("scores", .list (r.scores.map .int)),
      ("moveCounts", .list (r.moves.map .int)), ("active", .list (r.active.map .bool)),
      ("totalScore", .int r.totalScore), ("steps", .int r.steps), ("message", .text r.message),
      ("events", .list (r.events.map Event.toData)) ]

end RunResult
end BunnyGrid
