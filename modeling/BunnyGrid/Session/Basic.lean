import BunnyGrid.Play.Task
import BunnyGrid.Program.Unroll

/-! A play session: a map is loaded, programs run on it from the start or step by step, and
everything can be put back. -/
namespace BunnyGrid

/-- A loaded board, the world on it, and the log since the last reset. -/
structure Stage where
  board : Board
  world : World
  events : Array Event := #[]

namespace Stage

def ofBoard (board : Board) : Stage := { board, world := .ofBoard board }

/-- The board as it starts, with an empty log. -/
def reset (s : Stage) : Stage := .ofBoard s.board

def toPlay (s : Stage) : Play := { world := s.world, events := s.events }

/-- A stage after some play. -/
def after (s : Stage) (p : Play) : Stage := { s with world := p.world, events := p.events }

end Stage

structure Session where
  rules : Rules := {}
  stage : Option Stage := none
  /-- The index of the next step. -/
  cursor : Nat := 0
  /-- The unrolled program that is being stepped through. -/
  plan : Option (List Action) := none

/-- A session after an operation, its answer, and what the log was told. -/
structure Reply (α : Type) where
  session : Session
  value : α
  notices : Array Notice := #[]

/-- Why an operation on a bunny could not start. -/
inductive SessionFault
  | noMap
  | noBunny (index : Int)
  deriving DecidableEq

namespace Session

/-- Install a board. -/
def loadBoard (s : Session) (board : Board) : Reply Unit where
  session := { s with stage := some (.ofBoard board), cursor := 0, plan := none }
  value := ()
  notices := #[.mapLoaded board.name board.grid.size board.bunnyCount]

/-- Install the board that data describes; a faulty one changes nothing. -/
def load (s : Session) (d : Data) : Except BoardFault (Reply Unit) :=
  (Board.ofData d).map s.loadBoard

/-- Put the world back as the board starts it and forget the step program. -/
def reset (s : Session) : Session :=
  { s with stage := s.stage.map .reset, cursor := 0, plan := none }

/-- Put the world back, but keep the place in the step program. -/
def resetWorld (s : Session) : Session := { s with stage := s.stage.map .reset }

def world? (s : Session) : Option World := s.stage.map (·.world)

def events (s : Session) : Array Event := s.stage.elim #[] (·.events)

def isOver (s : Session) : Bool := s.world?.any (·.ended)

def status (s : Session) : Status := s.world?.elim .noMapLoaded (·.status)

def blockLimit (s : Session) : Option Int := s.stage.map (·.board.blockLimit)

/-- Play on the stage; without one the answer is given. -/
def perform {α : Type} (s : Session) (missing : α) (f : Play → Play × α) : Reply α :=
  match s.stage with
  | none => { session := s, value := missing }
  | some stage =>
    let (p, value) := f stage.toPlay
    { session := { s with stage := some (stage.after p) }, value, notices := p.notices }

/-- A result that says no map is loaded. -/
def noMapResult : RunResult := { status := .noMapLoaded, message := "Select a map first" }

/-- The outcome as the world stands, with a status and a message of the caller's if given. -/
def result (s : Session) (status : Option Status) (message : String) : RunResult :=
  let r := s.stage.elim { status := .noMapLoaded } (·.toPlay.result)
  { r with
    status := status.getD r.status
    message := if message.isEmpty then r.message else message }

/-- The refusal of the first program, numbered from `number`, that has more blocks than the
limit. -/
def overLimit? (limit : Int) : Nat → List Program → Option RunResult
  | _, [] => none
  | number, p :: rest =>
    if limit < p.count then
      some
        { status := .blockLimitExceeded
          message := s!"Program {number} uses {p.count} blocks, the limit is {limit}" }
    else overLimit? limit (number + 1) rest

/-- Why programs may not start, if they may not. -/
def refusal? (s : Session) (programs : List Program) : Option RunResult :=
  match s.stage with
  | none => some noMapResult
  | some stage =>
    if programs.all (·.isEmpty) then
      some { status := .emptyProgram, message := "Build a program first" }
    else overLimit? stage.board.blockLimit 1 programs

/-- Run one or two programs from where the world stands. -/
def continueWith (s : Session) (first second : Program) : Reply RunResult :=
  s.perform noMapResult (Play.run s.rules first second)

/-- Put the world back and run one or two programs to the end. A refused run changes nothing. -/
def run (s : Session) (first second : Program) : Reply RunResult :=
  match s.refusal? [first, second] with
  | some r => { session := s, value := r }
  | none => s.reset.continueWith first second

/-- Run the block at an index of a program; gives the next index, if there was one to run. -/
def runStep (s : Session) (program : Program) (index : Int) : Reply (Option Int) :=
  s.perform none fun p => p.runStep s.rules program index

/-- Complete a run that has no step left. -/
def completeStep (p : Play) : Play :=
  if p.world.status = .idle ∨ p.world.status = .running then
    (p.setStatus .completed).setMessage s!"Done! Score: {(p.world.bunnies.map (·.score)).headD 0}"
  else p

/-- Run the next step of a plan; past its end the run is completed. -/
def nextStep (s : Session) (plan : List Action) : Reply RunResult :=
  let ran := s.runStep (plan.map .act) s.cursor
  let cursor := (ran.value.map Int.toNat).getD s.cursor
  let ends := ran.value.isNone || plan.length ≤ cursor
  let last := { ran.session with cursor }.perform noMapResult fun p =>
    let p := if ends then completeStep p else p
    (p, p.result)
  { last with notices := ran.notices ++ last.notices }

/-- Run the next action of a program for the first bunny. The first step since a reset unrolls the
program, and later steps go on with that one. A refused step changes nothing. -/
def step (s : Session) (program : Program) : Reply RunResult :=
  match s.refusal? [program] with
  | some r => { session := s, value := r }
  | none =>
    let (plan, skipped) :=
      match s.plan with
      | some plan => (plan, [])
      | none =>
        let u := program.unroll (some s.rules.stepLimit)
        (u.actions, u.skipped)
    let notices := (skipped.map Notice.cannotUnroll).toArray
    let s := { s with plan := some plan }
    if s.isOver then { session := s, value := s.result none "", notices }
    else
      let reply := s.nextStep plan
      { reply with notices := notices ++ reply.notices }

/-- The bunny of an index. -/
def actor? (s : Session) (index : Int) : Except SessionFault Actor :=
  match s.stage with
  | none => .error .noMap
  | some stage =>
    match Actor.ofIndex? stage.world.bunnies.length index with
    | some who => .ok who
    | none => .error (.noBunny index)

/-- The bunny of an index for a turn or a jump, which an index out of range never makes. -/
def mover (s : Session) (index : Int) : Actor := (s.actor? index).toOption.getD ⟨0, -1⟩

/-- Turn a bunny. The answer says whether it turned. -/
def turn (s : Session) (index : Int) (t : Turn) : Reply Bool :=
  s.perform false fun p => p.turn (s.mover index) t

/-- Make a bunny jump. The answer says whether it landed on the grid. -/
def jump (s : Session) (index : Int) (kind : Jump) (amount : Int) : Reply Bool :=
  s.perform false fun p => p.jump s.rules (s.mover index) kind amount

/-- Run blocks for one bunny. Nothing to run, or a world that is over, needs no bunny. -/
def runBlocks (s : Session) (index : Int) (program : Program) : Except SessionFault (Reply Unit) :=
  if program.isEmpty || s.isOver then .ok { session := s, value := () }
  else do
    let who ← s.actor? index
    .ok (s.perform () fun p => (p.execAll s.rules who program, ()))

/-- A program that some bunny is to run by turns. -/
structure Turns where
  index : Int
  program : Program
  cursor : Nat := 0
  finished : Bool := false

/-- Run the next outermost block of a task. A task with nothing left to run needs no bunny. -/
def stepTask (s : Session) (t : Turns) : Except SessionFault (Reply Turns) :=
  if t.finished then .ok { session := s, value := t }
  else if t.program.length ≤ t.cursor then
    .ok { session := s, value := { t with finished := true } }
  else if s.isOver then .ok { session := s, value := { t with finished := true } }
  else do
    let who ← s.actor? t.index
    .ok <| s.perform t fun p =>
      let task : Task :=
        { who, program := t.program, cursor := t.cursor, finished := t.finished }
      let (task, p) := task.step s.rules p
      (p, { t with cursor := task.cursor, finished := task.finished })

/-- Give a bunny a score. -/
def setScore (s : Session) (index : Int) (score : Int) : Except SessionFault Session := do
  let who ← s.actor? index
  .ok (s.perform () fun p => (p.mapBunny who fun b => { b with score }, ())).session

/-- Whether a place lies on the grid; none without a map. -/
def contains? (s : Session) (x y : Int) : Option Bool := s.world?.map (·.grid.contains x y)

end Session
end BunnyGrid
