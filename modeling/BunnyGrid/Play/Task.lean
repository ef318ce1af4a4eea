import BunnyGrid.Play.Run

/-! Programs of two bunnies take turns, one outermost block at a time. -/
namespace BunnyGrid

/-- One bunny's program and how far it has got. -/
structure Task where
  who : Actor
  program : Program
  cursor : Nat := 0
  finished : Bool := false

namespace Task

def isExhausted (t : Task) : Bool := t.program.length ≤ t.cursor

/-- Finish a task that has no block left or whose bunny has to stop. -/
def settle (t : Task) (p : Play) : Task :=
  if t.isExhausted || p.halted t.who then { t with finished := true } else t

/-- Run the next outermost block of a task, with all that is inside it. -/
def step (rules : Rules) (t : Task) (p : Play) : Task × Play :=
  if t.finished then (t, p)
  else if p.halted t.who then ({ t with finished := true }, p)
  else
    match t.program[t.cursor]? with
    | none => ({ t with finished := true }, p)
    | some block =>
      let t := { t with cursor := t.cursor + 1 }
      let p :=
        match p.tick rules with
        | (p, true) => p.exec rules t.who block
        | (p, false) => p
      (t.settle p, p)

/-- Two tasks take turns for at most a number of rounds, until both are finished or the world is
over. -/
def alternate (rules : Rules) : Nat → Task → Task → Play → Play
  | 0, _, _, p => p
  | n + 1, a, b, p =>
    if (a.finished && b.finished) || p.world.ended then p
    else
      let (a, p) := a.step rules p
      let (b, p) := b.step rules p
      alternate rules n a b p

end Task

namespace Play

/-- Run the programs of the first two bunnies by turns. Every round takes a block from an
unfinished task or finishes it. -/
def runPair (rules : Rules) (first second : Program) (p : Play) : Play :=
  Task.alternate rules (first.length + second.length + 1)
    { who := .ofSlot 0, program := first } { who := .ofSlot 1, program := second } p

/-- A run starts. -/
def start (p : Play) : Play :=
  ((p.setStatus .running).setMessage "Running...").note (.runStarted p.world.bunnies.length)

/-- A run that nothing has brought to an end is completed. -/
def finish (p : Play) : Play :=
  if p.world.status = .running then
    (p.setStatus .completed).setMessage s!"Done! Total score: {p.world.totalScore}"
  else p

/-- Run programs from a world that is not over until they end, leave the map or pass the step
limit. -/
def runToEnd (rules : Rules) (first second : Program) (p : Play) : Play :=
  let p := p.start
  let p :=
    if p.world.bunnies.length = 1 then p.execAll rules (.ofSlot 0) first
    else p.runPair rules first second
  p.finish

/-- Run one or two programs. A map with one bunny has no use for the second, and with nothing to
run the run is refused. -/
def run (rules : Rules) (first second : Program) (p : Play) : Play × RunResult :=
  let ignores := p.world.bunnies.length = 1 ∧ !second.isEmpty
  let p := if ignores then p.note .secondIgnored else p
  let second := if ignores then [] else second
  if first.isEmpty && second.isEmpty then
    (p, { p.result with status := .emptyProgram, message := "Build a program first" })
  else
    let p := if p.world.ended then p else p.runToEnd rules first second
    let p := p.note (.runFinished p.world.status p.world.steps)
    (p, p.result)

end Play
end BunnyGrid
