import BunnyGrid.Play.Basic
import BunnyGrid.Play.Evaluation

/-! How blocks run. Each block and each round of a loop takes one count of the step limit, so every
run ends: a loop has no more rounds than there are counts left. -/
namespace BunnyGrid

namespace Play

/-- Repeat a round until its flag is false, at most a number of times. -/
def rounds (round : Play → Play × Bool) : Nat → Play → Play
  | 0, p => p
  | n + 1, p =>
    match round p with
    | (p, true) => rounds round n p
    | (p, false) => p

/-- Whether a condition holds for a bunny. -/
def test (p : Play) (who : Actor) (condition : Expr) : Play × Bool :=
  let self := p.self? who
  (p.noteAll (condition.notices self), (condition.eval self).truthy)

/-- A bunny performs an action. -/
def perform (rules : Rules) (who : Actor) (p : Play) : Action → Play
  | .jump kind amount =>
    let self := p.self? who
    (Play.jump rules (p.noteAll (amount.notices self)) who kind (amount.eval self)).1
  | .turn direction => (p.turn who direction).1
  | .setVar name value =>
    let self := p.self? who
    let p := p.noteAll (value.notices self)
    let v := value.eval self
    (p.mapBunny who fun b => { b with vars := b.vars.set name v }).record who .variable ""
  | .changeVar name delta =>
    let self := p.self? who
    let p := p.noteAll (delta.notices self)
    let d := delta.eval self
    let change (b : Bunny) : Bunny :=
      { b with vars := b.vars.set name (.number (Scalar.arith .add (b.vars.get name) d)) }
    (p.mapBunny who change).record who .variable ""

mutual

/-- A bunny runs one block to its end, unless its program has to stop. -/
def exec (rules : Rules) (who : Actor) : Block → Play → Play
  | .act action, p => if p.halted who then p else p.perform rules who action
  | .branch condition yes no, p =>
    if p.halted who then p
    else
      let (p, holds) := p.test who condition
      if holds then execAll rules who yes p else execAll rules who no p
  | .whileLoop condition body, p =>
    if p.halted who then p
    else
      let round (p : Play) : Play × Bool :=
        let (p, holds) := p.test who condition
        if holds then
          let (p, goes) := p.enter rules who
          if goes then (execAll rules who body p, true) else (p, false)
        else (p, false)
      rounds round (p.ticksLeft rules + 1) p
  | .repeatLoop times body, p =>
    if p.halted who then p
    else
      let self := p.self? who
      let round (p : Play) : Play × Bool :=
        let (p, goes) := p.enter rules who
        if goes then (execAll rules who body p, true) else (p, false)
      rounds round (times.eval self).toNat (p.noteAll (times.notices self))
  | .unknown kind raw, p =>
    if p.halted who then p
    else (p.note (.malformedBlock kind raw)).record who .malformed ""

/-- A bunny runs blocks in order, each taking one count, until its program has to stop. -/
def execAll (rules : Rules) (who : Actor) : List Block → Play → Play
  | [], p => p
  | b :: rest, p =>
    match p.enter rules who with
    | (p, true) => execAll rules who rest (exec rules who b p)
    | (p, false) => p

end

/-- Run the block at an index for the first bunny, outside the step limit. Control blocks are
skipped. Gives the next index, or none when nothing is left to run. -/
def runStep (rules : Rules) (p : Play) (program : Program) (index : Int) : Play × Option Int :=
  let block? := if p.world.ended ∨ index < 0 then none else program[index.toNat]?
  match block? with
  | none => (p, none)
  | some block =>
    let p := if p.world.status = .idle then p.setStatus .running else p
    match block with
    | .act _ => (exec rules (.ofSlot 0) block p, some (index + 1))
    | block => (p.note (.stepSkips block.typeName), some (index + 1))

end Play
end BunnyGrid
