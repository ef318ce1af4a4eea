import BunnyGrid.Program.Block

/-! Programs unrolled for stepping: the actions in order, repeats with a plain count written out,
and every block whose effect depends on the run left out. -/
namespace BunnyGrid

/-- The actions of a program, and the types of the blocks left out, in the order in which they
were met. -/
structure Unrolled where
  actions : List Action := []
  skipped : List String := []

namespace Unrolled

/-- Whether a limit, if there is one, is reached. -/
def full (limit : Option Nat) (count : Nat) : Bool := limit.any (· ≤ count)

/-- At most as many items as a limit allows. -/
def cut {α : Type} (limit : Option Nat) (items : List α) : List α :=
  match limit with
  | some n => items.take n
  | none => items

/-- Copies of a body after `done` actions, until the limit is reached. -/
def copies (limit : Option Nat) (body : List Action) : Nat → Nat → List Action
  | 0, _ => []
  | n + 1, done =>
    let done := done + body.length
    body ++ if full limit done then [] else copies limit body n done

end Unrolled

namespace Block
open Unrolled

mutual

/-- What one block unrolls to after `done` actions. -/
def unroll (limit : Option Nat) (done : Nat) : Block → Unrolled
  | act action => { actions := [action] }
  | repeatLoop (.plain n) body =>
    let inner := unrollAll limit 0 body
    let round := cut limit inner.actions
    { actions := if round.isEmpty then [] else copies limit round n.toNat done
      skipped := inner.skipped }
  | repeatLoop (.expr _) _ => { skipped := ["Repeat"] }
  | branch .. => { skipped := ["If"] }
  | whileLoop .. => { skipped := ["While"] }
  | unknown .. => { skipped := ["UnknownNode"] }

/-- What blocks unroll to after `done` actions; from the limit on no block is looked at. -/
def unrollAll (limit : Option Nat) (done : Nat) : List Block → Unrolled
  | [] => {}
  | b :: rest =>
    if full limit done then {}
    else
      let head := unroll limit done b
      let tail := unrollAll limit (done + head.actions.length) rest
      { actions := head.actions ++ tail.actions, skipped := head.skipped ++ tail.skipped }

end

end Block

namespace Program

/-- A program unrolled to at most `limit` actions; a negative limit allows none. -/
def unroll (limit : Option Int) (p : Program) : Unrolled :=
  let limit := limit.map Int.toNat
  let u := Block.unrollAll limit 0 p
  { u with actions := Unrolled.cut limit u.actions }

end Program
end BunnyGrid
