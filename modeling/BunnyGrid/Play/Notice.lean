import BunnyGrid.Program.Block
import BunnyGrid.World.Basic

/-! What the game tells its log about a run, beside the events of the run itself. -/
namespace BunnyGrid

inductive Level
  | debug
  | info
  | warning
  deriving DecidableEq

namespace Level

def name : Level → String
  | .debug => "DEBUG"
  | .info => "INFO"
  | .warning => "WARNING"

def rank : Level → Nat
  | .debug => 0
  | .info => 1
  | .warning => 2

end Level

inductive Notice
  | mapLoaded (name : String) (size bunnies : Nat)
  | runStarted (bunnies : Nat)
  | runFinished (status : Status) (steps : Nat)
  | secondIgnored
  /-- The message of an event of the bunny of a number. -/
  | said (bunny : Int) (message : String)
  | stepSkips (type : String)
  | cannotUnroll (type : String)
  | malformedJump (jump : Jump) (amount : Int)
  | malformedBlock (kind : String) (raw : Data)
  | malformedExpr (raw : Data)
  | mixedKinds (left right : Scalar)
  | stepLimit (limit : Int)

namespace Notice

def level : Notice → Level
  | mapLoaded .. | runStarted .. | runFinished .. => .info
  | secondIgnored | said .. | stepSkips .. | mixedKinds .. => .debug
  | cannotUnroll .. | malformedJump .. | malformedBlock .. | malformedExpr .. | stepLimit .. =>
    .warning

/-- The part of the game that speaks. -/
def source : Notice → String
  | cannotUnroll .. => "robobunny.program"
  | malformedExpr .. | mixedKinds .. => "robobunny.evaluator"
  | _ => "robobunny.engine"

def message : Notice → String
  | mapLoaded name size bunnies => s!"Loaded map '{name}' ({size}x{size}, {bunnies} bunnies)"
  | runStarted bunnies => s!"Running program ({bunnies} bunnies)"
  | runFinished status steps => s!"Run finished: {status.name} after {steps} steps"
  | secondIgnored => "Map has one bunny; second program ignored"
  | said bunny message => s!"[bunny {bunny}] {message}"
  | stepSkips type => s!"Step mode skips {type} block"
  | cannotUnroll type => s!"Step mode cannot unroll {type} block; skipped"
  | malformedJump jump amount => s!"Malformed {jump.name} with amount {amount} skipped"
  | malformedBlock kind raw =>
    s!"Malformed block skipped: UnknownNode(kind={Text.quoted kind}, raw={raw.shown})"
  | malformedExpr raw => s!"Malformed expression skipped: UnknownExpr(raw={raw.shown})"
  | mixedKinds left right => s!"Comparing {left.shown} with {right.shown}: type mismatch"
  | stepLimit limit => s!"Step limit {limit} exceeded, run halted"

/-- The line of the log. -/
def line (n : Notice) : String := s!"{n.level.name} {n.source}: {n.message}"

end Notice
end BunnyGrid
