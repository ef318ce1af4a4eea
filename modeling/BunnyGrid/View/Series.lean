import BunnyGrid.Play.Event

/-! A run as series of whole numbers of fixed width. -/
namespace BunnyGrid

/-- A number does not fit the width of its series. -/
inductive WidthFault
  | tooWide
  deriving DecidableEq

/-- Numbers that all fit a signed word of `bits` bits. -/
def fitAll (bits : Nat) (numbers : List Int) : Except WidthFault (List Int) :=
  let bound : Int := (1 <<< (bits - 1) : Nat)
  if numbers.all fun n => -bound ≤ n && n < bound then .ok numbers else .error .tooWide

/-- The places that a bunny visits, one for each of its events except changes of variables. -/
def pathOf (events : List Event) (agent : Nat) : List (Int × Int) :=
  (events.filter fun e => e.agent = (agent : Int) && e.kind ≠ .variable).map fun e => (e.x, e.y)

/-- A bunny's score after each of its events, in 64 bits. -/
def scoreCurve (events : List Event) (agent : Nat) : Except WidthFault (List Int) :=
  fitAll 64 ((events.filter fun e => e.agent = (agent : Int)).map (·.score))

/-- The paths of the first `count` bunnies. -/
def paths (events : List Event) (count : Int) : List (List (Int × Int)) :=
  (List.range count.toNat).map (pathOf events)

/-- The score curves of the first `count` bunnies. -/
def scoreCurves (events : List Event) (count : Int) : Except WidthFault (List (List Int)) :=
  (List.range count.toNat).mapM (scoreCurve events)

namespace World

/-- The codes of the cells, row by row. -/
def kindCodes (w : World) : List (List Nat) := w.grid.toRows.map fun row => row.map (·.kind.code)

/-- The values of the cells, row by row, in 32 bits. -/
def cellValues (w : World) : Except WidthFault (List (List Int)) :=
  w.grid.toRows.mapM fun row => fitAll 32 (row.map (·.value))

end World
end BunnyGrid
