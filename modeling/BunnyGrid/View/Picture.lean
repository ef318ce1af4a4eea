import BunnyGrid.World.Basic

/-! A world as a picture of text: one symbol per cell, a bunny as an arrow. -/
namespace BunnyGrid

def CellKind.symbol : CellKind → String
  | .empty => "."
  | .strawberry => "S"
  | .stone => "#"
  | .puddle => "~"

namespace Direction

def arrow : Direction → String
  | .up => "^"
  | .right => ">"
  | .down => "v"
  | .left => "<"

def isArrow (s : String) : Bool := all.any (·.arrow = s)

end Direction

namespace World

/-- The symbols of the cells, row by row. -/
def symbols (w : World) : List (List String) :=
  w.grid.toRows.map fun row => row.map (·.kind.symbol)

/-- Draw a bunny that is on the map: its arrow, or its number where an arrow stands already. -/
def drawBunny (picture : List (List String)) (index : Nat) (b : Bunny) : List (List String) :=
  if b.active then
    picture.modify b.y.toNat fun row =>
      row.modify b.x.toNat fun symbol =>
        if Direction.isArrow symbol then toString (index + 1) else b.facing.arrow
  else picture

/-- The picture of a world. -/
def picture (w : World) : String :=
  let rows := w.bunnies.zipIdx.foldl (fun rows (b, i) => drawBunny rows i b) w.symbols
  "\n".intercalate (rows.map (" ".intercalate ·))

end World
end BunnyGrid
