import BunnyGrid.World.Board

/-! The board that ships with the game, and empty grids. -/
namespace BunnyGrid

/-- A grid of empty cells. -/
def Grid.blank (size : Nat) : Grid := ⟨size, .replicate size (.replicate size {})⟩

namespace Board

/-- Column, row and worth of each strawberry on the sample board. -/
def sampleStrawberries : List (Int × Int × Int) :=
  [ (10, 16, 3), (10, 14, 2), (10, 12, 5), (8, 14, 2), (12, 14, 2), (8, 10, 4), (12, 10, 4),
    (10, 8, 6), (6, 12, 3), (14, 12, 3) ]

/-- Column and row of each stone on the sample board. -/
def sampleStones : List (Int × Int) := [(9, 13), (11, 13), (7, 11), (13, 11)]

/-- The sample board: strawberries ahead of the bunny and a few stones beside them. -/
def sample : Board where
  grid :=
    let berries := sampleStrawberries.foldl
      (fun g (x, y, value) => g.put x y ⟨.strawberry, value⟩) (Grid.blank 21)
    sampleStones.foldl (fun g (x, y) => g.put x y ⟨.stone, 0⟩) berries
  first := ⟨10, 18, .up⟩
  name := "Sample Map"

end Board
end BunnyGrid
