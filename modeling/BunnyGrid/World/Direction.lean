/-! The four facings, and quarter turns between them. -/
namespace BunnyGrid

inductive Direction
  | up
  | right
  | down
  | left
  deriving DecidableEq

namespace Direction

/-- All facings in clockwise order. -/
def all : List Direction := [.up, .right, .down, .left]

def name : Direction → String
  | .up => "up"
  | .right => "right"
  | .down => "down"
  | .left => "left"

def ofName? (s : String) : Option Direction := all.find? (·.name = s)

/-- One step ahead; rows are counted downward. -/
def vector : Direction → Int × Int
  | .up => (0, -1)
  | .right => (1, 0)
  | .down => (0, 1)
  | .left => (-1, 0)

/-- A quarter turn clockwise. -/
def clockwise : Direction → Direction
  | .up => .right
  | .right => .down
  | .down => .left
  | .left => .up

/-- The facing after some quarter turns clockwise; a negative number turns the other way. -/
def turned (d : Direction) (quarters : Int) : Direction :=
  Nat.repeat clockwise (quarters % 4).toNat d

end Direction
end BunnyGrid
