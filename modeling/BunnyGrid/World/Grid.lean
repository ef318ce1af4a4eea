import BunnyGrid.Data.Basic

/-! Square grids of cells. -/
namespace BunnyGrid

inductive CellKind
  | empty
  | strawberry
  | stone
  | puddle
  deriving DecidableEq

namespace CellKind

def all : List CellKind := [.empty, .strawberry, .stone, .puddle]

def name : CellKind → String
  | .empty => "empty"
  | .strawberry => "strawberry"
  | .stone => "stone"
  | .puddle => "puddle"

def ofName? (s : String) : Option CellKind := all.find? (·.name = s)

/-- The number of a kind in numeric grids. -/
def code : CellKind → Nat
  | .empty => 0
  | .strawberry => 1
  | .stone => 2
  | .puddle => 3

end CellKind

structure Cell where
  kind : CellKind := .empty
  value : Int := 0
  deriving DecidableEq

/-- A cell as data. -/
def Cell.toData (c : Cell) : Data :=
  .record [("type", .text c.kind.name), ("value", .int c.value)]

/-- A square of cells, row by row from the top. -/
structure Grid where
  size : Nat
  rows : Vector (Vector Cell size) size
  deriving DecidableEq

namespace Grid

/-- Whether a place lies on the grid. -/
def contains (g : Grid) (x y : Int) : Bool := 0 ≤ x && x < g.size && 0 ≤ y && y < g.size

/-- The cell in column `x` of row `y`. -/
def cell? (g : Grid) (x y : Nat) : Option Cell := g.rows[y]?.bind fun row => row[x]?

/-- The cell at a place; off the grid everything is empty. -/
def cell (g : Grid) (x y : Int) : Cell :=
  if g.contains x y then (g.cell? x.toNat y.toNat).getD {} else {}

/-- Put a cell at a place, if it lies on the grid. -/
def put (g : Grid) (x y : Int) (c : Cell) : Grid :=
  if h : 0 ≤ y ∧ y.toNat < g.size then
    { g with rows := g.rows.set y.toNat (putInRow g.rows[y.toNat]) }
  else g
where
  putInRow {n : Nat} (row : Vector Cell n) : Vector Cell n :=
    if h : 0 ≤ x ∧ x.toNat < n then row.set x.toNat c else row

/-- All cells, row by row. -/
def toRows (g : Grid) : List (List Cell) := (g.rows.map (·.toList)).toList

/-- The sum of the values of all strawberries. -/
def strawberries (g : Grid) : Int :=
  g.toRows.flatten.foldr (fun c sum => (if c.kind = .strawberry then c.value else 0) + sum) 0

/-- The square of rows, if they are one. -/
def square? {α : Type} (size : Nat) (rows : List (List α)) : Option (Vector (Vector α size) size) :=
  (rows.mapM fun row => vector? row).bind fun rows => vector? rows
where
  vector? {β : Type} (items : List β) : Option (Vector β size) :=
    if h : items.length = size then some ⟨items.toArray, by simpa using h⟩ else none

/-- A grid as data. -/
def toData (g : Grid) : Data := .list (g.toRows.map fun row => .list (row.map Cell.toData))

end Grid
end BunnyGrid
