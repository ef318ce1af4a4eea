import BunnyGrid.Data.Integer
import BunnyGrid.Data.Shown
import BunnyGrid.Text.Letter
import BunnyGrid.World.Direction
import BunnyGrid.World.Grid

/-! Boards: what a map describes, how one is read from data and written back. -/
namespace BunnyGrid

/-- Where a bunny starts. -/
structure Start where
  x : Int
  y : Int
  facing : Direction := .up
  deriving DecidableEq

/-- How many blocks a program may have where a map does not say it. -/
def defaultBlockLimit : Int := 20

structure Board where
  grid : Grid
  first : Start
  second : Option Start := none
  blockLimit : Int := defaultBlockLimit
  name : String := "Untitled"
  deriving DecidableEq

/-- Why data is no board. -/
inductive BoardFault
  | notRecord
  | noCells
  | noStart
  | badSize (raw : Data)
  | notSquare (size : Int)
  | badStrawberry (value : Data)
  | badStart (raw : Data)
  | startOutside (x y : Int) (size : Nat)
  | badBlockLimit (raw : Data)
  /-- A size, position or limit is infinite. -/
  | infinite

namespace BoardFault

def message : BoardFault → String
  | .notRecord => "Map descriptor is not a record"
  | .noCells => "Map descriptor has no mapData"
  | .noStart => "Map descriptor has no bunnyPosition"
  | .badSize raw => s!"Invalid gridSize: {raw.shown}"
  | .notSquare size => s!"mapData is not a {size}x{size} grid"
  | .badStrawberry value =>
    s!"Strawberry value must be a positive integer, got {value.shown}"
  | .badStart raw => s!"Invalid bunny position: {raw.shown}"
  | .startOutside x y size =>
    s!"Bunny position ({x}, {y}) is outside a {size}x{size} grid"
  | .badBlockLimit raw => s!"Invalid blockLimit: {raw.shown}"
  | .infinite => "cannot convert float infinity to integer"

end BoardFault

/-- The whole number that data stands for; what is no number is the given fault. -/
def wholeOr (fault : BoardFault) (d : Data) : Except BoardFault Int :=
  d.toInt.mapError fun
    | .noNumber => fault
    | .infinite => .infinite

namespace Cell

/-- A double that is a whole number, as such. -/
def wholeValue : Data → Data
  | .scalar (.number (.double d)) => (d.toInt?.map .int).getD (.scalar (.number (.double d)))
  | d => d

/-- The cell that data describes: what is no record or of no known type is empty, and a strawberry
is worth one unless it says otherwise. -/
def ofData : Data → Except BoardFault Cell
  | .record fields =>
    let kind := (Data.field? "type" fields).getD (.text "empty")
    match CellKind.ofName? (Text.smalls kind.asText) with
    | some .strawberry =>
      match wholeValue ((Data.field? "value" fields).getD (.int 1)) with
      | .scalar (.number (.int value)) =>
        if 1 ≤ value then .ok ⟨.strawberry, value⟩ else .error (.badStrawberry (.int value))
      | d => .error (.badStrawberry d)
    | some kind => .ok { kind }
    | none => .ok {}
  | _ => .ok {}

end Cell

namespace Start

/-- The start that data describes on a grid of the given size; it faces up unless it says
otherwise. -/
def ofData (size : Nat) (d : Data) : Except BoardFault Start :=
  match d with
  | .record fields => do
    let coordinate (name : String) := wholeOr (.badStart d) (Data.field name fields)
    let x ← coordinate "x"
    let y ← coordinate "y"
    if 0 ≤ x ∧ x < size ∧ 0 ≤ y ∧ y < size then
      let facing := (Data.field? "direction" fields).getD (.text "up")
      .ok ⟨x, y, (Direction.ofName? (Text.smalls facing.asText)).getD .up⟩
    else .error (.startOutside x y size)
  | d => .error (.badStart d)

def toData (s : Start) : Data :=
  .record [("x", .int s.x), ("y", .int s.y), ("direction", .text s.facing.name)]

end Start

namespace Board

/-- Where the bunnies start: one or two. -/
def starts (b : Board) : List Start := b.first :: b.second.toList

def bunnyCount (b : Board) : Nat := b.starts.length

/-- The items of each row, if every row is a list. -/
def rows? (rows : List Data) : Option (List (List Data)) :=
  rows.mapM fun
    | .list items => some items
    | _ => none

/-- The grid that the rows of a map describe. Its size is checked before its cells are read. -/
def readGrid (size : Int) (rows : List Data) : Except BoardFault Grid :=
  let shaped := do
    if size = rows.length then Grid.square? rows.length (← rows? rows) else none
  match shaped with
  | none => .error (.notSquare size)
  | some raw => do
    let rows ← raw.mapM fun row => row.mapM Cell.ofData
    .ok ⟨_, rows⟩

/-- The rows that a map lists, at least one. -/
def readRows (fields : List (String × Data)) : Except BoardFault (List Data) :=
  match Data.field "mapData" fields with
  | .list (row :: rest) => .ok (row :: rest)
  | _ => .error .noCells

/-- What a map says about the first start. -/
def readStart (fields : List (String × Data)) : Except BoardFault Data :=
  let start := Data.field "bunnyPosition" fields
  if start.isPresent then .ok start else .error .noStart

/-- The size that a map gives, or its number of rows. -/
def readSize (fields : List (String × Data)) (rows : List Data) : Except BoardFault Int :=
  wholeOr (.badSize (Data.field "gridSize" fields))
    ((Data.field? "gridSize" fields).getD (.int rows.length))

/-- The second start, if a map has one. -/
def readSecond (fields : List (String × Data)) (size : Nat) : Except BoardFault (Option Start) :=
  let another := Data.field "bunnyPosition2" fields
  if another.isPresent then some <$> Start.ofData size another else .ok none

def readLimit (fields : List (String × Data)) : Except BoardFault Int :=
  let limit := Data.field "blockLimit" fields
  if limit.isPresent then wholeOr (.badBlockLimit limit) limit else .ok defaultBlockLimit

/-- The board that the fields of a map describe. Faults are looked for in the order in which they
are listed, the block limit last. -/
def ofFields (fields : List (String × Data)) : Except BoardFault Board := do
  let rows ← readRows fields
  let start ← readStart fields
  let size ← readSize fields rows
  let grid ← readGrid size rows
  let first ← Start.ofData grid.size start
  let second ← readSecond fields grid.size
  let blockLimit ← readLimit fields
  .ok
    { grid, first, second, blockLimit
      name := ((Data.field? "name" fields).getD (.text "Untitled")).asText }

/-- The board that data describes. -/
def ofData : Data → Except BoardFault Board
  | .record fields => ofFields fields
  | _ => .error .notRecord

/-- A board as data. -/
def toData (b : Board) : Data :=
  .record <|
    [ ("name", .text b.name), ("gridSize", .int b.grid.size), ("mapData", b.grid.toData),
      ("blockLimit", .int b.blockLimit), ("bunnyPosition", b.first.toData) ] ++
    (b.second.map fun s => ("bunnyPosition2", s.toData)).toList

end Board
end BunnyGrid
