import BunnyGrid.Program.Expr

/-! Block programs: actions, control blocks, and blocks of no known type, which are skipped. -/
namespace BunnyGrid

/-- The three ways to jump: some cells ahead, or one cell ahead and some cells to a side. -/
inductive Jump
  | ahead
  | right
  | left
  deriving DecidableEq

namespace Jump

/-- The name in programs. -/
def name : Jump → String
  | .ahead => "F_Jump"
  | .right => "FR_Jump"
  | .left => "FL_Jump"

def ofText? (s : String) : Option Jump := [Jump.ahead, .right, .left].find? (·.name = s)

end Jump

inductive Turn
  | right
  | back
  | left
  deriving DecidableEq

namespace Turn

/-- Quarter turns, clockwise. -/
def quarters : Turn → Nat
  | .right => 1
  | .back => 2
  | .left => 3

/-- The name in programs. -/
def name : Turn → String
  | .right => "right"
  | .back => "back"
  | .left => "left"

/-- Every spelling in small letters. -/
def spellings : List (String × Turn) :=
  [ ("right", .right), ("left", .left), ("back", .back), ("右", .right), ("左", .left),
    ("後", .back) ]

/-- The turn of a spelling in any case. -/
def ofText? (s : String) : Option Turn := spellings.lookup (Text.smalls s)

end Turn

/-- What a bunny does in one go. -/
inductive Action
  | jump (kind : Jump) (amount : Amount)
  | turn (direction : Turn)
  | setVar (name : String) (value : Expr)
  | changeVar (name : String) (delta : Expr)

inductive Block
  | act (action : Action)
  | branch (condition : Expr) (yes no : List Block)
  | whileLoop (condition : Expr) (body : List Block)
  | repeatLoop (times : Amount) (body : List Block)
  /-- Data that is no block. -/
  | unknown (kind : String) (raw : Data)

abbrev Program := List Block

namespace Block

/-- The block that a record writes, given what each of its fields writes as a program. -/
def ofRecord (fields : List (String × Data)) (bodies : List (String × Program)) : Block :=
  let raw := Data.record fields
  let body (name : String) := (bodies.lookup name).getD []
  let expr (name : String) := Expr.ofData (Data.field name fields)
  let name := ((Data.field? "name" fields).getD (.text "")).asText
  match Data.field "type" fields with
  | .scalar (.text kind) =>
    match Jump.ofText? kind with
    | some jump => .act (.jump jump (.ofData (Data.field "value" fields)))
    | none =>
      if kind = "Turn" then
        match Turn.ofText? ((Data.field? "value" fields).getD (.text "")).asText with
        | some turn => .act (.turn turn)
        | none => .unknown kind raw
      else if kind = "SetVar" then
        .act (.setVar name (.ofData ((Data.field? "value" fields).getD (.int 0))))
      else if kind = "ChangeVar" then
        .act (.changeVar name (.ofData ((Data.field? "delta" fields).getD (.int 1))))
      else if kind = "If" then .branch (expr "condition") (body "then") (body "else")
      else if kind = "While" then .whileLoop (expr "condition") (body "body")
      else if kind = "Repeat" then
        .repeatLoop (.ofData ((Data.field? "times" fields).getD (Data.field "value" fields)))
          ((bodies.lookup "body").getD (body "children"))
      else .unknown kind raw
  | kind => .unknown kind.asText raw

mutual

/-- The block that data writes. -/
def ofData : Data → Block
  | .record fields => ofRecord fields (bodies fields)
  | .null => .unknown Data.null.kindName .null
  | .scalar v => .unknown (Data.scalar v).kindName (.scalar v)
  | .list items => .unknown (Data.list items).kindName (.list items)

/-- The blocks that a list of data writes, one for one. -/
def ofItems : List Data → Program
  | [] => []
  | d :: rest => ofData d :: ofItems rest

/-- The program that data writes: what is not a list is the empty program. -/
def programOfData : Data → Program
  | .list items => ofItems items
  | _ => []

/-- What each field of a record writes as a program. -/
def bodies : List (String × Data) → List (String × Program)
  | [] => []
  | (name, d) :: rest => (name, programOfData d) :: bodies rest

end

end Block

namespace Action

/-- An action as data. -/
def toData : Action → Data
  | jump kind amount => .record [("type", .text kind.name), ("value", amount.toData)]
  | turn direction => .record [("type", .text "Turn"), ("value", .text direction.name)]
  | setVar name value =>
    .record [("type", .text "SetVar"), ("name", .text name), ("value", value.toData)]
  | changeVar name delta =>
    .record [("type", .text "ChangeVar"), ("name", .text name), ("delta", delta.toData)]

end Action

namespace Block

mutual

/-- A block as data. -/
def toData : Block → Data
  | act action => action.toData
  | branch condition yes no =>
    .record [("type", .text "If"), ("condition", condition.toData), ("then", .list (toItems yes)),
      ("else", .list (toItems no))]
  | whileLoop condition body =>
    .record [("type", .text "While"), ("condition", condition.toData),
      ("body", .list (toItems body))]
  | repeatLoop times body =>
    .record [("type", .text "Repeat"), ("times", times.toData), ("body", .list (toItems body))]
  | unknown _ raw => raw

def toItems : List Block → List Data
  | [] => []
  | b :: rest => toData b :: toItems rest

end

mutual

/-- How many blocks there are in a block, itself among them. -/
def count : Block → Nat
  | branch _ yes no => 1 + (countAll yes + countAll no)
  | whileLoop _ body => 1 + countAll body
  | repeatLoop _ body => 1 + countAll body
  | _ => 1

def countAll : List Block → Nat
  | [] => 0
  | b :: rest => count b + countAll rest

end

/-- The type of a block that is no action, as messages name it. -/
def typeName : Block → String
  | act _ => "Action"
  | branch .. => "If"
  | whileLoop .. => "While"
  | repeatLoop .. => "Repeat"
  | unknown .. => "UnknownNode"

end Block

namespace Program

/-- The program that data writes: what is not a list is the empty program. -/
def ofData (d : Data) : Program := Block.programOfData d

/-- A program as data. -/
def toData (p : Program) : Data := .list (Block.toItems p)

/-- How many blocks a program has, the nested ones among them. -/
def count (p : Program) : Nat := Block.countAll p

end Program
end BunnyGrid
