import BunnyGrid.Value.Arithmetic
import BunnyGrid.Value.Comparison
import BunnyGrid.Data.Shown

/-! Expressions of a block program, and their form as data. -/
namespace BunnyGrid

inductive Axis
  | x
  | y
  deriving DecidableEq

namespace Axis

/-- The name in programs. -/
def name : Axis → String
  | .x => "bunny_x"
  | .y => "bunny_y"

def ofData? : Data → Option Axis
  | .scalar (.text s) => [Axis.x, .y].find? (·.name = s)
  | _ => none

end Axis

inductive Expr
  | literal (v : Scalar)
  /-- A coordinate of the bunny that evaluates. -/
  | coord (axis : Axis)
  | var (name : String)
  | arith (op : ArithOp) (left right : Expr)
  | compare (op : CompareOp) (left right : Expr)
  | logic (op : LogicOp) (left right : Expr)
  | not (operand : Expr)
  /-- Data that is no expression; its value is zero. -/
  | unknown (raw : Data)

namespace Expr

/-- The expression that a record writes, given what each of its fields writes. -/
def ofRecord (fields : List (String × Data)) (parts : List (String × Expr)) : Expr :=
  let raw := unknown (.record fields)
  let part (name : String) := (parts.lookup name).getD (.unknown .null)
  let op := ((Data.field? "op" fields).getD (.text "")).asText
  match Data.field "type" fields with
  | .scalar (.text kind) =>
    if kind = "Number" ∨ kind = "Boolean" ∨ kind = "String" then
      match (Data.field? "value" fields).getD (.int 0) with
      | .scalar v => .literal v
      | _ => raw
    else if kind = "Get" then
      ((Axis.ofData? (Data.field "name" fields)).map coord).getD raw
    else if kind = "GetVar" then
      .var ((Data.field? "name" fields).getD (.text "")).asText
    else if kind = "Binary" then
      ((ArithOp.ofText? op).map (arith · (part "left") (part "right"))).getD raw
    else if kind = "Compare" then
      ((CompareOp.ofText? op).map (compare · (part "left") (part "right"))).getD raw
    else if kind = "Logic" then
      ((LogicOp.ofText? op).map (logic · (part "left") (part "right"))).getD raw
    else if kind = "Not" then .not (part "child")
    else raw
  | _ => raw

mutual

/-- The expression that data writes: a plain value is a literal, a record says its type. -/
def ofData : Data → Expr
  | .scalar v => .literal v
  | .record fields => ofRecord fields (ofFields fields)
  | .null => .unknown .null
  | .list items => .unknown (.list items)

/-- What each field of a record writes. -/
def ofFields : List (String × Data) → List (String × Expr)
  | [] => []
  | (name, d) :: rest => (name, ofData d) :: ofFields rest

end

/-- The type that a literal is written with. -/
def literalType : Scalar → String
  | .bool _ => "Boolean"
  | .number _ => "Number"
  | .text _ => "String"

private def operation (type op : String) (left right : Data) : Data :=
  .record [("type", .text type), ("op", .text op), ("left", left), ("right", right)]

/-- An expression as data. -/
def toData : Expr → Data
  | literal v => .record [("type", .text (literalType v)), ("value", .scalar v)]
  | coord axis => .record [("type", .text "Get"), ("name", .text axis.name)]
  | var name => .record [("type", .text "GetVar"), ("name", .text name)]
  | arith op l r => operation "Binary" op.name l.toData r.toData
  | compare op l r => operation "Compare" op.name l.toData r.toData
  | logic op l r => operation "Logic" op.name l.toData r.toData
  | not e => .record [("type", .text "Not"), ("child", e.toData)]
  | unknown raw => raw

end Expr

/-- How far to jump or how often to repeat. -/
inductive Amount
  | plain (n : Int)
  | expr (e : Expr)

namespace Amount

/-- A whole number stays plain, a missing amount is one. -/
def ofData : Data → Amount
  | .scalar (.number (.int n)) => .plain n
  | .null => .plain 1
  | d => .expr (.ofData d)

def toData : Amount → Data
  | plain n => .int n
  | expr e => e.toData

end Amount
end BunnyGrid
