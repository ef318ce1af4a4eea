import BunnyGrid.Data.Basic
import BunnyGrid.Text.Quoted

/-! Data as it is shown inside a message. -/
namespace BunnyGrid

namespace Scalar

/-- A value as it is shown inside a message: texts in quotes, numbers in their shortest form. -/
def shown : Scalar → String
  | .bool b => if b then "True" else "False"
  | .number n => n.text messageNumbers
  | .text s => Text.quoted s

end Scalar

namespace Data

mutual

/-- Data as it is shown inside a message. -/
def shown : Data → String
  | .null => "None"
  | .scalar v => v.shown
  | .list items => "[" ++ ", ".intercalate (shownItems items) ++ "]"
  | .record fields => "\x7b" ++ ", ".intercalate (shownFields fields) ++ "\x7d"

def shownItems : List Data → List String
  | [] => []
  | d :: rest => shown d :: shownItems rest

def shownFields : List (String × Data) → List String
  | [] => []
  | (key, d) :: rest => (Text.quoted key ++ ": " ++ shown d) :: shownFields rest

end

/-- Data as a name: a text is its own name. -/
def asText : Data → String
  | .scalar (.text s) => s
  | d => d.shown

/-- The kind of a value, as messages name it. -/
def kindName : Data → String
  | .null => "NoneType"
  | .scalar (.bool _) => "bool"
  | .scalar (.number (.int _)) => "int"
  | .scalar (.number (.double _)) => "float"
  | .scalar (.text _) => "str"
  | .list _ => "list"
  | .record _ => "dict"

end Data
end BunnyGrid
