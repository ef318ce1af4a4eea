import BunnyGrid.Data.Basic
import BunnyGrid.Text.Quoted

/-! Data into JSON text. -/
namespace BunnyGrid.Json

/-- The choices of a written form. -/
structure Style where
  /-- Blanks per level when each item stands on a line of its own; none for a single line. -/
  indent : Option Nat := none
  /-- Whether characters beyond ASCII are escaped. -/
  ascii : Bool := true

/-- A 16-bit unit as an escape. -/
def unitEscape (n : Nat) : List Char := '\\' :: 'u' :: Text.hex 4 n

/-- One character of a string; beyond 16 bits an escape takes a surrogate pair. -/
def charText (ascii : Bool) (c : Char) : List Char :=
  let n := c.toNat
  if c = '"' then ['\\', '"']
  else if c = '\\' then ['\\', '\\']
  else if c = '\n' then ['\\', 'n']
  else if c = '\r' then ['\\', 'r']
  else if c = '\t' then ['\\', 't']
  else if c = '\x0c' then ['\\', 'f']
  else if c = '\x08' then ['\\', 'b']
  else if n < 0x20 then unitEscape n
  else if !ascii || n < 0x7f then [c]
  else if n < 0x10000 then unitEscape n
  else unitEscape (0xd800 + (n - 0x10000) / 0x400) ++ unitEscape (0xdc00 + (n - 0x10000) % 0x400)

def stringText (ascii : Bool) (s : String) : String :=
  String.ofList ('"' :: s.toList.flatMap (charText ascii) ++ ['"'])

def scalarText (ascii : Bool) : Scalar → String
  | .bool b => if b then "true" else "false"
  | .number n => n.text jsonNumbers
  | .text s => stringText ascii s

/-- Items between brackets, at a nesting level. -/
def bracket (style : Style) (level : Nat) (opening closing : String) (parts : List String) :
    String :=
  match style.indent, parts with
  | _, [] => opening ++ closing
  | none, parts => opening ++ ", ".intercalate parts ++ closing
  | some width, parts =>
    let line (level : Nat) := "\n" ++ String.ofList (List.replicate (width * level) ' ')
    opening ++ line (level + 1) ++ ("," ++ line (level + 1)).intercalate parts ++ line level ++
      closing

mutual

/-- The text of data at a nesting level. -/
def textAt (style : Style) (level : Nat) : Data → String
  | .null => "null"
  | .scalar v => scalarText style.ascii v
  | .list items => bracket style level "[" "]" (itemTexts style (level + 1) items)
  | .record fields => bracket style level "\x7b" "\x7d" (fieldTexts style (level + 1) fields)

def itemTexts (style : Style) (level : Nat) : List Data → List String
  | [] => []
  | d :: rest => textAt style level d :: itemTexts style level rest

def fieldTexts (style : Style) (level : Nat) : List (String × Data) → List String
  | [] => []
  | (name, d) :: rest =>
    (stringText style.ascii name ++ ": " ++ textAt style level d) :: fieldTexts style level rest

end

/-- The JSON text of data. -/
def write (style : Style) (d : Data) : String := textAt style 0 d

end BunnyGrid.Json
