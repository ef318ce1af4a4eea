import BunnyGrid.Number.Basic

/-! Structured data as it comes in from files and requests: scalars, lists, and records whose
fields keep their order. -/
namespace BunnyGrid

/-- A plain value, which a program can compute with. -/
inductive Scalar
  | bool (b : Bool)
  | number (n : Number)
  | text (s : String)
  deriving DecidableEq

inductive Data
  | null
  | scalar (v : Scalar)
  | list (items : List Data)
  | record (fields : List (String × Data))

namespace Scalar

def int (i : Int) : Scalar := .number (.int i)

/-- Whether a value counts as true: not false, zero, NaN or empty. -/
def truthy : Scalar → Bool
  | .bool b => b
  | .number n => !n.isZero && !n.isNaN
  | .text s => !s.isEmpty

end Scalar

namespace Data

def bool (b : Bool) : Data := .scalar (.bool b)

def int (i : Int) : Data := .scalar (.int i)

def text (s : String) : Data := .scalar (.text s)

/-- Whether a value is present: not null, false, zero or empty. NaN is present. -/
def isPresent : Data → Bool
  | .null => false
  | .scalar (.number n) => !n.isZero
  | .scalar v => v.truthy
  | .list items => !items.isEmpty
  | .record fields => !fields.isEmpty

/-- Whether a value counts as true in a condition. -/
def truthy : Data → Bool
  | .scalar v => v.truthy
  | d => d.isPresent

/-- The first field of a name, if there is one. -/
def field? (name : String) (fields : List (String × Data)) : Option Data := fields.lookup name

/-- The field of a name, null if it is missing. -/
def field (name : String) (fields : List (String × Data)) : Data :=
  (fields.lookup name).getD .null

/-- Give a field a value: in place if the name is taken, else at the end. -/
def setField (name : String) (value : Data) : List (String × Data) → List (String × Data)
  | [] => [(name, value)]
  | (key, old) :: rest =>
    if key = name then (key, value) :: rest else (key, old) :: setField name value rest

end Data
end BunnyGrid
