import BunnyGrid.Text.Quoted

/-! Text files by path. -/
namespace BunnyGrid.Command

/-- The name that paths from the root begin with. -/
def rootName : String := "/"

/-- The names where a path begins. -/
def pathStart (path : String) : List String :=
  if path.toList.head? = some '/' then [rootName] else []

/-- A place and one name more: an empty name and a single point stay there, two points go back by
one, but not beyond the root. -/
def enter (place : List String) (name : String) : List String :=
  if name = "" ∨ name = "." then place
  else if name ≠ ".." then place ++ [name]
  else
    match place.getLast? with
    | none | some ".." => place ++ [name]
    | some last => if last = rootName then place else place.dropLast

/-- The names of the place that a path stands for. -/
def pathNames (path : String) : List String := (path.splitOn "/").foldl enter (pathStart path)

/-- The places that a path goes through before the one it stands for. -/
def pathFolders (path : String) : List (List String) :=
  through (pathStart path) (path.splitOn "/").dropLast
where
  through (place : List String) : List String → List (List String)
    | [] => [place]
    | name :: rest => place :: through (enter place name) rest

/-- A path as it is shown: empty names and single points left out. -/
def tidyPath (path : String) : String :=
  let names := (path.splitOn "/").filter fun name => name ≠ "" ∧ name ≠ "."
  let root :=
    match path.toList with
    | '/' :: '/' :: '/' :: _ => "/"
    | '/' :: '/' :: _ => "//"
    | '/' :: _ => "/"
    | _ => ""
  if root.isEmpty && names.isEmpty then "." else root ++ "/".intercalate names

/-- A path to a name inside a folder, as it is shown. -/
def tidyInside (folder name : String) : String :=
  let folder := tidyPath folder
  if folder = "." then name
  else if folder = "/" ∨ folder = "//" then folder ++ name
  else folder ++ "/" ++ name

/-- Line ends of every kind as line feeds. -/
def unifyLines : List Char → List Char
  | '\r' :: '\n' :: cs => '\n' :: unifyLines cs
  | '\r' :: cs => '\n' :: unifyLines cs
  | c :: cs => c :: unifyLines cs
  | [] => []

inductive FileFault
  | missing (path : String)
  | isFolder (path : String)
  | notFolder (path : String)
  | isTaken (path : String)

namespace FileFault

def message : FileFault → String
  | missing path => s!"[Errno 2] No such file or directory: {Text.quoted path}"
  | isFolder path => s!"[Errno 21] Is a directory: {Text.quoted path}"
  | notFolder path => s!"[Errno 20] Not a directory: {Text.quoted path}"
  | isTaken path => s!"[Errno 17] File exists: {Text.quoted path}"

end FileFault

/-- Files and folders by the names on their paths. -/
structure Shelf where
  files : List (List String × String) := []
  folders : List (List String) := []

namespace Shelf

/-- Put a text at a path. All that the path goes through are folders from then on. -/
def put (s : Shelf) (path text : String) : Shelf :=
  let names := pathNames path
  { files := s.files.filter (·.1 ≠ names) ++ [(names, text)]
    folders := s.folders ++ pathFolders path }

/-- Whether there is a file at some names. -/
def isFile (s : Shelf) (names : List String) : Bool := s.files.any (·.1 = names)

/-- Whether there is a folder at some names. The root is one, and so are the starting one and
those that it is in. -/
def isFolder (s : Shelf) (names : List String) : Bool :=
  names = [rootName] || names.all (· = "..") || s.folders.contains names

/-- Whether a file stands where a path needs a folder. -/
def isBlocked (s : Shelf) (names : List String) : Bool :=
  s.files.any fun f => f.1.isPrefixOf names && f.1.length ≠ names.length

/-- The names of the place that a path leads to. Every name but the last has to be a folder's. -/
def locate (s : Shelf) (path : String) : Except FileFault (List String) :=
  (path.splitOn "/").foldlM (fun place name =>
    if s.isFolder place then .ok (enter place name)
    else .error (if s.isFile place then .notFolder path else .missing path)) (pathStart path)

/-- The text of a file, its line ends unified. -/
def read (s : Shelf) (path : String) : Except FileFault String := do
  let names ← s.locate path
  match s.files.lookup names with
  | some text => .ok (String.ofList (unifyLines text.toList))
  | none => .error (if s.isFolder names then .isFolder path else .missing path)

/-- Why a folder cannot be made, if it cannot. -/
def folderFault? (s : Shelf) (path : String) : Option FileFault :=
  let names := pathNames path
  if s.isBlocked names then some (.notFolder (tidyPath path))
  else if s.isFile names then some (.isTaken (tidyPath path))
  else none

/-- The texts of the files in a folder whose names pass, in the order of their names. -/
def readAll (s : Shelf) (folder : String) (passes : String → Bool) : List String :=
  let place := (s.locate folder).toOption
  let found := s.files.filterMap fun f =>
    if some f.1.dropLast = place then
      match f.1.getLast? with
      | some name => if passes name then some (name, f.2) else none
      | none => none
    else none
  let sorted := found.mergeSort fun a b => a.1 ≤ b.1
  sorted.map fun f => String.ofList (unifyLines f.2.toList)

end Shelf
end BunnyGrid.Command
