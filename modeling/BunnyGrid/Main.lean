import BunnyGrid.Command.Run
import Std.Time.Format

/-! The command line program: reads the files that a command names, runs it, and writes what it
prints and saves. -/
namespace BunnyGrid.Command

/-- Add a file to a shelf, if it can be read. -/
def addFile (shelf : Shelf) (path : String) : IO Shelf := do
  if path.isEmpty then return shelf
  try
    return shelf.put path (← IO.FS.readFile path)
  catch _ => return shelf

/-- Add the saved results in a folder to a shelf. -/
def addResults (shelf : Shelf) (folder : String) : IO Shelf := do
  if folder.isEmpty then return shelf
  try
    let place ← IO.FS.realPath folder
    let names := (← place.readDir).toList.map (·.fileName) |>.filter isResultName
    names.foldlM (fun shelf name => addFile shelf (folder ++ "/" ++ name)) shelf
  catch _ => return shelf

/-- The files that a command reads. -/
def shelfFor (words : List String) : IO Shelf := do
  match Options.ofWords words with
  | .error _ => return {}
  | .ok o =>
    let shelf ← [o.program, o.program2, o.map].foldlM addFile {}
    addResults shelf o.summary

/-- The present moment down to the microsecond, as digits. -/
def stampNow : IO String := do
  let t ← Std.Time.PlainDateTime.now
  let day := padZero 4 t.year.toInt.toNat ++ padZero 2 t.month.val.toNat ++
    padZero 2 t.day.val.toNat
  let time := padZero 2 t.hour.val.toNat ++ padZero 2 t.minute.val.toNat ++
    padZero 2 t.second.val.toNat
  return day ++ "_" ++ time ++ "_" ++ padZero 6 (t.nanosecond.val.toNat / 1000)

/-- Write a file, its folder made if need be. -/
def writeSaved (path text : String) : IO Unit := do
  let folder := "/".intercalate (path.splitOn "/").dropLast
  if !folder.isEmpty then IO.FS.createDirAll folder
  IO.FS.writeFile path text

end BunnyGrid.Command

open BunnyGrid.Command in
def main (words : List String) : IO UInt32 := do
  let setting : Setting := { shelf := ← shelfFor words, stamp := ← stampNow }
  let (console, ending) := BunnyGrid.Command.run setting words
  IO.print console.printed
  IO.eprint console.errors
  if let some (path, text) := console.saved then writeSaved path text
  match ending with
  | .exit code => return code.toUInt32
  | .failed f =>
    IO.eprintln s!"error: {f.message}"
    return 1
