import BunnyGrid.Command.Options
import BunnyGrid.Command.Shelf
import BunnyGrid.Command.Usage
import BunnyGrid.Data.Json.Reader
import BunnyGrid.Data.Json.Writer
import BunnyGrid.Program.Sample
import BunnyGrid.Report.Summary
import BunnyGrid.View.Replay
import BunnyGrid.World.Sample

/-! What one command line does, as a function of the files there are: what it prints, what it
saves, and how it ends. -/
namespace BunnyGrid

/-- The replies to stepping a program until its status is no longer "running", at most a number of
times. -/
def Session.stepWhile (program : Program) : Nat → Session → List (Reply RunResult)
  | 0, _ => []
  | n + 1, s =>
    let reply := s.step program
    if reply.value.status = .running then reply :: stepWhile program n reply.session else [reply]

/-- The replies to stepping a program to its end. It has at most one step per action, and one that
finds nothing to run. -/
def Session.stepThrough (s : Session) (program : Program) : List (Reply RunResult) :=
  s.stepWhile program ((program.unroll (some s.rules.stepLimit)).actions.length + 1)

namespace Command

/-- Why a command fails with an error of its own. -/
inductive Failure
  | file (f : FileFault)
  | json (e : Json.Error)
  | board (f : BoardFault)
  | noResults (folder : String)
  | summary (f : SummaryFault)

namespace Failure

def message : Failure → String
  | file f => f.message
  | json e => e.message
  | board f => f.message
  | noResults folder => s!"No results found in {folder}"
  | summary f => f.message

end Failure

inductive Ending
  | exit (code : Nat)
  | failed (f : Failure)

/-- What a command has done so far. -/
structure Console where
  printed : String := ""
  errors : String := ""
  /-- Path and text of the file that was saved. -/
  saved : Option (String × String) := none

/-- Steps of a command; any of them may end it. -/
abbrev Script := ExceptT Ending (StateM Console)

/-- Where a command runs. -/
structure Setting where
  shelf : Shelf
  /-- The time in the name of a saved result. -/
  stamp : String

namespace Script

def printLine (line : String) : Script Unit :=
  modify fun c => { c with printed := c.printed ++ line ++ "\n" }

def printLines (lines : List String) : Script Unit := lines.forM printLine

/-- Write what the log was told, debug and information lines only if they are asked for. -/
def log (verbose : Bool) (notices : Array Notice) : Script Unit :=
  modify fun c =>
    let shown := notices.toList.filter fun n => verbose || Level.warning.rank ≤ n.level.rank
    { c with errors := c.errors ++ linesText (shown.map Notice.line) }

def fail {α : Type} (f : Failure) : Script α := throw (.failed f)

/-- The data in a JSON file. -/
def readData (shelf : Shelf) (path : String) : Script Data :=
  match shelf.read path with
  | .error f => fail (.file f)
  | .ok text =>
    match Json.read text with
    | .error e => fail (.json e)
    | .ok d => pure d

/-- What a reply says, its notices logged. -/
def take {α : Type} (verbose : Bool) (reply : Reply α) : Script (Session × α) := do
  log verbose reply.notices
  pure (reply.session, reply.value)

end Script

open Script

/-- A text padded with blanks at its end. -/
def padEnd (width : Nat) (s : String) : String :=
  s ++ String.ofList (List.replicate (width - s.length) ' ')

/-- A text padded with blanks in front. -/
def padStart (width : Nat) (s : String) : String :=
  String.ofList (List.replicate (width - s.length) ' ') ++ s

/-- A number padded with zeros in front. -/
def padZero (width n : Nat) : String :=
  let digits := toString n
  String.ofList (List.replicate (width - digits.length) '0') ++ digits

/-- The lines that tell how a run came out. -/
def resultLines (r : RunResult) : List String :=
  let bunny (i : Nat) (score moves : Int) (active : Bool) : String :=
    let place := if active then "on the map" else "left the map"
    s!"  Bunny {i + 1}: score {score}, moves {moves} ({place})"
  let bunnies := (r.scores.zip (r.moves.zip r.active)).zipIdx.map fun ((score, moves, active), i) =>
    bunny i score moves active
  [s!"Status: {r.status.name}", s!"Message: {r.message}"] ++ bunnies ++
    (if r.scores.isEmpty then [] else [s!"Total score: {r.totalScore}"]) ++
    [s!"Steps used: {r.steps}"]

def pictureOf (s : Session) : String := s.world?.elim "" World.picture

private def rule : String := String.ofList (List.replicate 60 '=')

/-- Run every sample program on the sample map. -/
def demo (rules : Rules) (verbose : Bool) : Script Unit := do
  printLines ["", rule, "ROBOBUNNY DEMO - Sample Programs on the Sample Map", rule, ""]
  let (s, _) ← take verbose (({ rules } : Session).loadBoard .sample)
  let s ← Program.samples.foldlM (fun s (name, d) => do
    let (s, r) ← take verbose (s.run (.ofData d) [])
    let status := padEnd 15 r.status.name
    let score := padStart 3 (toString r.totalScore)
    printLine s!"{padEnd 10 name} {status} score {score}  steps {r.steps}"
    pure s) s
  printLines ["", "Final world after 'straight':", ""]
  let straight := (Program.sample? "straight").elim [] Program.ofData
  let (s, _) ← take verbose (s.run straight [])
  printLine (pictureOf s)
  printLines
    [ "", rule, "To run your own program:",
      "  python run_game.py --map map.json --program program.json", rule, "" ]

/-- Whether a file name is that of a saved result. -/
def isResultName (name : String) : Bool :=
  let cs := name.toList
  let start := "result_".toList
  let ending := ".json".toList
  start.isPrefixOf cs && ending.isSuffixOf (cs.drop start.length)

/-- Print the summary of the results saved in a folder. -/
def summarize (shelf : Shelf) (folder : String) : Script Unit := do
  let runs ← (shelf.readAll folder isResultName).mapM fun text =>
    match Json.read text with
    | .error e => fail (.json e)
    | .ok d => pure d
  if runs.isEmpty then fail (.noResults folder)
  match Summary.ofRuns runs with
  | .error f => fail (.summary f)
  | .ok d => printLine (Json.write { indent := some 2 } d)

/-- Step through a program and print the world after each step. -/
def walk (s : Session) (program : Program) (verbose : Bool) :
    Script (Session × Option RunResult) :=
  (s.stepThrough program).zipIdx.foldlM (fun _ (reply, i) => do
    let (s, r) ← take verbose reply
    printLines ["", s!"--- step {i + 1}: {r.message}", pictureOf s]
    pure (s, some r)) (s, none)

/-- Run programs and print a picture for every event. -/
def replay (s : Session) (program program2 : Program) (verbose : Bool) :
    Script (Session × RunResult) := do
  let (s, frames, r) ← take verbose (s.frames program program2)
  printLines (frames.zipIdx.flatMap fun (frame, i) => ["", s!"--- frame {i}", frame])
  pure (s, r)

/-- Save a result in a folder. -/
def save (setting : Setting) (folder : String) (r : RunResult) : Script Unit := do
  if let some f := setting.shelf.folderFault? folder then fail (.file f)
  let path := tidyInside folder s!"result_{setting.stamp}.json"
  let text := Json.write { indent := some 2, ascii := false } r.toData
  modify fun c => { c with saved := some (path, text) }
  printLine ""
  printLine s!"Result saved to: {path}"

/-- Load the map of a command; a faulty one ends it. -/
def loadMap (s : Session) (verbose : Bool) (d : Data) : Script (Session × Unit) :=
  match s.load d with
  | .ok reply => take verbose reply
  | .error .notRecord => fail (.board .notRecord)
  | .error .infinite => fail (.board .infinite)
  | .error f => do
    printLine s!"Invalid map: {f.message}"
    throw (.exit 1)

/-- The program that the options ask for, if they ask for one. -/
def programOf (setting : Setting) (o : Options) : Script (Option Data) :=
  if !o.program.isEmpty then some <$> readData setting.shelf o.program
  else pure (o.sample.bind Program.sample?)

/-- Run the program that the options ask for. -/
def play (setting : Setting) (o : Options) (program : Program) : Script Unit := do
  let shelf := setting.shelf
  let program2 ← if o.program2.isEmpty then pure .null else readData shelf o.program2
  let program2 := Program.ofData program2
  let s : Session := { rules := { stepLimit := o.stepLimit } }
  let (s, _) ←
    if o.map.isEmpty then take o.verbose (s.loadBoard .sample)
    else loadMap s o.verbose (← readData shelf o.map)
  if let some stage := s.stage then
    printLine s!"Map: {stage.board.name}"
    printLine s!"Blocks: {program.count} / {stage.board.blockLimit}"
  let (s, r) ←
    if o.step then do
      let (s, r) ← walk s program o.verbose
      pure (s, r.getD Session.noMapResult)
    else if o.replay then replay s program program2 o.verbose
    else do
      let (s, r) ← take o.verbose (s.run program program2)
      printLines ["", pictureOf s]
      pure (s, r)
  printLines ("" :: resultLines r)
  if !o.output.isEmpty then save setting o.output r
  if !o.plot.isEmpty && s.stage.isSome then printLine "matplotlib required for visualization"

/-- What the options ask for. -/
def obey (setting : Setting) (o : Options) : Script Unit := do
  if o.demo then demo { stepLimit := o.stepLimit } o.verbose
  else if !o.summary.isEmpty then summarize setting.shelf o.summary
  else
    match ← programOf setting o with
    | some d => play setting o (.ofData d)
    | none =>
      modify fun c => { c with printed := c.printed ++ helpText }
      printLines ["", "Quick start: python run_game.py --demo"]

/-- A command from its words. -/
def script (setting : Setting) (words : List String) : Script Unit :=
  match Options.ofWords words with
  | .ok o => obey setting o
  | .error .helpAsked => do
    modify fun c => { c with printed := c.printed ++ helpText }
    throw (.exit 0)
  | .error (.usage e) => do
    modify fun c => { c with errors := c.errors ++ errorText e.message }
    throw (.exit 2)

/-- What a command does, and how it ends. -/
def run (setting : Setting) (words : List String) : Console × Ending :=
  match (script setting words).run {} with
  | (.ok _, c) => (c, .exit 0)
  | (.error ending, c) => (c, ending)

end Command
end BunnyGrid
