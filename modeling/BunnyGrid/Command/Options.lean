import BunnyGrid.Number.Decimal
import BunnyGrid.Text.Quoted

/-! The options of the command line: which there are, how their spellings may be shortened, and
what is wrong with an argument that is none. -/
namespace BunnyGrid.Command

inductive Flag
  | help
  | demo
  | map
  | program
  | program2
  | sample
  | step
  | replay
  | stepLimit
  | output
  | plot
  | summary
  | verbose
  deriving DecidableEq

namespace Flag

/-- Every spelling, in the order in which ambiguous ones are listed. -/
def spellings : List (String × Flag) :=
  [ ("-h", help), ("--help", help), ("--demo", demo), ("--map", map), ("--program", program),
    ("--program2", program2), ("--sample", sample), ("--step", step), ("--replay", replay),
    ("--step-limit", stepLimit), ("--output", output), ("--plot", plot), ("--summary", summary),
    ("-v", verbose), ("--verbose", verbose) ]

def takesValue : Flag → Bool
  | help | demo | step | replay | verbose => false
  | _ => true

/-- How errors name an option: by all its spellings. -/
def shown (f : Flag) : String :=
  "/".intercalate ((spellings.filter (·.2 = f)).map (·.1))

end Flag

/-- The sample programs that can be chosen, in alphabetical order. -/
def sampleNames : List String := ["repeat", "runaway", "straight", "while_y", "zigzag"]

inductive UsageError
  | ambiguous (spelled : String) (candidates : List String)
  | ignoredValue (flag : Flag) (value : String)
  | noValue (flag : Flag)
  | noSample (value : String)
  | noNumber (flag : Flag) (value : String)
  | unrecognized (words : List String)

namespace UsageError

def message : UsageError → String
  | ambiguous spelled candidates =>
    let matching := ", ".intercalate candidates
    s!"ambiguous option: {spelled} could match {matching}"
  | ignoredValue flag value =>
    s!"argument {flag.shown}: ignored explicit argument {Text.quoted value}"
  | noValue flag => s!"argument {flag.shown}: expected one argument"
  | noSample value =>
    let choices := ", ".intercalate (sampleNames.map Text.quoted)
    s!"argument --sample: invalid choice: {Text.quoted value} (choose from {choices})"
  | noNumber flag value => s!"argument {flag.shown}: invalid int value: {Text.quoted value}"
  | unrecognized words => "unrecognized arguments: " ++ " ".intercalate words

end UsageError

/-- A value written in the same word as its option: after an equals sign, or joined to a single
letter. -/
structure Attached where
  afterEquals : Bool
  value : String

/-- What a word of the command line is. -/
inductive Word
  /-- Two hyphens; no option comes after them. -/
  | dashes
  | plain
  | unknown
  | option (flag : Flag) (spelled : String) (attached : Option Attached)

namespace Word

/-- A text up to its first equals sign, and what comes after it, if there is one. -/
def splitEquals (s : String) : String × Option String :=
  match s.toList.span (· ≠ '=') with
  | (name, _ :: value) => (String.ofList name, some (String.ofList value))
  | (name, []) => (String.ofList name, none)

/-- The options that a word may stand for, if it is no full spelling: a long option may be cut
short, and a letter may have more joined to it. -/
def candidates (word : String) : List (String × Flag × Option Attached) :=
  match word.toList with
  | '-' :: '-' :: _ =>
    let (name, value) := splitEquals word
    (Flag.spellings.filter fun s => name.toList.isPrefixOf s.1.toList).map fun s =>
      (s.1, s.2, value.map fun v => ⟨true, v⟩)
  | cs =>
    let letter := String.ofList (cs.take 2)
    Flag.spellings.filterMap fun s =>
      if s.1 = letter then some (s.1, s.2, some ⟨false, String.ofList (cs.drop 2)⟩)
      else if cs.isPrefixOf s.1.toList then some (s.1, s.2, none)
      else none

/-- Whether a word is a negative number: digits, or a point and digits after optional digits. -/
def isNegativeNumber (word : String) : Bool :=
  match word.toList with
  | '-' :: cs =>
    let isDigit (c : Char) := (Text.digit? c).isSome
    match cs.span isDigit with
    | (ds, []) => !ds.isEmpty
    | (_, '.' :: ds) => !ds.isEmpty && ds.all isDigit
    | _ => false
  | _ => false

/-- What a word is on its own. -/
def ofText (word : String) : Except UsageError Word :=
  match word.toList with
  | '-' :: _ :: _ =>
    if word = "--" then .ok .dashes
    else
      match Flag.spellings.lookup word with
      | some flag => .ok (.option flag word none)
      | none =>
        let (name, value) := splitEquals word
        match Flag.spellings.lookup name, value with
        | some flag, some v => .ok (.option flag name (some ⟨true, v⟩))
        | _, _ =>
          match candidates word with
          | [(spelled, flag, attached)] => .ok (.option flag spelled attached)
          | [] =>
            .ok (if isNegativeNumber word || word.toList.contains ' ' then .plain else .unknown)
          | many => .error (.ambiguous word (many.map (·.1)))
  | _ => .ok .plain

/-- What each word is; after two hyphens all are plain. -/
def ofTexts : List String → Except UsageError (List (String × Word))
  | [] => .ok []
  | text :: rest => do
    match ← ofText text with
    | .dashes => .ok ((text, .dashes) :: rest.map ((·, .plain)))
    | word => .ok ((text, word) :: (← ofTexts rest))

end Word

structure Options where
  demo : Bool := false
  map : String := ""
  program : String := ""
  program2 : String := ""
  sample : Option String := none
  step : Bool := false
  replay : Bool := false
  stepLimit : Int := 1000
  output : String := ""
  plot : String := ""
  summary : String := ""
  verbose : Bool := false

/-- Why the options give nothing to run. -/
inductive Refusal
  | helpAsked
  | usage (e : UsageError)

namespace Options

/-- Take one option, with its value if it has one. -/
def take (o : Options) (flag : Flag) (value : String) : Except Refusal Options :=
  match flag with
  | .help => .error .helpAsked
  | .demo => .ok { o with demo := true }
  | .map => .ok { o with map := value }
  | .program => .ok { o with program := value }
  | .program2 => .ok { o with program2 := value }
  | .sample =>
    if sampleNames.contains value then .ok { o with sample := some value }
    else .error (.usage (.noSample value))
  | .step => .ok { o with step := true }
  | .replay => .ok { o with replay := true }
  | .stepLimit =>
    match Numeral.int? value with
    | some n => .ok { o with stepLimit := n }
    | none => .error (.usage (.noNumber .stepLimit value))
  | .output => .ok { o with output := value }
  | .plot => .ok { o with plot := value }
  | .summary => .ok { o with summary := value }
  | .verbose => .ok { o with verbose := true }

/-- The options that one word stands for: letters may be joined behind one hyphen. -/
structure Cluster where
  flags : List Flag
  /-- The value of the last option, if it is in the same word. -/
  value : Option String := none
  /-- What is left over, if it is no option. -/
  rest : List String := []

/-- Split the letters that are joined to an option without a value. -/
def cluster (flag : Flag) (single afterEquals : Bool) : List Char → Except UsageError Cluster
  | [] =>
    if flag.takesValue then .ok { flags := [flag], value := some "" }
    else .error (.ignoredValue flag "")
  | c :: cs =>
    let value := String.ofList (c :: cs)
    if flag.takesValue then .ok { flags := [flag], value := some value }
    else if !single || afterEquals || c = '-' then .error (.ignoredValue flag value)
    else
      match Flag.spellings.lookup (String.ofList ['-', c]), cs with
      | none, _ => .ok { flags := [flag], rest := [String.ofList ('-' :: c :: cs)] }
      | some next, [] => .ok { flags := [flag, next] }
      | some next, '=' :: v => do
        let after ← cluster next true true v
        .ok { after with flags := flag :: after.flags }
      | some next, cs => do
        let after ← cluster next true false cs
        .ok { after with flags := flag :: after.flags }

/-- The options of one word. -/
def clusterOf (flag : Flag) (spelled : String) : Option Attached → Except UsageError Cluster
  | none => .ok { flags := [flag] }
  | some a =>
    let single := spelled.toList.drop 1 |>.head?.any (· ≠ '-')
    cluster flag single a.afterEquals a.value.toList

/-- Take the words in order. `left` holds the words that were no options, the last one first. -/
def takeAll (o : Options) (left : List String) : List (String × Word) → Except Refusal Options
  | [] =>
    if left.isEmpty then .ok o else .error (.usage (.unrecognized left.reverse))
  | (_, .option flag spelled attached) :: rest => do
    let c ← (clusterOf flag spelled attached).mapError .usage
    let last := c.flags.getLast?.getD flag
    let left := c.rest ++ left
    let takeFlags (value : String) := c.flags.foldlM (fun o f => take o f value) o
    if last.takesValue && c.value.isNone then
      match rest with
      | (value, .plain) :: rest => takeAll (← takeFlags value) left rest
      | _ => .error (.usage (.noValue last))
    else takeAll (← takeFlags (c.value.getD "")) left rest
  | (text, _) :: rest => takeAll o (text :: left) rest

/-- The options that the words of a command line give. -/
def ofWords (words : List String) : Except Refusal Options := do
  let words ← (Word.ofTexts words).mapError .usage
  takeAll {} [] words

end Options
end BunnyGrid.Command
