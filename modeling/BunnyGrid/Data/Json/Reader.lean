import BunnyGrid.Data.Basic

/-! JSON text into data, with the place of the first fault. Beyond the standard, `NaN`, `Infinity`
and `-Infinity` are numbers. -/
namespace BunnyGrid.Json

/-- What is wrong with a text. -/
inductive Fault
  | byteOrderMark
  | noValue
  | noName
  | noColon
  | noComma
  | extraData
  | openString
  | controlCharacter
  | badEscape
  | badUnicodeEscape
  deriving DecidableEq

namespace Fault

def message : Fault → String
  | .byteOrderMark => "Unexpected UTF-8 BOM (decode using utf-8-sig)"
  | .noValue => "Expecting value"
  | .noName => "Expecting property name enclosed in double quotes"
  | .noColon => "Expecting ':' delimiter"
  | .noComma => "Expecting ',' delimiter"
  | .extraData => "Extra data"
  | .openString => "Unterminated string starting at"
  | .controlCharacter => "Invalid control character at"
  | .badEscape => "Invalid \\escape"
  | .badUnicodeEscape => "Invalid \\uXXXX escape"

end Fault

/-- A fault and its place: lines and columns count from one, the offset from zero. -/
structure Error where
  fault : Fault
  line : Nat
  column : Nat
  offset : Nat
  deriving DecidableEq

namespace Error

/-- The fault at an offset into a text. -/
def ofOffset (text : List Char) (fault : Fault) (offset : Nat) : Error :=
  let before := text.take offset
  { fault, offset
    line := before.count '\n' + 1
    column := (before.reverse.takeWhile (· ≠ '\n')).length + 1 }

def message (e : Error) : String :=
  s!"{e.fault.message}: line {e.line} column {e.column} (char {e.offset})"

end Error

/-- What a reading step gives, or a fault and the text left from its place on. -/
abbrev Reading := Except (Fault × List Char)

def isSpace (c : Char) : Bool := c = ' ' || c = '\t' || c = '\n' || c = '\r'

def skip (cs : List Char) : List Char := cs.dropWhile isSpace

def hexDigit? (c : Char) : Option Nat :=
  if '0' ≤ c ∧ c ≤ '9' then some (c.toNat - 48)
  else if 'a' ≤ c ∧ c ≤ 'f' then some (c.toNat - 87)
  else if 'A' ≤ c ∧ c ≤ 'F' then some (c.toNat - 55)
  else none

/-- The four hexadecimal digits in front. -/
def hex4? : List Char → Option Nat
  | a :: b :: c :: d :: _ => do
    let a ← hexDigit? a
    let b ← hexDigit? b
    let c ← hexDigit? c
    let d ← hexDigit? d
    some (((a * 16 + b) * 16 + c) * 16 + d)
  | _ => none

def isHighSurrogate (n : Nat) : Bool := 0xd800 ≤ n && n < 0xdc00

def isLowSurrogate (n : Nat) : Bool := 0xdc00 ≤ n && n < 0xe000

/-- A character by its number; half a surrogate pair is no character and is replaced. -/
def charOf (n : Nat) : Char := if isHighSurrogate n || isLowSurrogate n then '\ufffd' else .ofNat n

/-- The character that `\u` stands for, from the text after the `u`, and how many characters it
takes: two escapes in a row may be a surrogate pair. More text has to follow. -/
def unicodeEscape (cs : List Char) : Reading (Char × Nat) :=
  let fault (drop : Nat) := .error (.badUnicodeEscape, cs.drop drop)
  if (cs.drop 4).isEmpty then fault 0 else
  match hex4? cs with
  | none => fault 0
  | some n =>
    match cs.drop 4 with
    | '\\' :: 'u' :: rest =>
      if isHighSurrogate n && !(rest.drop 4).isEmpty then
        match hex4? rest with
        | none => fault 6
        | some m =>
          if isLowSurrogate m then
            .ok (.ofNat (0x10000 + (n - 0xd800) * 0x400 + (m - 0xdc00)), 10)
          else .ok (charOf n, 4)
      else .ok (charOf n, 4)
    | _ => .ok (charOf n, 4)

def simpleEscape? : Char → Option Char
  | '"' => some '"'
  | '\\' => some '\\'
  | '/' => some '/'
  | 'b' => some '\x08'
  | 'f' => some '\x0c'
  | 'n' => some '\n'
  | 'r' => some '\r'
  | 't' => some '\t'
  | _ => none

/-- The rest of a string after its opening quote. `opening` is the text from that quote on, and
`done` the characters read so far, the last one first. -/
def stringBody (opening : List Char) : Nat → List Char → List Char → Reading (String × List Char)
  | 0, _, _ => .error (.openString, opening)
  | _ + 1, _, [] => .error (.openString, opening)
  | n + 1, done, c :: cs =>
    if c = '"' then .ok (String.ofList done.reverse, cs)
    else if c = '\\' then
      match cs with
      | [] => .error (.openString, opening)
      | 'u' :: after =>
        match unicodeEscape after with
        | .error (fault, place) => .error (fault, 'u' :: place)
        | .ok (u, taken) => stringBody opening n (u :: done) (after.drop taken)
      | e :: after =>
        match simpleEscape? e with
        | none => .error (.badEscape, c :: cs)
        | some u => stringBody opening n (u :: done) after
    else if c.toNat ≤ 0x1f then .error (.controlCharacter, c :: cs)
    else stringBody opening n (c :: done) cs

/-- A string whose opening quote is in front. -/
def string (opening : List Char) : Reading (String × List Char) :=
  stringBody opening (opening.length + 1) [] (opening.drop 1)

def isDigit (c : Char) : Bool := '0' ≤ c && c ≤ '9'

/-- The whole part in front: a zero, or digits that do not start with one. -/
def wholePart? : List Char → Option (List Char × List Char)
  | '0' :: cs => some (['0'], cs)
  | c :: cs => if isDigit c then some ((c :: cs).span isDigit) else none
  | [] => none

/-- The fraction in front: a point and at least one digit. -/
def fractionPart : List Char → List Char × List Char
  | '.' :: c :: cs =>
    if isDigit c then
      let (ds, rest) := (c :: cs).span isDigit
      ('.' :: ds, rest)
    else ([], '.' :: c :: cs)
  | cs => ([], cs)

/-- The exponent in front: a letter, an optional sign and at least one digit. -/
def exponentPart (cs : List Char) : List Char × List Char :=
  match cs with
  | e :: after =>
    if e = 'e' ∨ e = 'E' then
      let (sign, after) :=
        match after with
        | '+' :: r => (['+'], r)
        | '-' :: r => (['-'], r)
        | r => ([], r)
      let (ds, rest) := after.span isDigit
      if ds.isEmpty then ([], cs) else (e :: sign ++ ds, rest)
    else ([], cs)
  | [] => ([], [])

/-- A number: whole unless it has a fraction or an exponent. -/
def number (cs : List Char) : Reading (Number × List Char) :=
  let (sign, after) :=
    match cs with
    | '-' :: r => (['-'], r)
    | r => ([], r)
  match wholePart? after with
  | none => .error (.noValue, cs)
  | some (whole, after) =>
    let (places, after) := fractionPart after
    let (exponent, after) := exponentPart after
    let text := String.ofList (sign ++ whole ++ places ++ exponent)
    if places.isEmpty && exponent.isEmpty then .ok (.int ((Numeral.int? text).getD 0), after)
    else .ok (.double ((Numeral.double? text).getD .nan), after)

/-- The names that stand for values. -/
def words : List (List Char × Data) :=
  [ ("null".toList, .null), ("true".toList, .bool true), ("false".toList, .bool false),
    ("NaN".toList, .scalar (.number (.double .nan))),
    ("Infinity".toList, .scalar (.number (.double (.infinity false)))),
    ("-Infinity".toList, .scalar (.number (.double (.infinity true)))) ]

mutual

/-- A value at the very front of the text; the count bounds the nesting. -/
def value : Nat → List Char → Reading (Data × List Char)
  | 0, cs => .error (.noValue, cs)
  | n + 1, cs =>
    match cs with
    | '"' :: _ => (string cs).map fun (s, rest) => (.text s, rest)
    | '[' :: after =>
      match skip after with
      | ']' :: rest => .ok (.list [], rest)
      | rest => (items n rest).map fun (ds, rest) => (.list ds, rest)
    | '\x7b' :: after =>
      match skip after with
      | '\x7d' :: rest => .ok (.record [], rest)
      | rest => (fields n [] rest).map fun (fs, rest) => (.record fs, rest)
    | _ =>
      match words.find? fun w => w.1.isPrefixOf cs with
      | some (word, d) => .ok (d, cs.drop word.length)
      | none => (number cs).map fun (x, rest) => (.scalar (.number x), rest)

/-- The values of a list up to its closing bracket. -/
def items : Nat → List Char → Reading (List Data × List Char)
  | 0, cs => .error (.noValue, cs)
  | n + 1, cs => do
    let (d, rest) ← value n cs
    match skip rest with
    | ']' :: rest => .ok ([d], rest)
    | ',' :: rest =>
      let (ds, rest) ← items n (skip rest)
      .ok (d :: ds, rest)
    | rest => .error (.noComma, rest)

/-- The fields of a record up to its closing brace, after those in `done`. A name that comes again
keeps its first place and takes the last value. -/
def fields : Nat → List (String × Data) → List Char → Reading (List (String × Data) × List Char)
  | 0, _, cs => .error (.noName, cs)
  | n + 1, done, cs =>
    match cs with
    | '"' :: _ => do
      let (name, rest) ← string cs
      match skip rest with
      | ':' :: rest =>
        let (d, rest) ← value n (skip rest)
        let done := Data.setField name d done
        match skip rest with
        | '\x7d' :: rest => .ok (done, rest)
        | ',' :: rest => fields n done (skip rest)
        | rest => .error (.noComma, rest)
      | rest => .error (.noColon, rest)
    | _ => .error (.noName, cs)

end

/-- The one value of a text, blanks around it. -/
def ofChars (cs : List Char) : Reading Data :=
  match cs with
  | '\ufeff' :: _ => .error (.byteOrderMark, cs)
  | _ => do
    let (d, rest) ← value (cs.length + 1) (skip cs)
    match skip rest with
    | [] => .ok d
    | rest => .error (.extraData, rest)

/-- The data that a JSON text writes. -/
def read (text : String) : Except Error Data :=
  let cs := text.toList
  (ofChars cs).mapError fun (fault, place) => .ofOffset cs fault (cs.length - place.length)

end BunnyGrid.Json
