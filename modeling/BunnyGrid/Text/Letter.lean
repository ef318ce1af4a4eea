/-! Letter case for matching keywords. Only characters whose other case is ASCII can make a
keyword, so every other character stands for itself. -/
namespace BunnyGrid.Text

/-- The capital form, which takes two or three letters for the Latin ligatures. -/
def capital (c : Char) : List Char :=
  match c with
  | 'ı' => ['I']
  | 'ſ' => ['S']
  | 'ß' => ['S', 'S']
  | 'ﬀ' => ['F', 'F']
  | 'ﬁ' => ['F', 'I']
  | 'ﬂ' => ['F', 'L']
  | 'ﬃ' => ['F', 'F', 'I']
  | 'ﬄ' => ['F', 'F', 'L']
  | 'ﬅ' => ['S', 'T']
  | 'ﬆ' => ['S', 'T']
  | c => [c.toUpper]

/-- The small form; the Kelvin sign is a capital K. -/
def small (c : Char) : Char := if c = '\u212a' then 'k' else c.toLower

/-- A keyword in capitals. -/
def capitals (s : String) : String := String.ofList (s.toList.flatMap capital)

/-- A keyword in small letters. -/
def smalls (s : String) : String := String.ofList (s.toList.map small)

end BunnyGrid.Text
