/-! White space and the characters that may surround a numeral. -/
namespace BunnyGrid.Text

/-- The four information separators, U+001C to U+001F. -/
def isSeparator (c : Char) : Bool := 0x1c ≤ c.toNat && c.toNat ≤ 0x1f

/-- White space, the information separators apart. -/
def isMargin (c : Char) : Bool :=
  let n := c.toNat
  (0x09 ≤ n && n ≤ 0x0d) || n == 0x20 || n == 0x85 || n == 0xa0 || n == 0x1680 ||
    (0x2000 ≤ n && n ≤ 0x200a) || n == 0x2028 || n == 0x2029 || n == 0x202f || n == 0x205f ||
    n == 0x3000

/-- White space of any kind. -/
def isBlank (c : Char) : Bool := isMargin c || isSeparator c

/-- Drop the characters of a class from both ends. -/
def trim (drop : Char → Bool) (cs : List Char) : List Char :=
  ((cs.dropWhile drop).reverse.dropWhile drop).reverse

end BunnyGrid.Text
