/-! # Blank characters and trimming

A character is blank when Unicode gives it the property `White_Space` or it is one of the four
information separators U+001C to U+001F. Trimming takes characters of a class away from the ends
of a text and keeps everything between the first and the last character outside the class. -/

namespace Redact.Text

/-- The twenty-nine blank characters: controls that move the cursor, the information separators,
and the spaces and line ends of all scripts. -/
def isBlank (c : Char) : Bool :=
  let n := c.toNat
  (0x09 ≤ n && n ≤ 0x0D) || (0x1C ≤ n && n ≤ 0x20) || n == 0x85 || n == 0xA0 || n == 0x1680 ||
    (0x2000 ≤ n && n ≤ 0x200A) || n == 0x2028 || n == 0x2029 || n == 0x202F || n == 0x205F ||
    n == 0x3000

/-- The blank characters of ASCII that a number written in ASCII may be surrounded by. -/
def isAsciiBlank (c : Char) : Bool :=
  let n := c.toNat
  (0x09 ≤ n && n ≤ 0x0D) || n == 0x20

/-- `cs` without the members of the class `p` that it ends in. -/
def trimEnd {α : Type} (p : α → Bool) (cs : List α) : List α :=
  (cs.reverse.dropWhile p).reverse

/-- `cs` without the members of the class `p` at both ends. -/
def trimBoth {α : Type} (p : α → Bool) (cs : List α) : List α :=
  trimEnd p (cs.dropWhile p)

def trim (s : String) : String :=
  String.ofList (trimBoth isBlank s.toList)

end Redact.Text
