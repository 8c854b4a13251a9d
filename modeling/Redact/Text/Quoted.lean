import Redact.Text.Printable
import Redact.Text.Raw

/-! # Quoted text

A text or a byte string inside quotes, as a value that is part of a larger value is shown. The
quote is `'`, or `"` if the text has a `'` and no `"`. The quote and the backslash are escaped, and
so is what cannot be printed. -/

namespace Redact.Text

def singleQuote : Char := '\x27'

def doubleQuote : Char := '\x22'

/-- `n` in lowercase hexadecimal with `width` digits. -/
def hexDigits : Nat → Nat → List Char
  | 0, _ => []
  | width + 1, n => hexDigits width (n / 16) ++ [Nat.digitChar (n % 16)]

/-- The quote that a text with the characters `cs` is shown in. -/
def quoteFor (cs : List Char) : Char :=
  if cs.contains singleQuote && !cs.contains doubleQuote then doubleQuote else singleQuote

/-- A character inside the quote `q`. -/
def escapeChar (q c : Char) : List Char :=
  let n := c.toNat
  if c = q ∨ c = '\\' then ['\\', c]
  else if c = '\t' then ['\\', 't']
  else if c = '\n' then ['\\', 'n']
  else if c = '\r' then ['\\', 'r']
  else if isPrintable c then [c]
  else if n < 0x100 then ['\\', 'x'] ++ hexDigits 2 n
  else if n < 0x10000 then ['\\', 'u'] ++ hexDigits 4 n
  else ['\\', 'U'] ++ hexDigits 8 n

def escapeLetter (q : Char) : Letter → List Char
  | .char c => escapeChar q c
  | .lone s => ['\\', 'u'] ++ hexDigits 4 (Letter.lone s).code

def quoted (t : RawText) : List Char :=
  let q := quoteFor t.chars
  q :: t.flatMap (escapeLetter q) ++ [q]

/-- A byte inside the quote `q`: like a character, but only ASCII is shown as itself. -/
def escapeByte (q : Char) (b : UInt8) : List Char :=
  if b.toNat < 0x80 then escapeChar q (Char.ofNat b.toNat) else ['\\', 'x'] ++ hexDigits 2 b.toNat

/-- A byte string in quotes, with a `b` in front. -/
def quotedBytes (bytes : List UInt8) : List Char :=
  let q := quoteFor (bytes.map fun b => Char.ofNat b.toNat)
  'b' :: q :: bytes.flatMap (escapeByte q) ++ [q]

end Redact.Text
