import Redact.Text.Blank

/-! # Whole numbers in text

A whole number is written with the decimal digits of any script, an optional sign, single
underscores between digits and blanks around it. The information separators are no blanks here. -/

namespace Redact.Text

/-- The digit zero of each script; its digits follow it in order. -/
def digitZeros : List Nat := [
  0x30, 0x660, 0x6F0, 0x7C0, 0x966, 0x9E6, 0xA66, 0xAE6, 0xB66, 0xBE6, 0xC66, 0xCE6, 0xD66,
  0xDE6, 0xE50, 0xED0, 0xF20, 0x1040, 0x1090, 0x17E0, 0x1810, 0x1946, 0x19D0, 0x1A80, 0x1A90,
  0x1B50, 0x1BB0, 0x1C40, 0x1C50, 0xA620, 0xA8D0, 0xA900, 0xA9D0, 0xA9F0, 0xAA50, 0xABF0,
  0xFF10, 0x104A0, 0x10D30, 0x11066, 0x110F0, 0x11136, 0x111D0, 0x112F0, 0x11450, 0x114D0,
  0x11650, 0x116C0, 0x11730, 0x118E0, 0x11950, 0x11C50, 0x11D50, 0x11DA0, 0x16A60, 0x16AC0,
  0x16B50, 0x1D7CE, 0x1D7D8, 0x1D7E2, 0x1D7EC, 0x1D7F6, 0x1E140, 0x1E2F0, 0x1E950, 0x1FBF0
]

def digitValue? (c : Char) : Option Nat :=
  (digitZeros.find? fun z => z ≤ c.toNat && c.toNat < z + 10).map (c.toNat - ·)

def maxDigits : Nat := 4300

/-- What may surround a number: of ASCII only the blanks that are no information separators. -/
def isNumberBlank (c : Char) : Bool :=
  if c.toNat < 0x80 then isAsciiBlank c else isBlank c

/-- The digits of a number with single underscores between them: none at either end, no two in a
row, at least one digit. -/
def digitsOf? : List Char → Option (List Nat)
  | [] => none
  | [c] => (digitValue? c).map ([·])
  | c :: '_' :: rest => do
    let d ← digitValue? c
    let ds ← digitsOf? rest
    return d :: ds
  | c :: rest => do
    let d ← digitValue? c
    let ds ← digitsOf? rest
    return d :: ds

/-- The number with the decimal digits `ds`, most significant first. -/
def ofDigits (ds : List Nat) : Nat :=
  ds.foldl (fun n d => 10 * n + d) 0

def ofHex (ds : List Char) : Nat :=
  ds.foldl (fun n c =>
    16 * n + (if c.isDigit then c.toNat - 48 else if c.toNat < 97 then c.toNat - 55 else c.toNat - 87)) 0

def ofBase (base : Nat) (ds : List Char) : Nat := ds.foldl (fun n c => base * n + (c.toNat - 48)) 0

/-- The whole number that a text is, if it is one of at most `maxDigits` digits. -/
def wholeNumber? (s : String) : Option Int := do
  let (negative, digits) := match trimBoth isNumberBlank s.toList with
    | '-' :: rest => (true, rest)
    | '+' :: rest => (false, rest)
    | rest => (false, rest)
  let ds ← digitsOf? digits
  if ds.length ≤ maxDigits then
    return if negative then -(ofDigits ds : Int) else ofDigits ds
  else none

end Redact.Text
