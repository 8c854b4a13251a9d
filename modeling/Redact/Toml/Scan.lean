import Redact.Syntax.Digits
import Redact.Text.Numeral
import Redact.Value.Basic

/-! # Reading TOML

A scan takes a value from the front of a text, or fails. The strings and the keys of TOML are read
here. -/

namespace Redact.Toml

open Text (ofHex)

abbrev Scan := StateT (List Char) Option

def peek? : Scan (Option Char) := return (← get).head?

/-- The text starts with `s`. -/
def sees (s : String) : Scan Bool := return s.toList.isPrefixOf (← get)

/-- Drops `n` characters. -/
def skip (n : Nat) : Scan Unit := modify (·.drop n)

/-- Takes `s` from the front, or fails. -/
def expect (s : String) : Scan Unit := do
  if ← sees s then skip s.length else failure

/-- Takes `s` from the front if it is there. -/
def accept (s : String) : Scan Bool := do
  if ← sees s then
    skip s.length
    return true
  else return false

/-- Takes the longest run of characters in `p`. -/
def run (p : Char → Bool) : Scan (List Char) := do
  let cs := (← get).takeWhile p
  skip cs.length
  return cs

def isBlank (c : Char) : Bool := c = ' ' || c = '\t'

def blanks : Scan Unit := do let _ ← run isBlank

/-- A control character, which cannot stand in a text, except a tab; with `lines` also a line feed
is allowed. -/
def isControl (lines : Bool) (c : Char) : Bool :=
  (c.toNat < 0x20 || c.toNat = 0x7F) && c != '\t' && !(lines && c = '\n')

def comment : Scan Unit := do
  if ← accept "#" then
    let cs ← run (· != '\n')
    if cs.any (isControl false) then failure

/-- Drops blanks, line ends and comments; every round drops a line. -/
def emptyLines : Nat → Scan Unit
  | 0 => return ()
  | fuel + 1 => do
    let _ ← run fun c => isBlank c || c = '\n'
    if ← sees "#" then
      comment
      emptyLines fuel

def space : Scan Unit := do emptyLines ((← get).length + 1)

/-- The character that `n` hexadecimal digits in front stand for. -/
def hexChar (n : Nat) : Scan (List Char) := do
  let ds := (← get).take n
  let code := ofHex ds
  if ds.length = n && ds.all Syntax.isHex && (code < 0xD800 || (0xE000 ≤ code && code < 0x110000)) then
    skip n
    return [Char.ofNat code]
  else failure

/-- What an escape stands for, behind its backslash. In a text of several lines, a backslash at the
end of a line stands for nothing and takes all blanks behind it along. -/
def escape (lines : Bool) : Scan (List Char) := do
  match ← get with
  | [] => failure
  | c :: rest =>
    if lines && (isBlank c || c = '\n') then
      match (c :: rest).dropWhile isBlank with
      | [] => set ([] : List Char)
      | '\n' :: rest => set (rest.dropWhile fun c => isBlank c || c = '\n')
      | _ => failure
      return []
    else
      skip 1
      match c with
      | 'b' => return ['\x08']
      | 't' => return ['\t']
      | 'n' => return ['\n']
      | 'f' => return ['\x0c']
      | 'r' => return ['\r']
      | '\x22' => return ['\x22']
      | '\\' => return ['\\']
      | 'u' => hexChar 4
      | 'U' => hexChar 8
      | _ => failure

/-- The rest of a text with escapes up to its closing quote or quotes; every round takes a
character or an escape. `found` holds what was read, last first. -/
def basicRounds (lines : Bool) : Nat → List Char → Scan (List Char)
  | 0, _ => failure
  | fuel + 1, found => do
    if ← accept (if lines then "\"\"\"" else "\"") then return found.reverse
    match ← peek? with
    | none => failure
    | some '\\' =>
      skip 1
      let cs ← escape lines
      basicRounds lines fuel (cs.reverse ++ found)
    | some c =>
      if isControl lines c then failure
      skip 1
      basicRounds lines fuel (c :: found)

def basic (lines : Bool) : Scan (List Char) := do basicRounds lines ((← get).length + 1) []

def literalLength : List Char → Option Nat
  | [] => none
  | '\x27' :: '\x27' :: '\x27' :: _ => some 0
  | _ :: rest => (literalLength rest).map (· + 1)

def basicText : Scan (List Char) := do
  expect "\""
  basic false

def literalText : Scan (List Char) := do
  expect "\x27"
  let cs ← run fun c => c != '\x27' && !isControl false c
  expect "\x27"
  return cs

/-- The quotes that stand between the end of a text and its last three quotes: up to two. -/
def extraQuotes (q : Char) : Scan (List Char) := do
  let qs := ((← get).take 2).takeWhile (· = q)
  skip qs.length
  return qs

/-- A text of several lines in three double quotes. A line end right behind them does not count. -/
def basicLines : Scan (List Char) := do
  expect "\"\"\""
  let _ ← accept "\n"
  let cs ← basic true
  return cs ++ (← extraQuotes '\x22')

def literalLines : Scan (List Char) := do
  expect "\x27\x27\x27"
  let _ ← accept "\n"
  match literalLength (← get) with
  | none => failure
  | some n =>
    let cs := (← get).take n
    if cs.any (isControl true) then failure
    skip (n + 3)
    return cs ++ (← extraQuotes '\x27')

def isBare (c : Char) : Bool := c.isAlphanum || c = '-' || c = '_'

def keyPart : Scan String := do
  match ← peek? with
  | some '\x22' => return String.ofList (← basicText)
  | some '\x27' => return String.ofList (← literalText)
  | _ =>
    let cs ← run isBare
    if cs.isEmpty then failure
    return String.ofList cs

/-- The parts of a key behind the first one; every round takes one. -/
def keyRounds : Nat → List String → Scan (List String)
  | 0, found => return found
  | fuel + 1, found => do
    blanks
    if ← accept "." then
      blanks
      let part ← keyPart
      keyRounds fuel (found ++ [part])
    else return found

def key : Scan (List String) := do
  let first ← keyPart
  keyRounds ((← get).length + 1) [first]

end Redact.Toml
