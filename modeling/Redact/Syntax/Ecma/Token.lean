import Redact.Syntax.Cursor
import Redact.Syntax.Digits
import Redact.Text.Blank

/-! # Tokens of JavaScript and TypeScript

Blanks and comments, words, numbers, strings and regular expressions. The part of a string between
two escapes is a `string_fragment`. -/

namespace Redact.Syntax.Ecma

open Read

def isLineEnd (c : Char) : Bool := c = '\n' || c = '\u2028' || c = '\u2029'

def isSpace (c : Char) : Bool :=
  Text.isBlank c || c = '\uFEFF' || c = '\u2060' || c = '\u200B'

def isWordChar (c : Char) : Bool :=
  c.isAlphanum || c = '_' || c = '$' || c = '\\' || (0x80 ≤ c.toNat && !isSpace c)

def isWordStart (c : Char) : Bool := isWordChar c && !c.isDigit

def commentLength : List Char → Nat
  | '*' :: '/' :: _ => 2
  | _ :: rest => 1 + commentLength rest
  | [] => 0

/-- Skips blanks and comments, and says whether a line ended among them. -/
def blanks : Read Bool := do
  let before := (← get).rest
  let left := (← get).left
  loop do
    skipWhile isSpace
    if ← sees "//" then
      skipWhile fun c => !(isLineEnd c || c = '\r')
      return true
    else if ← sees "/*" then
      skip 2
      skip (commentLength (← get).rest)
      return true
    else return false
  return (before.take (left - (← get).left)).any isLineEnd

def next? : Read (Option Char) := do
  let _ ← blanks
  peek?

/-- The word that comes next behind blanks, empty if there is none. -/
def word : Read String := do
  let _ ← blanks
  if ← seesChar isWordStart then return String.ofList ((← get).rest.takeWhile isWordChar) else return ""

def acceptText (s : String) : Read Bool := do
  let _ ← blanks
  accept s

def acceptWord (w : String) : Read Bool := do
  if (← word) == w then
    skip w.length
    return true
  else return false

/-- One for the `n` of a big integer. -/
def bigLength : List Char → Nat
  | 'n' :: _ => 1
  | _ => 0

/-- The length of the number that a text starts with, zero if there is none. -/
def numberLength (cs : List Char) : Nat :=
  let based (p : Char → Bool) (rest : List Char) : Nat :=
    let n := digitRun p false false rest
    if n = 0 then 1 else 2 + n + bigLength (rest.drop n)
  match cs with
  | '0' :: 'x' :: rest | '0' :: 'X' :: rest => based isHex rest
  | '0' :: 'o' :: rest | '0' :: 'O' :: rest => based isOctal rest
  | '0' :: 'b' :: rest | '0' :: 'B' :: rest => based (fun c => c = '0' || c = '1') rest
  | cs =>
    let whole := digitRun Char.isDigit false false cs
    match cs.drop whole with
    | '.' :: rest =>
      let part := digitRun Char.isDigit false false rest
      if whole = 0 && part = 0 then 0 else whole + 1 + part + exponentLength false (rest.drop part)
    | rest => if whole = 0 then 0 else whole + exponentLength false rest + bigLength rest

def escapeLength : List Char → Nat
  | '\r' :: '\n' :: _ => 2
  | 'u' :: '\x7b' :: rest => 3 + (rest.takeWhile (· != '\x7d')).length
  | 'u' :: rest => 1 + ((rest.take 4).takeWhile isHex).length
  | 'x' :: rest => 1 + ((rest.take 2).takeWhile isHex).length
  | c :: rest =>
    if isOctal c then 1 + ((rest.take 2).takeWhile isOctal).length else 1
  | [] => 0

/-- Reads one part of a string: a run of characters that are not in `ends`, as a fragment, or an
escape; nothing at a character in `ends`. -/
def stringPart (ends : Char → Bool) : Read (Option (List Node)) := do
  match (← get).rest with
  | [] => return none
  | '\\' :: rest =>
    skip (1 + escapeLength rest)
    return some []
  | c :: _ =>
    if ends c then return none
    else
      let start ← position
      skipWhile fun c => !(c = '\\' || ends c)
      return some [← close "string_fragment" start []]

/-- Reads a string. One that is not closed ends with its line and is no string. -/
def string : Read Node := do
  let start ← position
  let quote := ((← peek?)).getD '\x22'
  skip 1
  let parts ← gather (stringPart fun c => c = quote || c = '\n' || c = '\r')
  if ← seesChar (· = quote) then
    skip 1
    close "string" start parts
  else
    fault
    close "broken" start []

/-- The length of the body of a regular expression with its last slash; zero if it is not closed on
its line. `inClass` holds between brackets. -/
def regexLength (inClass : Bool) : List Char → Nat
  | '\\' :: c :: rest =>
    if isLineEnd c then 0
    else
      let n := regexLength inClass rest
      if n = 0 then 0 else n + 2
  | '/' :: rest =>
    if inClass then
      let n := regexLength inClass rest
      if n = 0 then 0 else n + 1
    else 1
  | c :: rest =>
    if isLineEnd c then 0
    else
      let n := regexLength (if c = '[' then true else if c = ']' then false else inClass) rest
      if n = 0 then 0 else n + 1
  | [] => 0

/-- Reads a regular expression with its flags, or only a slash if it is not closed. -/
def regex : Read Node := do
  let start ← position
  skip 1
  let n := regexLength false (← get).rest
  if n = 0 then fault
  skip n
  if n != 0 then skipWhile Char.isAlpha
  close "regex" start []

end Redact.Syntax.Ecma
