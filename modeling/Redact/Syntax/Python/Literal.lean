import Redact.Syntax.Cursor
import Redact.Syntax.Digits

/-! # Literals of Python

The longest number and the longest operator that a text starts with, and the marks and the quotes
that a string starts with. -/

namespace Redact.Syntax.Python

/-- One if a letter of `letters` comes next. -/
def suffixLength (letters : List Char) : List Char → Nat
  | c :: _ => if letters.contains c then 1 else 0
  | [] => 0

/-- The kind and the length of a number in a base other than ten, behind its two-character mark. -/
def basedNumber (p : Char → Bool) (rest : List Char) : Option (String × Nat) :=
  let n := digitRun p true false rest
  if n = 0 then none else some ("integer", 2 + n + suffixLength ['L', 'l'] (rest.drop n))

def decimalNumber (cs : List Char) : Option (String × Nat) :=
  let whole := digitRun Char.isDigit false true cs
  let behind := cs.drop whole
  let float (n : Nat) : Option (String × Nat) :=
    some ("float", n + suffixLength ['J', 'j'] (cs.drop n))
  match behind with
  | '.' :: rest =>
    let part := digitRun Char.isDigit false true rest
    if whole = 0 && part = 0 then none
    else float (whole + 1 + part + exponentLength true (rest.drop part))
  | behind =>
    if whole = 0 then none
    else
      let e := exponentLength true behind
      if e = 0 then some ("integer", whole + suffixLength ['L', 'l', 'J', 'j'] behind)
      else float (whole + e)

/-- The kind and the length of the number that a text starts with. -/
def number? (cs : List Char) : Option (String × Nat) :=
  let based := match cs with
    | '0' :: 'x' :: rest | '0' :: 'X' :: rest => basedNumber isHex rest
    | '0' :: 'o' :: rest | '0' :: 'O' :: rest => basedNumber isOctal rest
    | '0' :: 'b' :: rest | '0' :: 'B' :: rest => basedNumber (fun c => c = '0' || c = '1') rest
    | _ => none
  based <|> decimalNumber cs

/-- How a string starts: the number of its marks, what they say, its quote, and whether the quote
is written three times. -/
structure Opening where
  marks : Nat
  raw : Bool
  format : Bool
  quote : Char
  triple : Bool

namespace Opening

def delimiter (o : Opening) : List Char := List.replicate (if o.triple then 3 else 1) o.quote

def length (o : Opening) : Nat := o.marks + o.delimiter.length

end Opening

def isMark (c : Char) : Bool :=
  ['r', 'R', 'b', 'B', 'u', 'U', 'f', 'F', 't', 'T'].contains c

def opening? (cs : List Char) : Option Opening :=
  let marks := cs.takeWhile isMark
  match cs.drop marks.length with
  | q :: rest =>
    if q = '\x27' || q = '\x22' then
      some {
        marks := marks.length
        raw := marks.any fun c => c = 'r' || c = 'R'
        format := marks.any ['f', 'F', 't', 'T'].contains
        quote := q
        triple := [q, q].isPrefixOf rest }
    else none
  | [] => none

/-- The operators of more than one character, longer ones first. -/
def operators : List String :=
  ["**=", "//=", ">>=", "<<=", "...", "==", "!=", "<=", ">=", "<>", "->", ":=", "+=", "-=", "*=",
    "/=", "%=", "&=", "|=", "^=", "@=", "**", "//", "<<", ">>"]

/-- The operators that put a new value in the place of an old one. -/
def updates : List String :=
  ["**=", "//=", ">>=", "<<=", "+=", "-=", "*=", "/=", "%=", "&=", "|=", "^=", "@="]

end Redact.Syntax.Python
