import Redact.Yaml.Token

/-! # Scanning YAML

A scanner goes over a text with its place in it. The basic steps: looking ahead, going forward, and
the kinds of characters that end things. -/

namespace Redact.Yaml

/-- A place where a key may have begun that shows only by the `:` behind it: the number of its first
token, where it begins, and whether there must be a `:`. -/
structure KeyPlace where
  token : Nat
  required : Bool
  index : Nat
  line : Nat
  column : Nat
  deriving Repr

/-- A scanner: the text that is left, its place, the tokens found so far (last first), the columns
of the blocks under way (innermost first), the number of brackets that are open, the key places of
the bracket levels, and whether a key may begin here. -/
structure Scanner where
  rest : List Char
  index : Nat := 0
  line : Nat := 0
  column : Nat := 0
  tokens : List Token := []
  indents : List Nat := []
  level : Nat := 0
  keys : List (Nat × KeyPlace) := []
  keyAllowed : Bool := true

abbrev Scan := StateT Scanner Option

def isBreak (c : Char) : Bool := c = '\n' || c = '\u0085' || c = '\u2028' || c = '\u2029'

def endsLine : Option Char → Bool
  | none => true
  | some c => isBreak c

def endsWord (c : Option Char) : Bool := endsLine c || c = some ' '

def isGap (c : Option Char) : Bool := endsWord c || c = some '\t'

/-- The scanner behind the next character. A byte order mark takes no column. -/
def Scanner.step (s : Scanner) : Scanner :=
  match s.rest with
  | [] => s
  | c :: rest =>
    { s with
      rest
      index := s.index + 1
      line := if isBreak c then s.line + 1 else s.line
      column := if isBreak c then 0 else if c = '\uFEFF' then s.column else s.column + 1 }

/-- Goes forward by `n` characters. -/
def forward (n : Nat) : Scan Unit := modify fun s => n.repeat Scanner.step s

/-- The character `k` places ahead. -/
def peek (k : Nat := 0) : Scan (Option Char) := return (← get).rest[k]?

/-- Takes the longest run of characters in `p`. -/
def run (p : Char → Bool) : Scan (List Char) := do
  let cs := (← get).rest.takeWhile p
  forward cs.length
  return cs

def spaces : Scan Unit := do let _ ← run (· = ' ')

/-- A bound for the rounds that are left: every round takes a character. -/
def roundsLeft : Scan Nat := return (← get).rest.length + 1

/-- Takes the end of a line, as it counts in a text; nothing if there is none. -/
def lineBreak : Scan (List Char) := do
  match ← peek with
  | some c =>
    if isBreak c then
      forward 1
      return [if c = '\u0085' then '\n' else c]
    else return []
  | none => return []

def comment : Scan Unit := do
  if (← peek) = some '#' then let _ ← run fun c => !isBreak c

def emptyRest : Scan Unit := do
  spaces
  comment
  if endsLine (← peek) then let _ ← lineBreak
  else failure

def atDivider : Scan Bool := do
  let cs := (← get).rest
  return (cs.take 3 == "---".toList || cs.take 3 == "...".toList) && isGap cs[3]?

def isWord (c : Char) : Bool := c.isAlphanum || c = '-' || c = '_'

end Redact.Yaml
