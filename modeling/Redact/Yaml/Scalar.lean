import Redact.Syntax.Digits
import Redact.Text.Numeral
import Redact.Yaml.Scan

/-! # Scalars of YAML

A scalar is a text: plain, in quotes, or a block of lines. Lines that follow each other are folded
into one, with a space for a single line end and with the line ends behind the first one kept,
except in a block that is taken as it is. -/

namespace Redact.Yaml

/-! ### Blocks of lines -/

/-- What happens to the line ends behind a block: all but the first are dropped, all are dropped, or
all are kept. -/
inductive Chomping where
  | clip
  | strip
  | keep
  deriving DecidableEq, Repr

def chompingOf? (c : Option Char) : Option Chomping :=
  if c = some '+' then some .keep else if c = some '-' then some .strip else none

/-- The number of columns that a block is indented by, from 1 to 9. -/
def increment : Scan (Option Nat) := do
  match ← peek with
  | some c =>
    if c.isDigit then
      if c = '0' then failure
      forward 1
      return some (c.toNat - 48)
    else return none
  | none => return none

/-- The way of chomping and the indentation behind the sign of a block, in any order. -/
def blockHeader : Scan (Chomping × Option Nat) := do
  match chompingOf? (← peek) with
  | some chomping =>
    forward 1
    return (chomping, ← increment)
  | none =>
    let columns ← increment
    match columns, chompingOf? (← peek) with
    | some n, some chomping =>
      forward 1
      return (chomping, some n)
    | columns, _ => return (.clip, columns)

/-- Drops spaces up to column `n`. -/
def spacesTo (n : Nat) : Scan Unit := do
  let s ← get
  forward ((s.rest.takeWhile (· = ' ')).take (n - s.column)).length

/-- The line ends in front of a block, and the greatest column that is reached by spaces before it;
every round takes a run of spaces or a line end. -/
def leadingRounds : Nat → List Char → Nat → Scan (List Char × Nat)
  | 0, breaks, column => return (breaks, column)
  | fuel + 1, breaks, column => do
    spaces
    let column := max column (← get).column
    let cs ← lineBreak
    if cs.isEmpty then return (breaks, column)
    leadingRounds fuel (breaks ++ cs) column

/-- The line ends from here to a line that has text in column `n` or does not reach it. -/
def breakRounds (n : Nat) : Nat → List Char → Scan (List Char)
  | 0, breaks => return breaks
  | fuel + 1, breaks => do
    spacesTo n
    let cs ← lineBreak
    if cs.isEmpty then return breaks
    breakRounds n fuel (breaks ++ cs)

/-- The lines of a block in column `n`: its text up to the end of the last line, that line end, and
the line ends behind it; every round takes a line. -/
def lineRounds (folded : Bool) (n : Nat) : Nat → List Char → Scan (List Char × List Char × List Char)
  | 0, breaks => return ([], [], breaks)
  | fuel + 1, breaks => do
    let isBlank (c : Option Char) : Bool := c = some ' ' || c = some '\t'
    let startsBlank := isBlank (← peek)
    let cs ← run fun c => !isBreak c
    let lineEnd ← lineBreak
    let more ← breakRounds n (← roundsLeft) []
    let next ← peek
    if (← get).column = n && next.isSome then
      let joint :=
        if folded && lineEnd == ['\n'] && !startsBlank && !isBlank next then
          (if more.isEmpty then [' '] else [])
        else lineEnd
      let (text, last, behind) ← lineRounds folded n fuel more
      return (breaks ++ cs ++ joint ++ text, last, behind)
    else return (breaks ++ cs, lineEnd, more)

/-- A block of lines. Without a number of columns in its header, its first line of text tells the
indentation; in either case it is further in than the block around it. -/
def blockScalar (folded : Bool) : Scan Token := do
  forward 1
  let (chomping, columns) ← blockHeader
  if !endsWord (← peek) then failure
  emptyRest
  let s ← get
  let least := match s.indents with
    | [] => 1
    | n :: _ => n + 1
  let (breaks, n) ← (match columns with
    | none => do
      let (breaks, column) ← leadingRounds (← roundsLeft) [] 0
      pure (breaks, max least column)
    | some k => do
      let n := least + k - 1
      let breaks ← breakRounds n (← roundsLeft) []
      pure (breaks, n) : Scan (List Char × Nat))
  let (text, last, behind) ←
    (if (← get).column = n && (← peek).isSome then do lineRounds folded n (← roundsLeft) breaks
    else pure ([], [], breaks) : Scan (List Char × List Char × List Char))
  let ending := match chomping with
    | .clip => last
    | .strip => []
    | .keep => last ++ behind
  return .scalar (String.ofList (text ++ ending)) false

/-! ### Quoted scalars -/

/-- The line ends from the beginning of a line to the next character that is no blank. A divider of
documents may not stand at the beginning of a line. -/
def quotedBreaks : Nat → Scan (List Char)
  | 0 => return []
  | fuel + 1 => do
    if ← atDivider then failure
    let _ ← run fun c => c = ' ' || c = '\t'
    let cs ← lineBreak
    if cs.isEmpty then return []
    return cs ++ (← quotedBreaks fuel)

def shortEscapes : List (Char × Char) :=
  [('0', '\x00'), ('a', '\x07'), ('b', '\x08'), ('t', '\t'), ('\t', '\t'), ('n', '\n'), ('v', '\x0b'),
    ('f', '\x0c'), ('r', '\r'), ('e', '\x1b'), (' ', ' '), ('\x22', '\x22'), ('\\', '\\'), ('/', '/'),
    ('N', '\u0085'), ('_', '\u00a0'), ('L', '\u2028'), ('P', '\u2029')]

/-- The value of `n` hexadecimal digits. -/
def hexDigits (n : Nat) : Scan Nat := do
  let ds := (← get).rest.take n
  if ds.length = n && ds.all Syntax.isHex then
    forward n
    return Text.ofHex ds
  else failure

/-- The character of a code. The two halves of a surrogate pair are one character. -/
def codeChar (code : Nat) : Scan (List Char) := do
  if 0x110000 ≤ code then failure
  if 0xD800 ≤ code && code < 0xDC00 then
    match (← get).rest with
    | '\\' :: 'u' :: rest =>
      let ds := rest.take 4
      let low := Text.ofHex ds
      if ds.length = 4 && ds.all Syntax.isHex && 0xDC00 ≤ low && low < 0xE000 then
        forward 6
        return [Char.ofNat (0x10000 + (code - 0xD800) * 1024 + (low - 0xDC00))]
      else return ['\uFFFD']
    | _ => return ['\uFFFD']
  else if 0xDC00 ≤ code && code < 0xE000 then return ['\uFFFD']
  else return [Char.ofNat code]

/-- What an escape stands for, behind its backslash. The end of a line stands for nothing. -/
def escape : Scan (List Char) := do
  match ← peek with
  | none => failure
  | some c =>
    match shortEscapes.lookup c with
    | some d =>
      forward 1
      return [d]
    | none =>
      let wide (n : Nat) : Scan (List Char) := do
        forward 1
        codeChar (← hexDigits n)
      if c = 'x' then wide 2
      else if c = 'u' then wide 4
      else if c = 'U' then wide 8
      else if isBreak c then
        let _ ← lineBreak
        quotedBreaks (← roundsLeft)
      else failure

/-- The characters up to a blank, the end of a line or the closing quote. A quote in single quotes
is written twice; escapes stand in double quotes only. -/
def quotedWord (double : Bool) : Nat → Scan (List Char)
  | 0 => return []
  | fuel + 1 => do
    let cs ← run fun c => !isGap (some c) && c != '\x27' && c != '\x22' && c != '\\'
    let s ← get
    match s.rest with
    | [] => return cs
    | c :: rest =>
      if !double && c = '\x27' && rest.head? = some '\x27' then
        forward 2
        return cs ++ '\x27' :: (← quotedWord double fuel)
      else if (double && c = '\x27') || (!double && (c = '\x22' || c = '\\')) then
        forward 1
        return cs ++ c :: (← quotedWord double fuel)
      else if double && c = '\\' then
        forward 1
        let e ← escape
        return cs ++ e ++ (← quotedWord double fuel)
      else return cs

/-- The blanks between two words: as they are on one line, folded if there are line ends. -/
def quotedBlanks : Scan (List Char) := do
  let blanks ← run fun c => c = ' ' || c = '\t'
  if (← peek).isNone then failure
  let lineEnd ← lineBreak
  if lineEnd.isEmpty then return blanks
  let breaks ← quotedBreaks (← roundsLeft)
  return (if lineEnd != ['\n'] then lineEnd else if breaks.isEmpty then [' '] else []) ++ breaks

/-- The words of a quoted scalar up to its closing quote; every round takes a word. -/
def quotedRounds (double : Bool) : Nat → Scan (List Char)
  | 0 => failure
  | fuel + 1 => do
    let cs ← quotedWord double (← roundsLeft)
    if (← peek) = some (if double then '\x22' else '\x27') then return cs
    let blanks ← quotedBlanks
    return cs ++ blanks ++ (← quotedRounds double fuel)

def quotedScalar (double : Bool) : Scan Token := do
  forward 1
  let cs ← quotedRounds double (← roundsLeft)
  forward 1
  return .scalar (String.ofList cs) false

/-! ### Plain scalars -/

/-- The length of a run of characters of a plain scalar. In brackets, more characters end it. -/
def plainLength (inside : Bool) : List Char → Nat
  | [] => 0
  | c :: rest =>
    let ends (d : Option Char) : Bool := isGap d || (inside && d.any ",[]\x7b\x7d".toList.contains)
    if isGap (some c) || (c = ':' && ends rest.head?) || (inside && ",?[]\x7b\x7d".toList.contains c) then 0
    else plainLength inside rest + 1

/-- The line ends behind the first one; `none` if a divider of documents follows one. -/
def plainBreaks : Nat → Scan (Option (List Char))
  | 0 => return some []
  | fuel + 1 => do
    if ← atDivider then return none
    spaces
    let cs ← lineBreak
    if cs.isEmpty then return some []
    return (← plainBreaks fuel).map (cs ++ ·)

/-- The blanks behind a run of a plain scalar, as they count if it goes on; `none` if there are none
or it cannot go on. Behind a line end a key may begin. -/
def plainBlanks : Scan (Option (List Char)) := do
  let blanks ← run (· = ' ')
  let lineEnd ← lineBreak
  if lineEnd.isEmpty then return if blanks.isEmpty then none else some blanks
  modify fun s => { s with keyAllowed := true }
  let breaks ← plainBreaks (← roundsLeft)
  return breaks.map fun breaks =>
    (if lineEnd != ['\n'] then lineEnd else if breaks.isEmpty then [' '] else []) ++ breaks

/-- The runs of a plain scalar behind `blanks`, as far as they are no further out than column
`least`; every round takes a run. -/
def plainRounds (least : Nat) : Nat → List Char → Scan (List Char)
  | 0, _ => return []
  | fuel + 1, blanks => do
    let s ← get
    let n := if s.rest.head? = some '#' then 0 else plainLength (0 < s.level) s.rest
    if n = 0 then return []
    set { s with keyAllowed := false }
    forward n
    let cs := blanks ++ s.rest.take n
    match ← plainBlanks with
    | none => return cs
    | some more =>
      let s ← get
      if s.rest.head? = some '#' || (s.level = 0 && s.column < least) then return cs
      return cs ++ (← plainRounds least fuel more)

def plainScalar : Scan Token := do
  let s ← get
  let least := match s.indents with
    | [] => 0
    | n :: _ => n + 1
  return .scalar (String.ofList (← plainRounds least (← roundsLeft) [])) true

end Redact.Yaml
