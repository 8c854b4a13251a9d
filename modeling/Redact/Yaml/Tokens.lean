import Redact.Yaml.Scalar
import Redact.Yaml.Word

/-! # The tokens of a text

Tokens are found from left to right. A key that is not marked as one shows only by the `:` behind
it; it must be on one line and not too long, and the tokens for it, and for the block that it
begins, are put in where it began. -/

namespace Redact.Yaml

def maxKeyLength : Nat := 1024

def emit (t : Token) : Scan Unit := modify fun s => { s with tokens := t :: s.tokens }

/-- Puts tokens in front of token number `n`. -/
def insertAt (n : Nat) (ts : List Token) : Scan Unit :=
  modify fun s =>
    let behind := s.tokens.length - n
    { s with tokens := s.tokens.take behind ++ ts.reverse ++ s.tokens.drop behind }

def allowKey (allowed : Bool) : Scan Unit := modify fun s => { s with keyAllowed := allowed }

/-- Drops the key places that can no longer be keys. It is an error if one of them had to be one. -/
def dropStaleKeys : Scan Unit := do
  let s ← get
  let (live, stale) := s.keys.partition fun (_, k) => k.line = s.line && s.index - k.index ≤ maxKeyLength
  if stale.any (·.2.required) then failure
  set { s with keys := live }

/-- Drops the key place of this level. It is an error if it had to be a key. -/
def dropKey : Scan Unit := do
  let s ← get
  if ((s.keys.lookup s.level).map (·.required)).getD false then failure
  set { s with keys := s.keys.filter (·.1 != s.level) }

/-- Notes that a key may begin here. It must be one if it stands in the column of a block. -/
def noteKey : Scan Unit := do
  if (← get).keyAllowed then
    dropKey
    modify fun s =>
      let required := s.level = 0 && s.indents.head? = some s.column
      { s with keys := (s.level, ⟨s.tokens.length, required, s.index, s.line, s.column⟩) :: s.keys }

/-- Ends the blocks that are further in than column `n`, or all blocks. Inside brackets, columns mean
nothing. -/
def unwind (n : Option Nat) : Scan Unit :=
  modify fun s =>
    if s.level != 0 then s
    else
      let ended := s.indents.takeWhile fun i => n.all (· < i)
      { s with
        indents := s.indents.drop ended.length
        tokens := List.replicate ended.length Token.blockEnd ++ s.tokens }

/-- Begins a block in column `n` unless there is one that is as far in. -/
def indentTo (n : Nat) : Scan Bool := do
  let s ← get
  if s.indents.head?.all (· < n) then
    set { s with indents := n :: s.indents }
    return true
  else return false

/-- Goes to the next token, over blanks, comments and line ends; every round takes a line. -/
def gapRounds : Nat → Scan Unit
  | 0 => return ()
  | fuel + 1 => do
    spaces
    comment
    let cs ← lineBreak
    if !cs.isEmpty then
      if (← get).level = 0 then allowKey true
      gapRounds fuel

/-- A token of `n` characters that ends a key place. -/
def mark (t : Token) (n : Nat) : Scan Unit := do
  dropKey
  forward n
  emit t

def divide (t : Scan Token) : Scan Unit := do
  unwind none
  dropKey
  allowKey false
  emit (← t)

def keyToken (t : Scan Token) : Scan Unit := do
  noteKey
  allowKey false
  emit (← t)

def openBracket (t : Token) : Scan Unit := do
  noteKey
  modify fun s => { s with level := s.level + 1, keyAllowed := true }
  forward 1
  emit t

def closeBracket (t : Token) : Scan Unit := do
  dropKey
  let s ← get
  if s.level = 0 then failure
  set { s with level := s.level - 1, keyAllowed := false }
  forward 1
  emit t

/-- Begins a block for a token of one character, unless inside brackets. -/
def blockFor (t : Token) : Scan Unit := do
  let s ← get
  if s.level = 0 then
    if !s.keyAllowed then failure
    if ← indentTo s.column then emit t

/-- The `-` of an item. -/
def itemToken : Scan Unit := do
  blockFor .blockList
  allowKey true
  mark .item 1

/-- The `?` of a marked key. -/
def markedKey : Scan Unit := do
  blockFor .blockTable
  allowKey ((← get).level = 0)
  mark .key 1

/-- The `:` of a value, which makes a key of the key place of its level, if there is one. -/
def valueToken : Scan Unit := do
  let s ← get
  match s.keys.lookup s.level with
  | some k =>
    set { s with keys := s.keys.filter (·.1 != s.level) }
    let begins ← if s.level = 0 then indentTo k.column else pure false
    insertAt k.token (if begins then [.blockTable, .key] else [.key])
    allowKey false
    forward 1
    emit .value
  | none =>
    blockFor .blockTable
    allowKey (s.level = 0)
    mark .value 1

def indicators : List Char := "-?:,[]\x7b\x7d#&*!|>\x27\x22%@\x60".toList

/-- A plain scalar begins with `c` in front of `next`. -/
def startsPlain (inside : Bool) (c : Char) (next : Option Char) : Bool :=
  !(isGap (some c) || indicators.contains c) ||
    (!isGap next && (c = '-' || (!inside && (c = '?' || c = ':'))))

def token : Scan Bool := do
  let start ← get
  if start.index = 0 && start.rest.head? = some '\uFEFF' then forward 1
  gapRounds (← roundsLeft)
  dropStaleKeys
  unwind (some (← get).column)
  let s ← get
  let inside := s.level != 0
  match s.rest with
  | [] =>
    unwind none
    dropKey
    return false
  | c :: rest =>
    let next := rest.head?
    let atStart := s.column = 0
    if c = '%' && atStart then divide directive
    else if atStart && (← atDivider) then
      divide do
        forward 3
        return if c = '-' then .documentStart else .documentEnd
    else if c = '[' then openBracket .listOpen
    else if c = '\x7b' then openBracket .tableOpen
    else if c = ']' then closeBracket .listClose
    else if c = '\x7d' then closeBracket .tableClose
    else if c = ',' then
      allowKey true
      mark .comma 1
    else if c = '-' && isGap next then itemToken
    else if c = '?' && (inside || isGap next) then markedKey
    else if c = ':' && (inside || isGap next) then valueToken
    else if c = '*' then keyToken (.alias <$> anchorName)
    else if c = '&' then keyToken (.anchor <$> anchorName)
    else if c = '!' then keyToken (.tag <$> tagName)
    else if (c = '|' || c = '>') && !inside then
      allowKey true
      dropKey
      emit (← blockScalar (c = '>'))
    else if c = '\x27' || c = '\x22' then keyToken (quotedScalar (c = '\x22'))
    else if startsPlain inside c next then keyToken plainScalar
    else failure
    return true

/-- All tokens; every round takes one. -/
def tokenRounds : Nat → Scan Unit
  | 0 => failure
  | fuel + 1 => do if ← token then tokenRounds fuel

/-- A text with line feeds as its only carriage control: a carriage return, with or without a line
feed behind it, reads as a line feed. -/
def unifyLineEnds : List Char → List Char
  | '\r' :: '\n' :: rest => '\n' :: unifyLineEnds rest
  | '\r' :: rest => '\n' :: unifyLineEnds rest
  | c :: rest => c :: unifyLineEnds rest
  | [] => []

def isAllowed (c : Char) : Bool :=
  let n := c.toNat
  n = 0x9 || n = 0xA || n = 0xD || (0x20 ≤ n && n ≤ 0x7E) || n = 0x85 ||
    (0xA0 ≤ n && n ≤ 0xFFFD) || 0x10000 ≤ n

def Token.ofText? (cs : List Char) : Option (List Token) :=
  let cs := unifyLineEnds cs
  if cs.all isAllowed then
    ((tokenRounds (cs.length + 2)).run { rest := cs }).map (·.2.tokens.reverse)
  else none

end Redact.Yaml
