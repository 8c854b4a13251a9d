import Redact.Syntax.Node

/-! # Reading a source

A cursor stands in a source: it knows the characters still to come and how many bytes came before
them. Readers never fail. Where something is missing they note a fault and go on, so that a source
with mistakes still gets a tree. -/

namespace Redact.Syntax

/-- A place in a source: the characters to come, their number, the bytes before them, and the
number of faults so far. -/
structure Cursor where
  rest : List Char
  left : Nat
  pos : Nat := 0
  faults : Nat := 0

namespace Cursor

def ofText (cs : List Char) : Cursor := { rest := cs, left := cs.length }

/-- The place `n` characters further on. -/
def forward (c : Cursor) : Nat → Cursor
  | 0 => c
  | n + 1 =>
    match c.rest with
    | [] => c
    | x :: rest => forward { c with rest, left := c.left - 1, pos := c.pos + x.utf8Size } n

/-- The place behind the longest run of characters in `p`. -/
def forwardWhile (p : Char → Bool) (c : Cursor) : Cursor :=
  c.forward (c.rest.takeWhile p).length

end Cursor

abbrev Read := StateM Cursor

namespace Read

def peek? : Read (Option Char) := return (← get).rest.head?

def position : Read Nat := return (← get).pos

/-- The text to come starts with `s`. -/
def sees (s : String) : Read Bool := return s.toList.isPrefixOf (← get).rest

/-- The next character is in `p`. -/
def seesChar (p : Char → Bool) : Read Bool := return ((← get).rest.head?).any p

/-- Goes on by `n` characters. -/
def skip (n : Nat) : Read Unit := modify (·.forward n)

/-- Goes on behind the characters in `p`. -/
def skipWhile (p : Char → Bool) : Read Unit := modify (·.forwardWhile p)

/-- Reads `s` if it comes next. -/
def accept (s : String) : Read Bool := do
  if ← sees s then
    skip s.length
    return true
  else return false

def fault : Read Unit := modify fun c => { c with faults := c.faults + 1 }

def lookahead {α : Type} (r : Read α) : Read α := return (r.run (← get)).1

def attempt {α : Type} (r : Read α) (wanted : α → Cursor → Cursor → Bool) : Read (Option α) := do
  let before ← get
  let (a, after) := r.run before
  if wanted a before after then
    set after
    return some a
  else return none

/-- At most `fuel` rounds of a reader, as long as it wants another one and gets on. -/
def rounds (step : Read Bool) : Nat → Read Unit
  | 0 => return ()
  | fuel + 1 => do
    let before := (← get).left
    if ← step then
      if (← get).left < before then rounds step fuel

/-- Repeats a reader as long as it wants another round and gets on. -/
def loop (step : Read Bool) : Read Unit := do
  rounds step ((← get).left + 1)

/-- The rounds of `gather`, with what was brought before them, last first. -/
def gatherRounds {α : Type} (step : Read (Option (List α))) : Nat → List α → Read (List α)
  | 0, found => return found
  | fuel + 1, found => do
    let before := (← get).left
    match ← step with
    | none => return found
    | some items =>
      let found := items.reverseAux found
      if (← get).left < before then gatherRounds step fuel found else return found

/-- Repeats a reader as long as it brings something and gets on, and joins what it brings. -/
def gather {α : Type} (step : Read (Option (List α))) : Read (List α) := do
  return (← gatherRounds step ((← get).left + 1) []).reverse

/-- A node from `start` up to here. -/
def close (kind : String) (start : Nat) (children : List Node) : Read Node :=
  return .mk kind start (← position) children []

end Read

end Redact.Syntax
