import Redact.Number.Notation
import Redact.Text.Numeral
import Redact.Text.Quoted
import Redact.Value.Basic

/-! # Values as text

A text stands for itself; every other value has one written form. Inside a list, a tuple, a set or
a table, texts are quoted and days and times are written as the call that makes them. A whole
number of more than `Text.maxDigits` digits has no written form, nor has a value whose items are
nested deeper than there are levels to write them. -/

namespace Redact.Value

private def lit (s : String) : List Char := s.toList

def digits (n : Nat) : List Char := Nat.toDigits 10 n

/-- Why a value has no written form. -/
inductive Unwritten where
  | tooManyDigits
  | tooDeep
  deriving DecidableEq, Repr

def showInt (i : Int) : Except Unwritten (List Char) :=
  let ds := digits i.natAbs
  if ds.length ≤ Text.maxDigits then .ok (if i < 0 then '-' :: ds else ds) else .error .tooManyDigits

def commaList : List (List Char) → List Char
  | [] => []
  | [x] => x
  | x :: rest => x ++ ',' :: ' ' :: commaList rest

def showDate (d : Date) : List Char :=
  Binary64.padded 4 d.year ++ '-' :: Binary64.padded 2 d.month ++ '-' :: Binary64.padded 2 d.day

/-- Hour, minute and second, and six digits of a fraction unless it is zero. -/
def showTime (t : Time) : List Char :=
  Binary64.padded 2 t.hour ++ ':' :: Binary64.padded 2 t.minute ++ ':' :: Binary64.padded 2 t.second ++
    (if t.micros = 0 then [] else '.' :: Binary64.padded 6 t.micros)

/-- A distance from universal time in hours and minutes, and in seconds if there are any. -/
def showOffset (o : Int) : List Char :=
  let n := o.natAbs
  (if o < 0 then '-' else '+') :: Binary64.padded 2 (n / 3600) ++ ':' ::
    Binary64.padded 2 (n / 60 % 60) ++ (if n % 60 = 0 then [] else ':' :: Binary64.padded 2 (n % 60))

/-- The arguments that make a time: seconds and fraction only as far as they are needed. -/
def timeArguments (t : Time) : List (List Char) :=
  [digits t.hour, digits t.minute] ++
    (if t.second = 0 ∧ t.micros = 0 then [] else [digits t.second]) ++
    (if t.micros = 0 then [] else [digits t.micros])

def zoneCall (o : Int) : List Char :=
  if o = 0 then lit "datetime.timezone.utc"
  else
    let days := o.fdiv 86400
    let seconds := (o.fmod 86400).toNat
    let parts :=
      (if days = 0 then [] else [lit "days=" ++ (if days < 0 then ['-'] else []) ++ digits days.natAbs])
        ++ (if seconds = 0 then [] else [lit "seconds=" ++ digits seconds])
    lit "datetime.timezone(datetime.timedelta(" ++ commaList parts ++ lit "))"

def dateArguments (d : Date) : List (List Char) :=
  [digits d.year, digits d.month, digits d.day]

/-- The levels that a value takes without its items: the items of a set are listed first, and the zone
of a moment is a value with a distance in it. -/
def frames : Value → Nat
  | set (_ :: _) => 2
  | moment _ _ (some o) => if o = 0 then 2 else 3
  | _ => 1

/-- The written form of a value without items. -/
def showLeaf : Value → Except Unwritten (List Char)
  | bool b => .ok (lit (if b then "True" else "False"))
  | int i => showInt i
  | float x => .ok (x.render .settings)
  | text s => .ok (Text.quoted s)
  | bytes bs => .ok (Text.quotedBytes bs)
  | date d => .ok (lit "datetime.date(" ++ commaList (dateArguments d) ++ [')'])
  | time t => .ok (lit "datetime.time(" ++ commaList (timeArguments t) ++ [')'])
  | moment d t o =>
    let zone := match o with
      | none => []
      | some x => [lit "tzinfo=" ++ zoneCall x]
    .ok (lit "datetime.datetime(" ++ commaList (dateArguments d ++ timeArguments t ++ zone) ++ [')'])
  | _ => .ok (lit "None")

def parens (parts : List (List Char)) : List Char :=
  '(' :: commaList parts ++ (if parts.length = 1 then [',', ')'] else [')'])

def braces (parts : List (List Char)) : List Char := '\x7b' :: commaList parts ++ ['\x7d']

mutual

/-- The written form of a value inside another one, with so many levels left. -/
def showInner (levels : Nat) : Value → Except Unwritten (List Char)
  | list items =>
    if levels < frames (list items) then .error .tooDeep
    else (showAll (levels - frames (list items)) items).map fun parts => '[' :: commaList parts ++ [']']
  | tuple items =>
    if levels < frames (tuple items) then .error .tooDeep
    else (showAll (levels - frames (tuple items)) items).map parens
  | set items =>
    if levels < frames (set items) then .error .tooDeep
    else
      (showAll (levels - frames (set items)) items).map fun parts =>
        if parts.isEmpty then lit "set()" else braces parts
  | table entries =>
    if levels < frames (table entries) then .error .tooDeep
    else (showEntries (levels - frames (table entries)) entries).map braces
  | v => if levels < v.frames then .error .tooDeep else v.showLeaf

def showAll (levels : Nat) : List Value → Except Unwritten (List (List Char))
  | [] => .ok []
  | v :: rest => do
    let part ← showInner levels v
    let parts ← showAll levels rest
    return part :: parts

def showEntries (levels : Nat) : List (Value × Value) → Except Unwritten (List (List Char))
  | [] => .ok []
  | (k, v) :: rest => do
    let key ← showInner levels k
    let value ← showInner levels v
    let parts ← showEntries levels rest
    return (key ++ ':' :: ' ' :: value) :: parts

end

/-- The levels that a value takes that is written on its own: a text none, and days and times those of
the calls that write them. -/
def ownFrames : Value → Nat
  | text _ => 0
  | date _ | time _ | moment _ _ none => 2
  | moment _ _ (some _) => 3
  | v => v.frames

/-- The written form of a value, with so many levels for values inside each other. -/
def written (levels : Nat) (v : Value) : Except Unwritten RawText :=
  if levels < v.ownFrames then .error .tooDeep
  else
    match v with
    | text s => .ok s
    | date d => .ok (.ofList (showDate d))
    | time t => .ok (.ofList (showTime t))
    | moment d t o =>
      .ok (.ofList (showDate d ++ ' ' :: showTime t ++
        match o with
        | none => []
        | some x => showOffset x))
    | v => (showInner levels v).map .ofList

end Redact.Value
