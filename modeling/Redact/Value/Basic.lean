import Redact.Number.Binary64
import Redact.Text.Raw

/-! # Values of settings documents

What a settings document holds: the values that a TOML, YAML or JSON document can have. Tables keep
the order of their entries, and no two keys of a table are equal. -/

namespace Redact

structure Date where
  year : Nat
  month : Nat
  day : Nat
  deriving DecidableEq, Repr

structure Time where
  hour : Nat
  minute : Nat
  second : Nat
  micros : Nat
  deriving DecidableEq, Repr

/-- A value of a settings document. A `moment` is a day and a time with an optional distance from
universal time in seconds. -/
inductive Value where
  | null
  | bool (b : Bool)
  | int (i : Int)
  | float (x : Binary64)
  | text (s : RawText)
  | bytes (bs : List UInt8)
  | date (d : Date)
  | time (t : Time)
  | moment (d : Date) (t : Time) (offset : Option Int)
  | list (items : List Value)
  | tuple (items : List Value)
  | set (items : List Value)
  | table (entries : List (Value × Value))

abbrev Entries := List (Value × Value)

namespace Value

/-- A value counts as true unless it is nothing, false, zero or empty. -/
def truthy : Value → Bool
  | null => false
  | bool b => b
  | int i => i != 0
  | float x => !x.isZero
  | text s => !s.isEmpty
  | bytes bs => !bs.isEmpty
  | date _ | time _ | moment _ _ _ => true
  | list items | tuple items | set items => !items.isEmpty
  | table entries => !entries.isEmpty

/-- The number that a value is, if it is a number or a truth value. -/
def number? : Value → Option (Int ⊕ Binary64)
  | bool b => some (.inl (if b then 1 else 0))
  | int i => some (.inl i)
  | float x => some (match x.whole? with | some i => .inl i | none => .inr x)
  | _ => none

/-- Two moments are the same: the same day and time if neither has an offset, the same instant if
both have one. -/
def sameMoment (d : Date) (t : Time) (o : Option Int) (d' : Date) (t' : Time) (o' : Option Int) :
    Bool :=
  match o, o' with
  | none, none => d == d' && t == t'
  | some x, some y =>
    let seconds (d : Date) (t : Time) (x : Int) : Int :=
      let y := d.year - (if d.month ≤ 2 then 1 else 0 : Nat)
      let m := (d.month + 9) % 12
      let days := 365 * y + y / 4 - y / 100 + y / 400 + (m * 306 + 5) / 10 + d.day
      ((days * 24 + t.hour) * 60 + t.minute) * 60 + t.second - x
    seconds d t x == seconds d' t' y && t.micros == t'.micros
  | _, _ => false

mutual

/-- Equality of keys: numbers and truth values by their numeric value, everything else by kind
and content. -/
def sameKey : Value → Value → Bool
  | null, null => true
  | text s, text s' => s == s'
  | bytes b, bytes b' => b == b'
  | date d, date d' => d == d'
  | time t, time t' => t == t'
  | moment d t o, moment d' t' o' => sameMoment d t o d' t' o'
  | tuple xs, tuple ys => sameKeys xs ys
  | v, w =>
    match v.number?, w.number? with
    | some (.inl i), some (.inl j) => i == j
    | some (.inr x), some (.inr y) => x.same y
    | _, _ => false

def sameKeys : List Value → List Value → Bool
  | [], [] => true
  | x :: xs, y :: ys => sameKey x y && sameKeys xs ys
  | _, _ => false

end

/-- The entries with the value of `key` set: in place if there is such a key, at the end if not. -/
def put (entries : Entries) (key value : Value) : Entries :=
  match entries with
  | [] => [(key, value)]
  | (k, v) :: rest => if k.sameKey key then (k, value) :: rest else (k, v) :: put rest key value

def get? (entries : Entries) (key : String) : Option Value :=
  match entries with
  | [] => none
  | (text k, v) :: rest => if k == RawText.ofString key then some v else get? rest key
  | _ :: rest => get? rest key

theorem get?_text_cons (k : String) (v : Value) (rest : Entries) (key : String) :
    get? ((.text k, v) :: rest) key = if k = key then some v else get? rest key := by
  simp only [get?, beq_iff_eq, RawText.ofString_inj]

/-- The value of a text key, where a missing key counts as nothing. -/
def getD (entries : Entries) (key : String) : Value :=
  (get? entries key).getD null

def items? : Value → Option (List Value)
  | list items | tuple items | set items => some items
  | _ => none

def entries? : Value → Option Entries
  | table entries => some entries
  | _ => none

end Value

end Redact
