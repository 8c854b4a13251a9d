import Redact.Text.Numeral
import Redact.Toml.Scan
import Redact.Value.Calendar

/-! # Numbers, days and times of TOML -/

namespace Redact.Toml

open Syntax (digitRun isHex isOctal)
open Text (ofBase ofHex)

/-- Exactly `n` digits. -/
def digits (n : Nat) : Scan Nat := do
  let ds := (← get).take n
  if ds.length = n && ds.all Char.isDigit then
    skip n
    return ofBase 10 ds
  else failure

/-- A number of two digits up to `max`. -/
def pair (max : Nat) : Scan Nat := do
  let n ← digits 2
  if n ≤ max then return n else failure

def time : Scan Time := do
  let hour ← pair 23
  expect ":"
  let minute ← pair 59
  expect ":"
  let second ← pair 59
  let micros ← (do
    expect "."
    let ds ← run Char.isDigit
    if ds.isEmpty then failure
    let six := (ds ++ List.replicate 6 '0').take 6
    return ofBase 10 six) <|> pure 0
  return ⟨hour, minute, second, micros⟩

/-- A distance from universal time in seconds. -/
def offset : Scan Int := do
  if (← accept "Z") || (← accept "z") then return 0
  let negative ← match ← peek? with
    | some '+' => pure false
    | some '-' => pure true
    | _ => failure
  skip 1
  let hour ← pair 23
  expect ":"
  let minute ← pair 59
  let n : Int := 60 * (60 * hour + minute)
  return if negative then -n else n

def dayNumbers : Scan Date := do
  let year ← digits 4
  expect "-"
  let month ← pair 12
  expect "-"
  let day ← pair 31
  if month = 0 || day = 0 then failure
  return ⟨year, month, day⟩

def timeOfDay : Scan (Time × Option Int) := do
  match ← peek? with
  | some c => if c = 'T' || c = 't' || c = ' ' then skip 1 else failure
  | none => failure
  let t ← time
  let o ← (some <$> offset) <|> pure none
  return (t, o)

/-- The number that a text starts with, and the rest; its digits may have underscores between
them. -/
def number : Scan Value := do
  let cs ← get
  let based (p : Char → Bool) (value : List Char → Nat) (rest : List Char) : Option (Value × Nat) :=
    let n := digitRun p false false rest
    if n = 0 then none
    else some (.int (value ((rest.take n).filter (· != '_'))), 2 + n)
  let special := match cs with
    | '0' :: 'x' :: rest => based isHex ofHex rest
    | '0' :: 'o' :: rest => based isOctal (ofBase 8) rest
    | '0' :: 'b' :: rest => based (fun c => c = '0' || c = '1') (ofBase 2) rest
    | _ => none
  match special with
  | some (v, n) =>
    skip n
    return v
  | none =>
    let negative ← accept "-"
    if !negative then let _ ← accept "+"
    let body ← get
    let whole := if body.head? == some '0' then 1 else digitRun Char.isDigit false false body
    if whole = 0 then failure
    let plain (ds : List Char) : Nat := ofBase 10 (ds.filter (· != '_'))
    let behind := body.drop whole
    let part := match behind with
      | '.' :: rest => digitRun Char.isDigit false false rest
      | _ => 0
    let fraction := (behind.drop 1).take part
    let behind := if part = 0 then behind else behind.drop (1 + part)
    let e := Syntax.exponentLength false behind
    let exponentDigits := (behind.take e).filter Char.isDigit
    let minus := (behind.drop 1).head? == some '-'
    set (behind.drop e)
    if part = 0 && e = 0 then
      let n : Int := plain (body.take whole)
      if Text.maxDigits < ((body.take whole).filter (· != '_')).length then failure
      return .int (if negative then -n else n)
    else
      let scale := ((fraction.filter (· != '_')).length : Int)
      let exponent : Int := ofBase 10 exponentDigits
      let ds := plain (body.take whole ++ fraction)
      return .float (.ofDecimal negative ds ((if minus then -exponent else exponent) - scale))

def special : Scan Value := do
  let negative ← accept "-"
  if !negative then let _ ← accept "+"
  if ← accept "inf" then return .float (.infinity negative)
  expect "nan"
  return .float .nan

/-- A day with or without a time. A day that the calendar does not have is an error, so a value
that starts like a day is not read as anything else. -/
def dayOrNumber : Scan Value := do
  let cs ← get
  match dayNumbers.run cs with
  | some (d, rest) =>
    if !d.isValid then failure
    set rest
    match timeOfDay.run rest with
    | some ((t, o), rest) =>
      set rest
      return .moment d t o
    | none => return .date d
  | none => (Value.time <$> time) <|> number <|> special

end Redact.Toml
