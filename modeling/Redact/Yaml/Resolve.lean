import Redact.Syntax.Digits
import Redact.Text.Search
import Redact.Value.Calendar
import Redact.Yaml.Node

/-! # What plain scalars are

A plain scalar without a tag is nothing, a truth value, a number or a time if it is written like
one, and a text otherwise. -/

namespace Redact.Yaml

def nullWords : List String := ["", "~", "null", "Null", "NULL"]

def boolWords : List String :=
  ["yes", "Yes", "YES", "no", "No", "NO", "true", "True", "TRUE", "false", "False", "FALSE", "on",
    "On", "ON", "off", "Off", "OFF"]

def unsigned : List Char → List Char
  | '+' :: rest | '-' :: rest => rest
  | cs => cs

def isDigitMark (c : Char) : Bool := c.isDigit || c = '_'

/-- At least one character, all of them in `p`. -/
def allOf (p : Char → Bool) (cs : List Char) : Bool := !cs.isEmpty && cs.all p

def isSixtieth : List Char → Bool
  | [d] => d.isDigit
  | [c, d] => '0' ≤ c && c ≤ '5' && d.isDigit
  | _ => false

/-- Parts of a number to the base of sixty behind its first part: at least one. -/
def areSixtieths (parts : List (List Char)) : Bool := !parts.isEmpty && parts.all isSixtieth

/-- A whole number: in binary, octal, decimal, hexadecimal, or to the base of sixty. -/
def isInt (cs : List Char) : Bool :=
  match unsigned cs with
  | ['0'] => true
  | '0' :: 'b' :: rest => allOf (fun c => c = '0' || c = '1' || c = '_') rest
  | '0' :: 'x' :: rest => allOf (fun c => Syntax.isHex c || c = '_') rest
  | '0' :: rest => allOf (fun c => Syntax.isOctal c || c = '_') rest
  | c :: rest =>
    c.isDigit &&
      match Text.splitAt ':' rest with
      | first :: parts => first.all isDigitMark && (parts.isEmpty || areSixtieths parts)
      | [] => false
  | [] => false

def isExponent : List Char → Bool
  | [] => true
  | e :: sign :: rest => (e = 'e' || e = 'E') && (sign = '+' || sign = '-') && allOf Char.isDigit rest
  | _ => false

def isFractionPart (cs : List Char) : Bool := isExponent (cs.dropWhile isDigitMark)

/-- A number with a point: in decimal, to the base of sixty, infinity, or no number. -/
def isFloat (cs : List Char) : Bool :=
  let word := String.ofList cs
  let words := [".inf", ".Inf", ".INF"]
  words.contains word || words.contains (String.ofList (unsigned cs)) ||
    [".nan", ".NaN", ".NAN"].contains word ||
    (match cs with
      | '.' :: d :: rest => d.isDigit && isFractionPart rest
      | _ => false) ||
    (match unsigned cs with
      | d :: rest =>
        let whole := rest.takeWhile fun c => isDigitMark c || c = ':'
        d.isDigit &&
          match Text.splitAt ':' whole, rest.drop whole.length with
          | [_], '.' :: part => isFractionPart part
          | _ :: parts, '.' :: part => areSixtieths parts && part.all isDigitMark
          | _, _ => false
      | [] => false)

/-- A time: a day, or a day and a time of day with an optional offset. -/
structure Stamp where
  date : Date
  time : Option (Time × Option Int)

/-- A number of at least `least` and at most `most` digits at the front, and the rest. -/
def spanNumber (least most : Nat) (cs : List Char) : Option (Nat × List Char) :=
  let ds := (cs.take most).takeWhile Char.isDigit
  if ds.length < least then none else some (Text.ofBase 10 ds, cs.drop ds.length)

/-- The rest behind the character `c` in front. -/
def behind (c : Char) : List Char → Option (List Char)
  | d :: rest => if d = c then some rest else none
  | [] => none

def microsOf (ds : List Char) : Nat := Text.ofBase 10 ((ds ++ List.replicate 6 '0').take 6)

/-- The offset behind a time of day, in seconds; a `Z` is the offset 0. -/
def offsetOf (cs : List Char) : Option (Option Int) := do
  match cs.dropWhile fun c => c = ' ' || c = '\t' with
  | [] => if cs.isEmpty then return none else failure
  | ['Z'] => return some 0
  | sign :: rest =>
    if sign != '+' && sign != '-' then failure
    let (hour, rest) ← spanNumber 1 2 rest
    let minute ← if rest.isEmpty then pure 0 else do
      let (minute, rest) ← spanNumber 2 2 (← behind ':' rest)
      if rest.isEmpty then pure minute else failure
    let n : Int := 60 * (60 * hour + minute)
    return some (if sign = '-' then -n else n)

/-- The time of day and its offset that a text is, behind the sign or the blanks that divide them
from the day. -/
def timeOf (cs : List Char) : Option (Time × Option Int) := do
  let rest ← match cs with
    | c :: rest =>
      if c = 'T' || c = 't' then some rest
      else if c = ' ' || c = '\t' then some (rest.dropWhile fun c => c = ' ' || c = '\t')
      else none
    | [] => none
  let (hour, rest) ← spanNumber 1 2 rest
  let (minute, rest) ← spanNumber 2 2 (← behind ':' rest)
  let (second, rest) ← spanNumber 2 2 (← behind ':' rest)
  let (fraction, rest) := match rest with
    | '.' :: rest => (rest.takeWhile Char.isDigit, rest.dropWhile Char.isDigit)
    | rest => ([], rest)
  return (⟨hour, minute, second, microsOf fraction⟩, ← offsetOf rest)

def Stamp.ofText? (cs : List Char) : Option Stamp := do
  let (year, rest) ← spanNumber 4 4 cs
  let (month, rest) ← spanNumber 1 2 (← behind '-' rest)
  let (day, rest) ← spanNumber 1 2 (← behind '-' rest)
  if rest.isEmpty then return ⟨⟨year, month, day⟩, none⟩
  return ⟨⟨year, month, day⟩, some (← timeOf rest)⟩

/-- A text is a time if it is written like one; a day alone has two digits for month and day. -/
def isTimestamp (cs : List Char) : Bool :=
  match Stamp.ofText? cs with
  | some s => s.time.isSome || cs.length = 10
  | none => false

def Tag.ofPlain (text : String) : Tag :=
  let cs := text.toList
  if nullWords.contains text then .null
  else if boolWords.contains text then .bool
  else if text == "<<" then .merge
  else if text == "=" then .defaultValue
  else if ["!", "&", "*"].contains text then .unknown
  else if isFloat cs then .float
  else if isInt cs then .int
  else if isTimestamp cs then .timestamp
  else .text

def Node.tag : Node → Tag
  | .scalar (some t) _ _ => t
  | .scalar none plain text => if plain then Tag.ofPlain text else .text
  | .list t _ | .table t _ => t

end Redact.Yaml
