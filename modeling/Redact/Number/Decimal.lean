import Redact.Number.Binary64
import Redact.Text.Blank
import Redact.Text.Numeral

/-! # Numbers written in decimal

Reading a number from its decimal text, and sums and multiples of numbers, each of them rounded to
the nearest number. -/

namespace Redact.Binary64

def neg : Binary64 → Binary64
  | nan => nan
  | infinity negative => infinity (!negative)
  | finite negative m scale => finite (!negative) m scale

/-- The digits at the front of a text, in any script, and the rest. -/
def spanDigits : List Char → List Nat × List Char
  | [] => ([], [])
  | c :: rest =>
    match Text.digitValue? c with
    | some d => let (ds, rest) := spanDigits rest; (d :: ds, rest)
    | none => ([], c :: rest)

/-- The exponent that a text consists of; an empty text is the exponent 0. -/
def exponentOf? : List Char → Option Int
  | [] => some 0
  | e :: rest =>
    if e = 'e' || e = 'E' then
      let (negative, rest) := match rest with
        | '-' :: rest => (true, rest)
        | '+' :: rest => (false, rest)
        | rest => (false, rest)
      match spanDigits rest with
      | (d :: ds, []) => some (if negative then -(Text.ofDigits (d :: ds) : Int) else Text.ofDigits (d :: ds))
      | _ => none
    else none

/-- The number of a text without a sign: digits with a point among them and an exponent, or the name
of infinity or of no number in lowercase. -/
def ofUnsigned? (cs : List Char) : Option Binary64 :=
  if cs == "inf".toList || cs == "infinity".toList then some (infinity false)
  else if cs == "nan".toList then some nan
  else
    let (whole, rest) := spanDigits cs
    let (part, rest) := match rest with
      | '.' :: rest => spanDigits rest
      | rest => ([], rest)
    if whole.isEmpty && part.isEmpty then none
    else
      (exponentOf? rest).map fun e => ofDecimal false (Text.ofDigits (whole ++ part)) (e - part.length)

/-- The number that a text is, with blanks around it and a sign in front. -/
def ofText? (cs : List Char) : Option Binary64 :=
  match Text.trimBoth Text.isBlank cs with
  | '-' :: rest => (ofUnsigned? rest).map neg
  | '+' :: rest => ofUnsigned? rest
  | rest => ofUnsigned? rest

/-- The number nearest to a fraction. -/
def ofFraction (num : Int) (den : Nat) : Binary64 := ofRatio (num < 0) num.natAbs den

def fraction (negative : Bool) (m : Nat) (scale : Int) : Int × Nat :=
  let n : Int := if 0 ≤ scale then m * Nat.pow 2 scale.toNat else m
  (if negative then -n else n, if 0 ≤ scale then 1 else Nat.pow 2 (-scale).toNat)

/-- The sum of two numbers; a sum that is zero is positive. -/
def add : Binary64 → Binary64 → Binary64
  | nan, _ | _, nan => nan
  | infinity a, infinity b => if a = b then infinity a else nan
  | infinity a, _ | _, infinity a => infinity a
  | finite a m s, finite b n t =>
    let (x, d) := fraction a m s
    let (y, e) := fraction b n t
    ofFraction (x * e + y * d) (d * e)

/-- The number times `k`, for a positive `k`. -/
def times (k : Nat) : Binary64 → Binary64
  | finite negative m scale =>
    let (x, d) := fraction negative m scale
    ofRatio negative (x.natAbs * k) d
  | x => x

end Redact.Binary64
