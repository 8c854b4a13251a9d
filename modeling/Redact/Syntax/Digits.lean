/-! # Digits of number literals

Lengths of runs of digits, as they are written in program sources, with underscores in between. -/

namespace Redact.Syntax

/-- The length of a run of digits in `p` with single underscores between them; `mark` allows one
before the first digit, and a `tail` one behind the last. -/
def digitRun (p : Char → Bool) (mark tail : Bool) : List Char → Nat
  | [] => 0
  | [c] => if p c then 1 else 0
  | c :: d :: rest =>
    if p c then
      if p d then 1 + digitRun p false tail (d :: rest)
      else if d = '_' then
        let more := digitRun p false tail rest
        if more = 0 then (if tail then 2 else 1) else 2 + more
      else 1
    else if c = '_' && mark && p d then 1 + digitRun p false tail (d :: rest)
    else 0

def isOctal (c : Char) : Bool := '0' ≤ c && c ≤ '7'

def isHex (c : Char) : Bool :=
  c.isDigit || ('a' ≤ c && c ≤ 'f') || ('A' ≤ c && c ≤ 'F')

/-- The length of an exponent; `tail` allows an underscore behind its last digit. -/
def exponentLength (tail : Bool) : List Char → Nat
  | e :: rest =>
    if e = 'e' || e = 'E' then
      let (sign, rest) := match rest with
        | '+' :: rest | '-' :: rest => (1, rest)
        | rest => (0, rest)
      let n := digitRun Char.isDigit false tail rest
      if n = 0 then 0 else 1 + sign + n
    else 0
  | [] => 0

end Redact.Syntax
