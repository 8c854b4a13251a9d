import Redact.Number.Binary64

/-! # Shortest decimal form

The decimal digits that a finite positive floating point number is written with: the fewest digits
that read back as the number, and of those the nearest to it. The numbers that read back form an
interval around the number; for 1, 2, … digits the two neighbours of the number on the decimal
grid are tested against it. -/

namespace Redact.Binary64

/-- `digits · 10^exponent`. -/
structure Decimal where
  digits : Nat
  exponent : Int
  deriving DecidableEq, Repr

/-- The numbers that read back as one number, over a common denominator: from `low` to `high`
around `mid`, with the ends if `closed`. -/
structure Basin where
  low : Nat
  mid : Nat
  high : Nat
  den : Nat
  closed : Bool

/-- The basin of `mantissa · 2^scale`: half a step of the binary grid on either side, where the
step below the least mantissa of a scale is half as wide. -/
def basin (mantissa : Nat) (scale : Int) : Basin :=
  let (num, den) := descale 1 1 (2 - scale)
  let below := if mantissa = Nat.pow 2 (precision - 1) ∧ minScale < scale then 1 else 2
  ⟨(4 * mantissa - below) * num, 4 * mantissa * num, (4 * mantissa + 2) * num, den,
    mantissa % 2 = 0⟩

/-- `10^exponent · den` for the basin scaled to the grid of `10^exponent`. -/
def Basin.onGrid (b : Basin) (exponent : Int) : Basin :=
  if 0 ≤ exponent then { b with den := b.den * Nat.pow 10 exponent.toNat }
  else
    let p := Nat.pow 10 (-exponent).toNat
    { b with low := b.low * p, mid := b.mid * p, high := b.high * p }

/-- The multiple `n` of the grid lies in the basin. -/
def Basin.holds (b : Basin) (n : Nat) : Bool :=
  let x := n * b.den
  (b.low < x && x < b.high) || (b.closed && (x == b.low || x == b.high))

/-- The multiple of the grid that lies in the basin and is nearest to its middle. -/
def Basin.nearest? (b : Basin) : Option Nat :=
  let down := b.mid / b.den
  let up := down + 1
  match b.holds down && down != 0, b.holds up with
  | true, true =>
    let left := b.mid - down * b.den
    let right := up * b.den - b.mid
    if left < right then some down
    else if right < left then some up
    else some (if down % 2 = 0 then down else up)
  | true, false => some down
  | false, true => some up
  | false, false => none

/-- The first hit on grids of `tries` more and more digits, from `10^exponent` downwards. -/
def searchGrids (b : Basin) : Nat → Int → Decimal
  | 0, exponent => ⟨(b.onGrid exponent).mid / (b.onGrid exponent).den, exponent⟩
  | tries + 1, exponent =>
    match (b.onGrid exponent).nearest? with
    | some n => ⟨n, exponent⟩
    | none => searchGrids b tries (exponent - 1)

/-- An exponent of ten at which the number has at most one digit: its binary order of magnitude
times log₁₀ 2, rounded up. -/
def topExponent (mantissa : Nat) (scale : Int) : Int :=
  ((Nat.log2 mantissa : Int) + scale) * 30103 / 100000 + 1

def dropZeros : Nat → Decimal → Decimal
  | 0, d => d
  | tries + 1, d =>
    if d.digits ≠ 0 ∧ d.digits % 10 = 0 then dropZeros tries ⟨d.digits / 10, d.exponent + 1⟩ else d

/-- The shortest decimal form of `mantissa · 2^scale`, without zeros at its end. -/
def shortest (mantissa : Nat) (scale : Int) : Decimal :=
  dropZeros 20 (searchGrids (basin mantissa scale) 20 (topExponent mantissa scale))

end Redact.Binary64
