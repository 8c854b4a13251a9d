/-! # Binary floating point numbers

Numbers of the IEEE format with 53 bits, as exact values: a finite number is `mantissa · 2^scale`.
The constructor functions only build numbers in the one form that the format has for each value,
with a mantissa below 2^53 that is at least 2^52 unless the scale is the least one. -/

namespace Redact

inductive Binary64 where
  | nan
  | infinity (negative : Bool)
  | finite (negative : Bool) (mantissa : Nat) (scale : Int)
  deriving DecidableEq, Repr

namespace Binary64

def precision : Nat := 53

def minScale : Int := -1074

def maxScale : Int := 971

/-- The quotient of `num` and `den`, rounded to the nearest whole number, a half to the even one. -/
def roundHalfEven (num den : Nat) : Nat :=
  let q := num / den
  let twice := 2 * (num % den)
  if twice < den then q
  else if den < twice then q + 1
  else if q % 2 = 0 then q else q + 1

/-- `num · 2^(-scale) / den` as a pair of numerator and denominator. -/
def descale (num den : Nat) (scale : Int) : Nat × Nat :=
  if 0 ≤ scale then (num, den * Nat.pow 2 scale.toNat) else (num * Nat.pow 2 (-scale).toNat, den)

/-- The least scale from `scale` on, within `tries` steps, at which the quotient fits a mantissa. -/
def fitScale (num den : Nat) : Nat → Int → Int
  | 0, scale => scale
  | tries + 1, scale =>
    let (n, d) := descale num den scale
    if n / d < Nat.pow 2 precision then scale else fitScale num den tries (scale + 1)

/-- The number nearest to `num / den`, of two equally near ones the one with the even mantissa. -/
def ofRatio (negative : Bool) (num den : Nat) : Binary64 :=
  if num = 0 then finite negative 0 minScale
  else
    let guess := (Nat.log2 num : Int) - Nat.log2 den - precision
    let scale := fitScale num den 3 (max minScale guess)
    let (n, d) := descale num den scale
    let m := roundHalfEven n d
    let (m, scale) := if m = Nat.pow 2 precision then (Nat.pow 2 (precision - 1), scale + 1) else (m, scale)
    if maxScale < scale then infinity negative else finite negative m scale

/-- The number nearest to `digits · 10^exponent`. Outside of ±400 decimal places there is no need
to compute the power of ten. -/
def ofDecimal (negative : Bool) (digits : Nat) (exponent : Int) : Binary64 :=
  let size : Int := (Nat.toDigits 10 digits).length
  if digits = 0 then finite negative 0 minScale
  else if 400 < exponent + size then infinity negative
  else if exponent + size < -400 then finite negative 0 minScale
  else if 0 ≤ exponent then ofRatio negative (digits * Nat.pow 10 exponent.toNat) 1
  else ofRatio negative digits (Nat.pow 10 (-exponent).toNat)

def isZero : Binary64 → Bool
  | finite _ 0 _ => true
  | _ => false

def truncate? : Binary64 → Option Int
  | finite negative m scale =>
    let n := if 0 ≤ scale then m * Nat.pow 2 scale.toNat else m / Nat.pow 2 (-scale).toNat
    some (if negative then -(n : Int) else n)
  | _ => none

/-- The whole number that a number is equal to, if there is one. -/
def whole? : Binary64 → Option Int
  | finite negative m scale =>
    if 0 ≤ scale ∨ m % Nat.pow 2 (-scale).toNat = 0 then truncate? (finite negative m scale) else none
  | _ => none

/-- Equality of numbers: both zeros are equal, and nothing is equal to `nan`. -/
def same : Binary64 → Binary64 → Bool
  | nan, _ | _, nan => false
  | a, b => (a.isZero && b.isZero) || a == b

end Binary64

end Redact
