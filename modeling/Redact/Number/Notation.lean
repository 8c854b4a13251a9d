import Redact.Number.Shortest

/-! # Notation of numbers

How a floating point number is written: positionally where its leading digit stands for a power
of ten from 10^-4 to 10^15, with a point and at least one digit after it, and with a signed
exponent of two or more digits otherwise. -/

namespace Redact.Binary64

/-- The limits of a way of writing numbers: the places of the leading digit that are written
positionally, and the least number of digits of an exponent. -/
structure Style where
  leastPlace : Int
  greatestPlace : Int
  exponentDigits : Nat

def Style.settings : Style := ⟨-4, 15, 2⟩

/-- `n` zeros. -/
def zeros (n : Nat) : List Char := List.replicate n '0'

/-- Decimal digits, `count` at least. -/
def padded (count n : Nat) : List Char :=
  let ds := Nat.toDigits 10 n
  zeros (count - ds.length) ++ ds

/-- The digits with a point behind the first `whole` ones; zeros fill up on both sides. -/
def positional (ds : List Char) (whole : Int) : List Char :=
  if whole ≤ 0 then '0' :: '.' :: zeros (-whole).toNat ++ ds
  else
    let w := whole.toNat
    if ds.length ≤ w then ds ++ zeros (w - ds.length) ++ ['.', '0']
    else ds.take w ++ '.' :: ds.drop w

/-- The digits with a point behind the first one, if there are more, and an exponent. -/
def scientific (style : Style) (ds : List Char) (place : Int) : List Char :=
  let body := match ds with
    | [] => []
    | [d] => [d]
    | d :: rest => d :: '.' :: rest
  body ++ 'e' :: (if place < 0 then '-' else '+') :: padded style.exponentDigits place.natAbs

def render (style : Style) : Binary64 → List Char
  | nan => "nan".toList
  | infinity negative => (if negative then "-inf" else "inf").toList
  | finite negative m scale =>
    let sign := if negative then ['-'] else []
    if m = 0 then sign ++ "0.0".toList
    else
      let d := shortest m scale
      let ds := Nat.toDigits 10 d.digits
      let place := d.exponent + ds.length - 1
      sign ++
        (if style.leastPlace ≤ place ∧ place ≤ style.greatestPlace then positional ds (place + 1)
          else scientific style ds place)

end Redact.Binary64
