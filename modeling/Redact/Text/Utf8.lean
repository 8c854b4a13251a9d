/-! # UTF-8

A byte string is read as a sequence of characters and ill-formed parts. Reading byte by byte, a
part is ill-formed as soon as no character can begin with it, so each maximal ill-formed part is
one item (`scalars`). Strict decoding wants no ill-formed part; lossy decoding puts U+FFFD in the
place of each. -/

namespace Redact.Text.Utf8

def encodeChar (c : Char) : List UInt8 :=
  let n := c.toNat
  if n < 0x80 then [n.toUInt8]
  else if n < 0x800 then [(0xC0 + n / 64).toUInt8, (0x80 + n % 64).toUInt8]
  else if n < 0x10000 then
    [(0xE0 + n / 4096).toUInt8, (0x80 + n / 64 % 64).toUInt8, (0x80 + n % 64).toUInt8]
  else
    [(0xF0 + n / 262144).toUInt8, (0x80 + n / 4096 % 64).toUInt8, (0x80 + n / 64 % 64).toUInt8,
      (0x80 + n % 64).toUInt8]

def encode (cs : List Char) : List UInt8 :=
  cs.flatMap encodeChar

/-- A character under way: its bits so far, the number of bytes owed (at least one), and the least
and the greatest value that the next byte may have. -/
structure Pending where
  bits : Nat
  owed : Nat
  low : Nat
  high : Nat

/-- What a byte between characters brings: a whole character, an ill-formed part, or the start of
a character. The bounds on the second byte rule out overlong forms, surrogates and code points
above U+10FFFF. -/
def start (b : UInt8) : List (Option Char) × Option Pending :=
  let n := b.toNat
  if n < 0x80 then ([some (Char.ofNat n)], none)
  else if 0xC2 ≤ n ∧ n ≤ 0xDF then ([], some ⟨n - 0xC0, 1, 0x80, 0xBF⟩)
  else if n = 0xE0 then ([], some ⟨0, 2, 0xA0, 0xBF⟩)
  else if n = 0xED then ([], some ⟨0xD, 2, 0x80, 0x9F⟩)
  else if 0xE1 ≤ n ∧ n ≤ 0xEF then ([], some ⟨n - 0xE0, 2, 0x80, 0xBF⟩)
  else if n = 0xF0 then ([], some ⟨0, 3, 0x90, 0xBF⟩)
  else if 0xF1 ≤ n ∧ n ≤ 0xF3 then ([], some ⟨n - 0xF0, 3, 0x80, 0xBF⟩)
  else if n = 0xF4 then ([], some ⟨4, 3, 0x80, 0x8F⟩)
  else ([none], none)

/-- The items that a byte completes, and the character under way after it. -/
def step (pending : Option Pending) (b : UInt8) : List (Option Char) × Option Pending :=
  match pending with
  | none => start b
  | some p =>
    if p.low ≤ b.toNat ∧ b.toNat ≤ p.high then
      let bits := p.bits * 64 + (b.toNat - 0x80)
      if p.owed ≤ 1 then ([some (Char.ofNat bits)], none)
      else ([], some ⟨bits, p.owed - 1, 0x80, 0xBF⟩)
    else
      let (items, next) := start b
      (none :: items, next)

/-- The characters (`some`) and the maximal ill-formed parts (`none`) of a byte string, given the
character that is under way before it. -/
def scalars (pending : Option Pending) : List UInt8 → List (Option Char)
  | [] => if pending.isSome then [none] else []
  | b :: rest =>
    let (items, next) := step pending b
    items ++ scalars next rest

def decode? (bytes : List UInt8) : Option (List Char) :=
  (scalars none bytes).mapM id

/-- The text of a byte string, with U+FFFD for each maximal ill-formed part. -/
def decodeLossy (bytes : List UInt8) : List Char :=
  (scalars none bytes).map (·.getD '\uFFFD')

def isValid (bytes : List UInt8) : Bool :=
  (decode? bytes).isSome

end Redact.Text.Utf8
