import Redact.Number.Decimal
import Redact.Text.Lower
import Redact.Yaml.Resolve

/-! # Values of scalars

The value that a scalar with a tag stands for. A tag may also be given to a text that is not written
like its values; then the text is read as far as its meaning is plain, and refused otherwise. -/

namespace Redact.Yaml

def boolOf? (text : String) : Option Value :=
  let word := Text.lower text
  if ["yes", "true", "on"].contains word then some (.bool true)
  else if ["no", "false", "off"].contains word then some (.bool false)
  else none

/-- The digits of a base that is a power of two, with a sign and the letter of the base in front. -/
def inBase? (base : Nat) (letter : Char) (isDigit : Char → Bool) (cs : List Char) : Option Int := do
  let cs := Text.trimBoth Text.isBlank cs
  let negative := cs.head? == some '-'
  let ds := match unsigned cs with
    | '0' :: c :: rest => if c.toLower = letter then rest else '0' :: c :: rest
    | ds => ds
  if !allOf isDigit ds then failure
  let n : Int := ds.foldl (fun n c => base * n + Text.ofHex [c]) 0
  return if negative then -n else n

def sixtieths (digits : List Int) : Int := digits.foldl (fun n d => 60 * n + d) 0

def unsignedInt? (cs : List Char) : Option Int :=
  match cs with
  | [] => none
  | ['0'] => some 0
  | '0' :: 'b' :: rest => inBase? 2 'b' (fun c => c = '0' || c = '1') rest
  | '0' :: 'x' :: rest => inBase? 16 'x' Syntax.isHex rest
  | '0' :: _ => inBase? 8 'o' Syntax.isOctal cs
  | _ =>
    let parts := Text.splitAt ':' cs
    (parts.mapM fun part => Text.wholeNumber? (String.ofList part)).map sixtieths

def signed {α : Type} (neg : α → α) (read : List Char → Option α) (cs : List Char) : Option α :=
  match cs with
  | '-' :: rest => (read rest).map neg
  | '+' :: rest => read rest
  | cs => read cs

def intOf? (text : String) : Option Value :=
  (signed Neg.neg unsignedInt? (text.toList.filter (· != '_'))).map .int

/-- The sum of digits times powers of sixty, the last digit first, each step rounded. -/
def sumSixtieths (digits : List Binary64) (base : Nat) (sum : Binary64) : Binary64 :=
  match digits with
  | [] => sum
  | d :: rest => sumSixtieths rest (60 * base) (sum.add (d.times base))

/-- A number with a point without underscores and sign, in lowercase. -/
def unsignedFloat? (cs : List Char) : Option Binary64 :=
  if cs == ".inf".toList then some (.infinity false)
  else if cs == ".nan".toList then some .nan
  else
    match Text.splitAt ':' cs with
    | [_] => Binary64.ofText? cs
    | parts => (parts.mapM Binary64.ofText?).map fun ds => sumSixtieths ds.reverse 1 (.ofRatio false 0 1)

def floatOf? (text : String) : Option Value :=
  (signed Binary64.neg unsignedFloat? ((Text.lower text).toList.filter (· != '_'))).map .float

/-- A day of the calendar, or one with a time of day and an offset of less than a day. -/
def timestampOf? (text : String) : Option Value := do
  let stamp ← Stamp.ofText? text.toList
  if !stamp.date.isValid then failure
  match stamp.time with
  | none => return .date stamp.date
  | some (t, offset) =>
    if t.isValid && (offset.getD 0).natAbs < 86400 then return .moment stamp.date t offset
    else failure

def letter64? (c : Char) : Option Nat :=
  if 'A' ≤ c ∧ c ≤ 'Z' then some (c.toNat - 65)
  else if 'a' ≤ c ∧ c ≤ 'z' then some (c.toNat - 71)
  else if c.isDigit then some (c.toNat + 4)
  else if c = '+' then some 62
  else if c = '/' then some 63
  else none

/-- The bytes of letters of base 64, in groups of four. A group that is not full ends with two or
three letters and as many `=` as are missing, and nothing behind it counts; other characters count
for nothing. `group` holds the letters of the group under way, `pads` the `=` since the last
letter. -/
def bytes64 (group : List Nat) (pads : Nat) : List Char → Option (List UInt8)
  | [] => if group.isEmpty then some [] else none
  | c :: rest =>
    if c = '=' then
      match group with
      | [a, b] => if pads = 0 then bytes64 group 1 rest else some [(4 * a + b / 16).toUInt8]
      | [a, b, d] => some [(4 * a + b / 16).toUInt8, (16 * (b % 16) + d / 4).toUInt8]
      | _ => bytes64 group pads rest
    else
      match letter64? c, group with
      | none, _ => bytes64 group pads rest
      | some e, [a, b, d] =>
        (bytes64 [] 0 rest).map fun bytes =>
          (4 * a + b / 16).toUInt8 :: (16 * (b % 16) + d / 4).toUInt8 :: (64 * (d % 4) + e).toUInt8 :: bytes
      | some e, group => bytes64 (group ++ [e]) 0 rest

def bytesOf? (text : String) : Option Value :=
  if text.toList.all (·.toNat < 0x80) then (bytes64 [] 0 text.toList).map .bytes else none

/-- The value of a text with a tag; none for the tags of collections and for those that stand for
nothing of their own. -/
def atom? (tag : Tag) (text : String) : Option Value :=
  match tag with
  | .null => some .null
  | .bool => boolOf? text
  | .int => intOf? text
  | .float => floatOf? text
  | .binary => bytesOf? text
  | .timestamp => timestampOf? text
  | .text => some (.text text)
  | _ => none

end Redact.Yaml
