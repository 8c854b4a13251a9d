import Redact.Text.CaseTable

/-! # Lowercase

The full lowercase mapping of a text. Every character is mapped on its own, with two exceptions:
`İ` becomes an `i` and a combining dot, and a capital sigma that ends a word becomes `ς`. -/

namespace Redact.Text

/-- The lowercase form of a single character, where it has one that is a single character. -/
def lowerChar (c : Char) : Char :=
  if c.toNat < 0x80 then
    if 'A' ≤ c ∧ c ≤ 'Z' then Char.ofNat (c.toNat + 32) else c
  else
    match lowerRows.find? (·.covers c.toNat) with
    | some r => Char.ofNat ((c.toNat : Int) + r.shift).toNat
    | none => c

def startsCased (cs : List Char) : Bool :=
  match cs.dropWhile (fun c => inRanges caseIgnorableRanges c.toNat) with
  | c :: _ => inRanges casedRanges c.toNat
  | [] => false

/-- A sigma between `before` (nearest character first) and `after` ends a word: a cased character
stands before it and none after it. -/
def endsWord (before after : List Char) : Bool :=
  startsCased before && !startsCased after

/-- The lowercase form of `c` between `before` (nearest character first) and `after`. -/
def lowerIn (before : List Char) (c : Char) (after : List Char) : List Char :=
  if c = 'Σ' then [if endsWord before after then 'ς' else 'σ']
  else if c = 'İ' then ['i', '\u0307']
  else [lowerChar c]

/-- `cs` in lowercase, given the characters before it (nearest first). -/
def lowerAfter (before : List Char) : List Char → List Char
  | [] => []
  | c :: after => lowerIn before c after ++ lowerAfter (c :: before) after

def lower (s : String) : String :=
  String.ofList (lowerAfter [] s.toList)

end Redact.Text
