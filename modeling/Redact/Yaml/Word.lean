import Redact.Syntax.Digits
import Redact.Text.Numeral
import Redact.Text.Utf8
import Redact.Yaml.Scan

/-! # Names, tags and directives of YAML -/

namespace Redact.Yaml

def word : Scan String := do
  let cs ← run isWord
  if cs.isEmpty then failure
  return String.ofList cs

def anchorName : Scan String := do
  forward 1
  let name ← word
  let c ← peek
  if isGap c || c.any "?:,]\x7d%@\x60".toList.contains then return name else failure

/-- The handle of a tag: `!`, `!!` or `!name!`. -/
def tagHandle : Scan String := do
  if (← peek) != some '!' then failure
  forward 1
  if (← peek) = some ' ' then return "!"
  let name ← run isWord
  if (← peek) != some '!' then failure
  forward 1
  return "!" ++ String.ofList name ++ "!"

def isTagChar (c : Char) : Bool := c.isAlphanum || "-;/?:@&=+$,_.!~*\x27()[]".toList.contains c

/-- The bytes that are written as `%` and two hexadecimal digits each; every round takes one. -/
def escapedBytes : Nat → Scan (List UInt8)
  | 0 => return []
  | fuel + 1 => do
    match (← get).rest with
    | '%' :: a :: b :: _ =>
      if !(Syntax.isHex a && Syntax.isHex b) then failure
      forward 3
      return (Text.ofHex [a, b]).toUInt8 :: (← escapedBytes fuel)
    | '%' :: _ => failure
    | _ => return []

/-- The parts of a tag; every round takes a run of characters or of bytes. -/
def tagRounds : Nat → Scan (List Char)
  | 0 => return []
  | fuel + 1 => do
    let cs ← run isTagChar
    if (← peek) = some '%' then
      let bytes ← escapedBytes (← roundsLeft)
      match Text.Utf8.decode? bytes with
      | none => failure
      | some part => return cs ++ part ++ (← tagRounds fuel)
    else return cs

def tagText : Scan String := do
  let c ← peek
  if !(c.any fun c => isTagChar c || c = '%') then failure
  return String.ofList (← tagRounds (← roundsLeft))

/-- A tag: the text between `<` and `>`, nothing, or a handle and a text. A handle longer than `!`
is there if a second `!` comes before the end of the word. -/
def tagName : Scan TagName := do
  let next ← peek 1
  let name : TagName ←
    if next = some '<' then do
      forward 2
      let suffix ← tagText
      if (← peek) != some '>' then failure
      forward 1
      pure ⟨none, suffix⟩
    else if isGap next then do
      forward 1
      pure ⟨none, "!"⟩
    else do
      let ahead := ((← get).rest.drop 1).takeWhile fun c => !endsWord (some c)
      let handle ← if ahead.contains '!' then tagHandle else do
        forward 1
        pure "!"
      pure ⟨some handle, ← tagText⟩
  if endsWord (← peek) then return name else failure

def versionNumber : Scan Nat := do
  let ds ← run Char.isDigit
  if ds.isEmpty || Text.maxDigits < ds.length then failure
  return Text.ofBase 10 ds

/-- A directive behind its `%`. -/
def directiveBody : Scan Token := do
  let name ← word
  if !endsWord (← peek) then failure
  if name == "YAML" then
    spaces
    let major ← versionNumber
    if (← peek) != some '.' then failure
    forward 1
    let _ ← versionNumber
    if endsWord (← peek) then return .version major else failure
  else if name == "TAG" then
    spaces
    let handle ← tagHandle
    if (← peek) != some ' ' then failure
    spaces
    let start ← tagText
    if endsWord (← peek) then return .tagHandle handle start else failure
  else
    let _ ← run fun c => !isBreak c
    return .otherDirective

def directive : Scan Token := do
  forward 1
  let t ← directiveBody
  emptyRest
  return t

end Redact.Yaml
