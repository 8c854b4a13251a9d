import Redact.Syntax.Ecma.Token

/-! # Parts of JavaScript and TypeScript sources

The parts that may stand inside each other, readers for templates, brackets and element markup, and
the reading of patterns. A reader takes a reader for the parts inside it. -/

namespace Redact.Syntax.Ecma

open Read

/-- The dialect of a source. JavaScript has element markup, TypeScript has types. -/
inductive Dialect where
  | javascript
  | typescript
  deriving DecidableEq, Repr

/-- What may be nested in other things. In the head of a loop the operator `in` is not allowed. -/
inductive Part where
  | statement
  | sequence (inAllowed : Bool)
  | expression (inAllowed : Bool)
  | operand
  | pattern
  | parens
  | params
  | template (ofType : Bool)
  | type
  | balanced
  | element

abbrev Parts := Part → Read Node

def missing : Read Node := do
  fault
  close "missing" (← position) []

def isQuote (c : Char) : Bool := c = '\x27' || c = '\x22'

def isOpener (c : Char) : Bool := c = '(' || c = '[' || c = '\x7b'

def isCloser (c : Char) : Bool := c = ')' || c = ']' || c = '\x7d'

/-- Reads a closing text behind blanks, or notes that it is missing. -/
def expect (s : String) : Read Unit := do
  if !(← acceptText s) then fault

/-- The length of a template up to its end, an escape or a substitution. -/
def templateRun : List Char → Nat
  | [] | '\x60' :: _ | '\\' :: _ | '$' :: '\x7b' :: _ => 0
  | _ :: rest => 1 + templateRun rest

/-- Reads a template with its substitutions, which hold types in a template of a type. -/
def templateBody (rec : Parts) (ofType : Bool) : Read Node := do
  let start ← position
  skip 1
  let parts ← gather do
    match (← get).rest with
    | [] | '\x60' :: _ => return none
    | '\\' :: rest => skip (1 + escapeLength rest); return some []
    | '$' :: '\x7b' :: _ =>
      let start ← position
      skip 2
      let inner ← rec (if ofType then .type else .sequence true)
      expect "\x7d"
      return some [← close "template_substitution" start [inner]]
    | cs =>
      let start ← position
      skip (templateRun cs)
      return some [← close "string_fragment" start []]
  if !(← accept "\x60") then fault
  close "template_string" start parts

/-- Reads a bracketed group of a type or a clause, of which only the strings matter. -/
def balancedBody (rec : Parts) : Read Node := do
  let start ← position
  skip 1
  let found ← gather do
    match ← next? with
    | none => return none
    | some c =>
      if isCloser c then return none
      else if isOpener c then return some [← rec .balanced]
      else if isQuote c then return some [← string]
      else if c = '\x60' then return some [← rec (.template true)]
      else if isWordChar c then skipWhile isWordChar; return some []
      else skip 1; return some []
  if ← seesChar isCloser then skip 1 else fault
  close "group" start found

mutual

/-- A node as a pattern: what looks like an assignment there is a default. -/
def toPattern : Node → Node
  | .mk kind start stop children fields =>
    if kind == "assignment_expression" then .mk "assignment_pattern" start stop children fields
    else if kind == "array" || kind == "object" then
      .mk kind start stop (toPatterns children) fields
    else .mk kind start stop children fields

def toPatterns : List Node → List Node
  | [] => []
  | n :: rest => toPattern n :: toPatterns rest

end

def toParams (n : Node) : Node :=
  .mk "formal_parameters" n.start n.stop (toPatterns n.children) []

/-! ### Element markup -/

def isNameChar (c : Char) : Bool := isWordChar c || c = '-' || c = '.' || c = ':'

def referenceLength : List Char → Nat
  | '&' :: '#' :: rest =>
    let (mark, digits) := match rest with
      | 'x' :: r | 'X' :: r => (1, ((r.take 6).takeWhile isHex).length)
      | r => (0, ((r.take 5).takeWhile Char.isDigit).length)
    let n := 2 + mark + digits
    if ((rest.drop (mark + digits)).head? == some ';') then n + 1 else n
  | '&' :: rest =>
    let n := ((rest.take 30).takeWhile Char.isAlpha).length
    if n = 0 then 0 else if (rest.drop n).head? == some ';' then n + 2 else n + 1
  | _ => 0

/-- The length of the text of an attribute up to its quote or a character reference. -/
def attributeRun (quote : Char) : List Char → Nat
  | [] => 0
  | c :: rest =>
    if c = quote || referenceLength (c :: rest) != 0 then 0 else 1 + attributeRun quote rest

/-- Reads the string of an attribute. It may go over several lines. -/
def attributeString (quote : Char) : Read Node := do
  let start ← position
  skip 1
  let parts ← gather do
    let cs := (← get).rest
    match cs with
    | [] => return none
    | c :: _ =>
      if c = quote then return none
      let n := referenceLength cs
      if n != 0 then skip n; return some []
      let start ← position
      skip (attributeRun quote cs)
      return some [← close "string_fragment" start []]
  if ← seesChar (· = quote) then skip 1 else fault
  close "string" start parts

/-- Reads an expression in braces; there may be none in them. -/
def container (rec : Parts) : Read Node := do
  let start ← position
  skip 1
  let found ← match ← next? with
    | some '\x7d' => pure []
    | _ => pure [← rec (.sequence true)]
  expect "\x7d"
  close "container" start found

/-- Reads an attribute, a value, or an expression in the tag of an element. -/
def tagPart (rec : Parts) : Read (Option (List Node)) := do
  match ← next? with
  | some '\x7b' => return some [← container rec]
  | some '=' =>
    skip 1
    match ← next? with
    | some '\x7b' => return some [← container rec]
    | some '<' => return some [← rec .element]
    | some c => if isQuote c then return some [← attributeString c] else return some []
    | none => return none
  | some c =>
    if isNameChar c then
      skipWhile isNameChar
      return some []
    else return none
  | none => return none

def elementBody (rec : Parts) : Read Node := do
  let start ← position
  skip 1
  let _ ← blanks
  skipWhile isNameChar
  let attributes ← gather (tagPart rec)
  if ← acceptText "/" then
    expect ">"
    close "element" start attributes
  else if ← acceptText ">" then
    let children ← gather do
      match (← get).rest with
      | [] | '<' :: '/' :: _ => return none
      | '<' :: _ => return some [← rec .element]
      | '\x7b' :: _ => return some [← container rec]
      | _ => skipWhile fun c => !(c = '<' || c = '\x7b'); return some []
    if ← accept "</" then
      let _ ← blanks
      skipWhile isNameChar
      expect ">"
    else fault
    close "element" start (attributes ++ children)
  else
    fault
    close "element" start attributes

end Redact.Syntax.Ecma
