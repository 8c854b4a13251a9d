import Redact.Syntax.Ecma.Part

/-! # Types

Types of TypeScript. Only the strings in them matter, and where a type ends. -/

namespace Redact.Syntax.Ecma

open Read

def typeMarks : List String :=
  ["keyof", "typeof", "unique", "readonly", "infer", "asserts", "new", "abstract", "const", "in",
    "out"]

/-- Reads the arguments or the parameters of a type, in angle brackets. -/
def typeArguments (rec : Parts) : Read Node := do
  let start ← position
  skip 1
  let found ← gather do
    match ← next? with
    | none | some '>' => return none
    | some c =>
      if c = ',' || c = '=' then skip 1; return some []
      else return some [← rec .type]
  expect ">"
  close "type_arguments" start found

def dottedNames : Read Unit :=
  loop do
    if ← sees "." then
      if ← sees "..." then return false
      skip 1
      skipWhile isWordChar
      return true
    else return false

/-- Where the reading of a type stands: before an operand or behind one, and whether a `?` may
follow. -/
structure TypeState where
  operand : Bool := true
  condition : Bool := false

/-- Reads an operand of a type; `none` if there is none. The state says what follows. -/
def typeOperand (rec : Parts) (s : TypeState) : Read (Option (List Node × TypeState)) := do
  let done : TypeState := { s with operand := false }
  match ← next? with
  | none => return none
  | some c =>
    if isQuote c then return some ([← string], done)
    else if c = '\x60' then return some ([← rec (.template true)], done)
    else if c = '(' then
      let n ← rec .balanced
      return some ([n], if ← acceptText "=>" then s else done)
    else if c = '\x7b' || c = '[' then return some ([← rec .balanced], done)
    else if c = '<' then return some ([← typeArguments rec], s)
    else if c = '|' || c = '&' || c = '-' then
      skip 1
      return some ([], s)
    else if numberLength (← get).rest != 0 then
      skip (numberLength (← get).rest)
      return some ([], done)
    else if isWordStart c then
      let w ← word
      skip w.length
      let inner ← lookahead do
        let line ← blanks
        return !line &&
          (← seesChar fun c => isWordStart c || isOpener c || isQuote c || (w == "new" && c = '<'))
      if typeMarks.contains w && inner then return some ([], s)
      else
        dottedNames
        let call ← if w == "import" && (← sees "(") then pure [← rec .balanced] else pure []
        dottedNames
        let args ← if ← sees "<" then pure [← typeArguments rec] else pure []
        return some (call ++ args, done)
    else return none

/-- Reads what follows an operand of a type; `none` if the type is over. -/
def typeOperator (rec : Parts) (s : TypeState) : Read (Option (List Node × TypeState)) := do
  let before ← get
  let line ← blanks
  let next : TypeState := { s with operand := true }
  let w ← word
  if ((← sees "|") && !(← sees "||")) || ((← sees "&") && !(← sees "&&")) then
    skip 1
    return some ([], next)
  else if (← sees "[") && !line then return some ([← rec .balanced], s)
  else if w == "extends" then
    skip w.length
    return some ([], { operand := true, condition := true })
  else if w == "is" && !line then
    skip w.length
    return some ([], next)
  else if s.condition && (← sees "?") then
    skip 1
    let n ← rec .type
    expect ":"
    return some ([n], { operand := true })
  else
    set before
    return none

/-- The rounds of `typeBody`. -/
def typeRounds (rec : Parts) : Nat → TypeState → List Node → Read (List Node)
  | 0, _, found => return found
  | fuel + 1, s, found => do
    let step ← if s.operand then typeOperand rec s else typeOperator rec s
    match step with
    | some (nodes, s) => typeRounds rec fuel s (found ++ nodes)
    | none =>
      if s.operand then fault
      return found

def typeBody (rec : Parts) : Read Node := do
  let _ ← blanks
  let start ← position
  let found ← typeRounds rec ((← get).left + 1) {} []
  close "type" start found

def typeTag (rec : Parts) : Read (List Node) := do
  let _ ← blanks
  let start ← position
  if ← accept ":" then
    let n ← rec .type
    return [← close "type_annotation" start [n]]
  else return []

end Redact.Syntax.Ecma
