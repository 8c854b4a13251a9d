import Redact.Syntax.Ecma.Type

/-! # Expressions

An expression is a row of operands with operators before and between them. An operand is something
simple with members, subscripts and calls behind it; it is the left side of the `=` that follows
it. Precedence does not matter here: what counts is which operand stands before an `=`, and whether
the right side is one operand alone. -/

namespace Redact.Syntax.Ecma

open Read

def number : Read Node := do
  let start ← position
  skip (numberLength (← get).rest)
  close "number" start []

/-- Reads members of an object or of an enumeration: keys, values, defaults and methods. -/
def objectMember (rec : Parts) : Read (Option (List Node)) := do
  let c? ← next?
  let start ← position
  match c? with
  | none => return none
  | some c =>
    if isCloser c || c = ';' then return none
    else if c = '(' then
      let params ← rec .params
      let type ← typeTag rec
      let body ← if (← next?) == some '\x7b' then pure [← rec .statement] else pure []
      return some (params :: type ++ body)
    else if c = '<' then return some [← typeArguments rec]
    else if c = ':' then
      skip 1
      return some [← rec (.expression true)]
    else if c = '=' then
      skip 1
      let n ← rec (.expression true)
      return some [← close "default" start [n]]
    else if c = '[' then
      skip 1
      let n ← rec (.sequence true)
      expect "]"
      return some [← close "computed_key" start [n]]
    else if isQuote c then return some [← string]
    else if ← sees "..." then return some [← rec (.expression true)]
    else if numberLength (← get).rest != 0 then return some [← number]
    else if isWordChar c then
      skipWhile isWordChar
      return some []
    else if c = ',' || c = '*' || c = '#' || c = '.' then
      skip 1
      return some []
    else return none

/-- Reads an object, an object pattern, or the body of an enumeration. -/
def object (rec : Parts) : Read Node := do
  let start ← position
  skip 1
  let found ← gather (objectMember rec)
  expect "\x7d"
  close "object" start found

def array (rec : Parts) : Read Node := do
  let start ← position
  skip 1
  let found ← gather do
    match ← next? with
    | none => return none
    | some c =>
      if isCloser c || c = ';' then return none
      else if c = ',' then skip 1; return some []
      else return some [← rec (.expression true)]
  expect "]"
  close "array" start found

/-- Reads the pattern that a binding starts with: a name, an object or an array. -/
def patternBody (rec : Parts) : Read Node := do
  match ← next? with
  | some '\x7b' => return toPattern (← object rec)
  | some '[' => return toPattern (← array rec)
  | _ =>
    let start ← position
    let w ← word
    if w.isEmpty then missing
    else
      skip w.length
      close "identifier" start []

/-- Reads an expression in parentheses; in TypeScript it may be a parameter with a type and a
default. -/
def parensItem (d : Dialect) (rec : Parts) : Read (List Node) := do
  match ← next? with
  | none => return []
  | some c =>
    if isCloser c || c = ';' then return []
    else
      let n ← rec (.expression true)
      if d = .typescript then
        let _ ← acceptText "?"
        let type ← typeTag rec
        let value ← if (← next?) == some '=' then pure [← rec (.expression true)] else pure []
        return n :: type ++ value
      else return [n]

/-- Reads expressions in parentheses: one in brackets, the arguments of a call, or the parameters
of an arrow function. -/
def parensBody (d : Dialect) (rec : Parts) : Read Node := do
  let start ← position
  skip 1
  let first ← parensItem d rec
  let more ← gather do
    if ← acceptText "," then return some (← parensItem d rec) else return none
  expect ")"
  close "parenthesized_expression" start (first ++ more)

def paramsBody (rec : Parts) : Read Node := do
  let start ← position
  skip 1
  let found ← gather do
    let c? ← next?
    let start ← position
    match c? with
    | none => return none
    | some c =>
      if c = '\x7b' || c = '[' then return some [← rec .pattern]
      else if c = ':' then return some (← typeTag rec)
      else if c = '=' then
        skip 1
        let n ← rec (.expression true)
        return some [← close "default" start [n]]
      else if c = '@' then
        skip 1
        return some [← rec .operand]
      else if isWordStart c then
        skipWhile isWordChar
        return some []
      else if c = ',' || c = '.' || c = '?' then
        skip 1
        return some []
      else return none
  expect ")"
  close "formal_parameters" start found

/-- Reads parameters, the type of the result and the body of a function, as far as they are
there. -/
def functionRest (rec : Parts) : Read (List Node) := do
  let types ← if (← next?) == some '<' then pure [← typeArguments rec] else pure []
  let params ← if (← next?) == some '(' then pure [← rec .params] else pure []
  let type ← typeTag rec
  let body ← if (← next?) == some '\x7b' then pure [← rec .statement] else pure []
  return types ++ params ++ type ++ body

def function (rec : Parts) : Read Node := do
  let _ ← blanks
  let start ← position
  skip "function".length
  let _ ← acceptText "*"
  let w ← word
  skip w.length
  let found ← functionRest rec
  close "function" start found

def classMember (rec : Parts) : Read (Option (List Node)) := do
  let c? ← next?
  let start ← position
  match c? with
  | none => return none
  | some c =>
    if isCloser c then return none
    else if c = '\x7b' then return some [← rec .statement]
    else if c = '(' || c = '<' then return some (← functionRest rec)
    else if c = ':' then return some (← typeTag rec)
    else if c = '=' then
      skip 1
      let n ← rec (.expression true)
      return some [← close "field_value" start [n]]
    else if c = '[' then
      skip 1
      let n ← rec (.sequence true)
      let type ← typeTag rec
      expect "]"
      return some [← close "computed_key" start (n :: type)]
    else if c = '@' then
      skip 1
      return some [← rec .operand]
    else if isQuote c then return some [← string]
    else if numberLength (← get).rest != 0 then return some [← number]
    else if isWordChar c then
      skipWhile isWordChar
      return some []
    else if [';', ',', '*', '#', '?', '!', '.'].contains c then
      skip 1
      return some []
    else return none

def heritage (rec : Parts) : Read (List Node) :=
  gather do
    let w ← word
    if w == "extends" then
      skip w.length
      return some [← rec .operand]
    else if w == "implements" then
      skip w.length
      return some [← rec .type]
    else if ← accept "," then return some [← rec .type]
    else if ← sees "<" then return some [← typeArguments rec]
    else return none

def classLiteral (rec : Parts) : Read Node := do
  let _ ← blanks
  let start ← position
  skip "class".length
  let w ← word
  if !(["extends", "implements"].contains w) then skip w.length
  let above ← heritage rec
  if (← next?) == some '\x7b' then
    skip 1
    let members ← gather (classMember rec)
    expect "\x7d"
    close "class" start (above ++ members)
  else
    fault
    close "class" start above

def seesArrow : Read Bool :=
  lookahead do
    let line ← blanks
    return !line && (← sees "=>")

def wordOperand (d : Dialect) (rec : Parts) (w : String) : Read Node := do
  let start ← position
  if w == "function" then function rec
  else if w == "class" then classLiteral rec
  else
    skip w.length
    if w == "new" then
      if ← acceptText "." then
        skipWhile isWordChar
        close "identifier" start []
      else
        let n ← rec .operand
        close "new_expression" start [n]
    else if w == "async" then
      let follower ← lookahead do
        let line ← blanks
        let w ← word
        skip w.length
        let arrow ← seesArrow
        return if line || w.isEmpty then "" else if arrow then "=>" else w
      if follower == "function" then function rec
      else if follower == "=>" then
        let n ← rec .pattern
        close n.kind start [n]
      else if ← lookahead (return !(← blanks) && (← sees "(")) then
        let _ ← blanks
        let args ← rec .parens
        close "parenthesized_expression" start args.children
      else if d = .typescript && (← lookahead (return !(← blanks) && (← sees "<"))) then
        let typed : Read (Option Node) := do
          let _ ← blanks
          let types ← typeArguments rec
          if (← next?) == some '(' then
            let args ← rec .parens
            return some (← close "parenthesized_expression" start (types :: args.children))
          else return none
        match ← attempt typed fun n b a => n.isSome && a.faults == b.faults with
        | some (some n) => return n
        | _ => close "identifier" start []
      else close "identifier" start []
    else close "identifier" start []

def primary (d : Dialect) (rec : Parts) : Read Node := do
  let c? ← next?
  let start ← position
  match c? with
  | none => missing
  | some c =>
    if isQuote c then string
    else if c = '\x60' then rec (.template false)
    else if numberLength (← get).rest != 0 then number
    else if c = '(' then rec .parens
    else if c = '[' then array rec
    else if c = '\x7b' then object rec
    else if c = '/' then regex
    else if c = '<' && d = .javascript then rec .element
    else if c = '#' then
      skip 1
      skipWhile isWordChar
      close "private_name" start []
    else if c = '@' then
      skip 1
      let mark ← rec .operand
      let n ← rec .operand
      close "expression" start [mark, n]
    else if isWordStart c then wordOperand d rec (← word)
    else missing

def callFollows (c : Cursor) : Bool :=
  (((next?).run c).1).any fun c => c = '(' || c = '\x60'

/-- Reads a member, a subscript, a call or the like behind `n`; `none` if there is none. -/
def chainLink (d : Dialect) (rec : Parts) (n : Node) : Read (Option Node) := do
  let before ← get
  let line ← blanks
  let optional ← match (← get).rest with
    | '?' :: '.' :: c :: _ => if c.isDigit then pure false else skip 2; pure true
    | _ => pure false
  let _ ← if optional then blanks else pure false
  match (← get).rest with
  | '[' :: _ =>
    skip 1
    let key ← rec (.sequence true)
    expect "]"
    return some (← close "subscript_expression" n.start [n, key])
  | '(' :: _ =>
    let args ← rec .parens
    return some (← close "call_expression" n.start [n, args])
  | '\x60' :: _ =>
    let t ← rec (.template false)
    return some (← close "call_expression" n.start [n, t])
  | cs =>
    if optional || ((← sees ".") && !(← sees "..")) then
      if !optional then skip 1
      let _ ← blanks
      let _ ← accept "#"
      if ← seesChar isWordChar then skipWhile isWordChar else fault
      return some (← close "member_expression" n.start [n])
    else if !line && ((← sees "++") || (← sees "--")) then
      skip 2
      return some (← close "update_expression" n.start [n])
    else if d = .typescript && !line && cs.head? == some '!' && (cs.drop 1).head? != some '=' then
      skip 1
      return some (← close "non_null_expression" n.start [n])
    else if d = .typescript && cs.head? == some '<' then
      match ← attempt (typeArguments rec) fun _ b a => a.faults == b.faults && callFollows a with
      | some args => return some (← close "instantiation" n.start [n, args])
      | none => set before; return none
    else
      set before
      return none

def chain (d : Dialect) (rec : Parts) : Nat → Node → Read Node
  | 0, n => return n
  | fuel + 1, n => do
    match ← chainLink d rec n with
    | some n => chain d rec fuel n
    | none => return n

/-- Reads the body of an arrow function with the parameters `n` and the type of its result, if an
arrow follows. -/
def arrowRest (rec : Parts) (n : Node) (type : List Node) : Read Node := do
  if ← seesArrow then
    let _ ← acceptText "=>"
    let body ← if (← next?) == some '\x7b' then rec .statement else rec (.expression true)
    close "arrow_function" n.start (toParams n :: type ++ [body])
  else return n

def operandBody (d : Dialect) (rec : Parts) : Read Node := do
  let n ← primary d rec
  let type? ←
    if d = .typescript && n.kind == "parenthesized_expression" then
      attempt (typeTag rec) fun t b a => !t.isEmpty && a.faults == b.faults && (seesArrow.run a).1
    else pure none
  match type? with
  | some type => arrowRest rec n type
  | none =>
    let n ← if ← seesArrow then pure n else chain d rec ((← get).left + 1) n
    arrowRest rec n []

def operators : List String :=
  [">>>", "===", "!==", "**", "<<", ">>", "&&", "||", "??", "==", "!=", "<=", ">=", "+", "-", "*",
    "/", "%", "<", ">", "&", "|", "^"]

def updates : List String :=
  [">>>=", "**=", "<<=", ">>=", "&&=", "||=", "??=", "+=", "-=", "*=", "/=", "%=", "&=", "|=", "^="]

def seesOne (texts : List String) : Read (Option String) := do
  let cs := (← get).rest
  return texts.find? fun s => s.toList.isPrefixOf cs

/-- Words that cannot start an operand in the middle of an expression. -/
def stopWords : List String :=
  ["of", "in", "instanceof", "else", "while", "case", "default", "catch", "finally", "from", "as",
    "satisfies", "is", "extends", "implements"]

def seesOperand : Read Bool :=
  seesChar fun c => isWordChar c || isQuote c || isOpener c || "\x60/+-!~<#".toList.contains c

/-- The state of an expression: what was read of it, last first; whether it is more than an operand;
whether an operand comes next. -/
structure Row where
  parts : List Node := []
  compound : Bool := false
  operand : Bool := true

/-- Reads an operand with the operators before it and an assignment to it; `false` says that the
expression is over. -/
def rowOperand (d : Dialect) (rec : Parts) (inAllowed : Bool) (r : Row) : Read (Row × Bool) := do
  let _ ← blanks
  let w ← word
  let cs := (← get).rest
  let marked : Row := { r with compound := true }
  let awaits ← lookahead do
    skip w.length
    let _ ← blanks
    seesOperand
  if ← accept "..." then return (marked, true)
  else if (← accept "++") || (← accept "--") then return (marked, true)
  else if cs.head?.any "!~+-".toList.contains then
    skip 1
    return (marked, true)
  else if (← sees "=") && !(← sees "==") && !(← sees "=>") then
    skip 1
    fault
    return (r, true)
  else if d = .typescript && (← sees "<") then
    let types ← typeArguments rec
    return ({ marked with parts := types :: r.parts }, true)
  else if ["typeof", "void", "delete"].contains w || (w == "await" && awaits) then
    skip w.length
    return (marked, true)
  else if w == "yield" then
    skip w.length
    let line ← lookahead blanks
    let _ ← acceptText "*"
    if !line && (← seesOperand) then
      return ({ marked with parts := (← rec (.expression inAllowed)) :: r.parts }, false)
    else return (marked, false)
  else
    let n ← rec .operand
    let before ← get
    let _ ← blanks
    let start := n.start
    if (← sees "=") && !(← sees "==") && !(← sees "=>") then
      skip 1
      let right ← rec (.expression inAllowed)
      let a : Node := .mk "assignment_expression" start right.stop [toPattern n, right]
        [("left", 0), ("right", 1)]
      return ({ r with parts := a :: r.parts }, false)
    else
      match ← seesOne updates with
      | some op =>
        skip op.length
        let right ← rec (.expression inAllowed)
        let a : Node := .mk "augmented_assignment_expression" start right.stop [n, right]
          [("left", 0), ("right", 1)]
        return ({ r with parts := a :: r.parts }, false)
      | none =>
        set before
        return ({ r with parts := n :: r.parts, operand := false }, true)

/-- The `?` here marks an optional parameter. -/
def seesOptional : Read Bool :=
  lookahead do
    skip 1
    let _ ← blanks
    seesChar [':', ',', ')', '='].contains

/-- Reads an operator behind an operand; `false` says that the expression is over. Two operands
without an operator between them on a line are taken as one expression. -/
def rowOperator (d : Dialect) (rec : Parts) (inAllowed : Bool) (r : Row) : Read (Row × Bool) := do
  let before ← get
  let line ← blanks
  let w ← word
  let next : Row := { r with compound := true, operand := true }
  match ← seesOne operators with
  | some op =>
    skip op.length
    return (next, true)
  | none =>
    if (← sees "?") && !(d = .typescript && (← seesOptional)) then
      skip 1
      let a ← rec (.expression true)
      expect ":"
      let b ← rec (.expression inAllowed)
      return ({ r with parts := b :: a :: r.parts, compound := true }, false)
    else if w == "instanceof" || (w == "in" && inAllowed) then
      skip w.length
      return (next, true)
    else if d = .typescript && !line && (w == "as" || w == "satisfies") then
      skip w.length
      let t ← rec .type
      return ({ r with parts := t :: r.parts, compound := true }, true)
    else if !line && !stopWords.contains w && (← seesChar fun c => isWordChar c || isQuote c) then
      fault
      return (next, true)
    else
      set before
      return (r, false)

/-- The rounds of `expressionBody`. -/
def rowRounds (d : Dialect) (rec : Parts) (inAllowed : Bool) : Nat → Row → Read Row
  | 0, r => return r
  | fuel + 1, r => do
    let left := (← get).left
    let (next, goOn) ←
      if r.operand then rowOperand d rec inAllowed r else rowOperator d rec inAllowed r
    if goOn && ((← get).left < left || next.operand != r.operand) then
      rowRounds d rec inAllowed fuel next
    else return next

def expressionBody (d : Dialect) (rec : Parts) (inAllowed : Bool) : Read Node := do
  let _ ← blanks
  let start ← position
  let r ← rowRounds d rec inAllowed (2 * (← get).left + 4) {}
  match r.compound, r.parts with
  | false, [n] => return n
  | _, parts => close "expression" start parts.reverse

def sequenceBody (rec : Parts) (inAllowed : Bool) : Read Node := do
  let _ ← blanks
  let start ← position
  let first ← rec (.expression inAllowed)
  let more ← gather do
    if ← acceptText "," then return some [← rec (.expression inAllowed)] else return none
  if more.isEmpty then return first else close "sequence_expression" start (first :: more)

end Redact.Syntax.Ecma
