import Redact.Syntax.Ecma.Expression

/-! # Statements

Heads of compound statements are statements of their own here: what they govern follows them, and
where it ends does not matter. A declaration holds a `variable_declarator` for each name or pattern
that it binds. -/

namespace Redact.Syntax.Ecma

open Read

def declarator (rec : Parts) (inAllowed : Bool) : Read Node := do
  let _ ← blanks
  let start ← position
  let name ← rec .pattern
  let before ← get
  let _ ← acceptText "!"
  let type ← typeTag rec
  if type.isEmpty then set before
  let before ← get
  let _ ← blanks
  if (← sees "=") && !(← sees "==") && !(← sees "=>") then
    skip 1
    let value ← rec (.expression inAllowed)
    let children := name :: type ++ [value]
    return .mk "variable_declarator" start value.stop children
      [("name", 0), ("value", children.length - 1)]
  else
    set before
    return .mk "variable_declarator" start (← position) (name :: type) [("name", 0)]

def moreDeclarators (rec : Parts) (inAllowed : Bool) : Read (List Node) :=
  gather do
    if ← acceptText "," then return some [← declarator rec inAllowed] else return none

def bindingWords : List String := ["var", "let", "const", "using"]

/-- Behind the word `w` follows something that it can declare. -/
def declares (w : String) : Read Bool :=
  lookahead do
    skip w.length
    let line ← blanks
    let follower ← word
    let named := !follower.isEmpty && !(["in", "of", "instanceof"].contains follower)
    let pattern ← seesChar fun c => c = '[' || c = '\x7b'
    return if w == "using" then named && !line else named || pattern

/-- Reads the head of a loop: its parts between semicolons, or what it runs over. What is bound to
each item in turn is bound to no value. -/
def forHead (rec : Parts) : Read (List Node) := do
  let _ ← acceptWord "await"
  if !(← acceptText "(") then
    fault
    return []
  let w ← word
  let first ←
    if bindingWords.contains w && (← declares w) then do
      skip w.length
      let n ← declarator rec false
      let each ← lookahead (return (← acceptWord "of") || (← acceptWord "in"))
      if each then pure [.mk "loop_binding" n.start n.stop n.children []]
      else pure (n :: (← moreDeclarators rec false))
    else
      match ← next? with
      | some ';' => pure []
      | _ => pure [← rec (.sequence false)]
  let subject ← if (← acceptWord "of") || (← acceptWord "in") then pure [← rec (.sequence true)] else pure []
  let others ← gather do
    match ← next? with
    | none => return none
    | some c =>
      if isCloser c || c = '\x7b' then return none
      else if c = ';' then skip 1; return some []
      else return some [← rec (.sequence true)]
  expect ")"
  return first ++ subject ++ others

def moduleName (rec : Parts) : Read (List Node) := do
  if ((← next?)).any isQuote then
    let n ← string
    if (← acceptWord "with") || (← acceptWord "assert") then
      if (← next?) == some '\x7b' then return [n, ← rec .balanced]
    return [n]
  else return []

def importRest (rec : Parts) : Read (List Node) := do
  let clause ← gather do
    match ← next? with
    | none => return none
    | some c =>
      if c = '\x7b' then return some [← rec .balanced]
      else if c = '(' then return some [← rec .parens]
      else if isWordChar c then skipWhile isWordChar; return some []
      else if c = '*' || c = ',' || c = '=' || c = '.' then skip 1; return some []
      else return none
  return clause ++ (← moduleName rec)

/-- Reads an export behind its keyword, as far as it is no declaration. -/
def exportRest (rec : Parts) : Read (List Node) := do
  let typed ← lookahead do
    let named ← acceptWord "type"
    let c ← next?
    return named && (c == some '\x7b' || c == some '*')
  if typed then let _ ← acceptWord "type"
  if ← acceptWord "default" then
    let w ← word
    let declared ← lookahead do
      let _ ← acceptWord "async"
      return (← word) == "function"
    if declared || ["class", "abstract", "interface"].contains w then return []
    else return [← rec (.expression true)]
  else if ← acceptWord "as" then
    let _ ← acceptWord "namespace"
    let w ← word
    skip w.length
    return []
  else
    match ← next? with
    | some '\x7b' =>
      let names ← rec .balanced
      let _ ← acceptWord "from"
      return names :: (← moduleName rec)
    | some '*' =>
      skip 1
      loop do
        let w ← word
        skip w.length
        return !w.isEmpty
      moduleName rec
    | some '=' =>
      skip 1
      return [← rec (.sequence true)]
    | _ => return []

/-- The word `w` is followed by a word on the same line. -/
def wordFollows (w : String) : Read Bool :=
  lookahead do
    skip w.length
    let line ← blanks
    let follower ← word
    return !line && !follower.isEmpty &&
      !(["in", "of", "instanceof", "as", "satisfies", "is"].contains follower)

/-- Reads a statement of TypeScript that starts with the word `w`; `none` if it is not one. -/
def typeStatement (rec : Parts) (w : String) : Read (Option (List Node)) := do
  let name : Read Unit := do
    skip w.length
    let n ← word
    skip n.length
    dottedNames
  if w == "type" && (← wordFollows w) then
    name
    let params ← if (← next?) == some '<' then pure [← typeArguments rec] else pure []
    expect "="
    return some (params ++ [← rec .type])
  else if w == "interface" && (← wordFollows w) then
    name
    let above ← gather do
      match ← next? with
      | some '<' => return some [← typeArguments rec]
      | some ',' => skip 1; return some []
      | some c =>
        if isWordChar c then
          skipWhile isWordChar
          dottedNames
          return some []
        else return none
      | none => return none
    let body ← if (← next?) == some '\x7b' then pure [← rec .balanced] else pure []
    return some (above ++ body)
  else if w == "enum" && (← wordFollows w) then
    name
    let body ← if (← next?) == some '\x7b' then pure [← object rec] else pure []
    return some body
  else if w == "namespace" && (← wordFollows w) then
    name
    return some []
  else if w == "module" then
    if ← wordFollows w then
      name
      return some []
    else if ← lookahead (do skip w.length; return !(← blanks) && (← seesChar isQuote)) then
      skip w.length
      return some (← moduleName rec)
    else return none
  else if (w == "declare" || w == "abstract") && (← wordFollows w) then
    skip w.length
    return some []
  else if w == "global" && (← lookahead (do skip w.length; return (← next?) == some '\x7b')) then
    skip w.length
    return some []
  else return none

/-- Reads a statement that starts with the word `w`; `none` if the word starts an expression. -/
def keywordStatement (d : Dialect) (rec : Parts) (w : String) : Read (Option (List Node)) := do
  let after ← lookahead do
    skip w.length
    let line ← blanks
    return (line, ← peek?, ← word)
  let (line, follower, following) := after
  if w == "const" && following == "enum" && d = .typescript then
    skip w.length
    return some []
  else if bindingWords.contains w && (← declares w) then
    skip w.length
    let first ← declarator rec true
    return some (first :: (← moreDeclarators rec true))
  else if w == "await" && following == "using" && !line then
    skip w.length
    return some []
  else if w == "function" then return some [← function rec]
  else if w == "async" && following == "function" && !line then
    skip w.length
    return some [← function rec]
  else if w == "class" then return some [← classLiteral rec]
  else if ["if", "while", "with", "switch"].contains w then
    skip w.length
    if (← next?) == some '(' then return some [← rec .parens] else return some []
  else if w == "for" then
    skip w.length
    return some (← forHead rec)
  else if ["do", "else", "try", "finally", "debugger"].contains w then
    skip w.length
    return some []
  else if w == "catch" then
    skip w.length
    if (← next?) == some '(' then return some [← rec .params] else return some []
  else if w == "case" then
    skip w.length
    let n ← rec (.sequence true)
    expect ":"
    return some [n]
  else if w == "default" then
    skip w.length
    expect ":"
    return some []
  else if w == "return" || w == "throw" then
    skip w.length
    if line || follower.all fun c => isCloser c || c = ';' then return some []
    else return some [← rec (.sequence true)]
  else if w == "break" || w == "continue" then
    skip w.length
    if !line then
      let _ ← blanks
      skip following.length
    return some []
  else if w == "import" && follower != some '(' && follower != some '.' then
    skip w.length
    return some (← importRest rec)
  else if w == "export" then
    skip w.length
    return some (← exportRest rec)
  else if follower == some ':' then
    skip w.length
    expect ":"
    return some []
  else if d = .typescript then typeStatement rec w
  else return none

def statements (rec : Parts) : Read (List Node) :=
  gather do
    match ← next? with
    | none | some '\x7d' => return none
    | some _ => return some [← rec .statement]

def statementBody (d : Dialect) (rec : Parts) : Read Node := do
  let _ ← blanks
  let start ← position
  let left := (← get).left
  if ← accept "\x7b" then
    let inner ← statements rec
    expect "\x7d"
    close "statement_block" start inner
  else if ← accept ";" then close "statement" start []
  else if ← accept "@" then
    let n ← rec .operand
    close "statement" start [n]
  else
    let w ← word
    let found ← if w.isEmpty then pure none else keywordStatement d rec w
    let found ← match found with
      | some nodes => pure nodes
      | none => pure [← rec (.sequence true)]
    let _ ← acceptText ";"
    if (← get).left == left then
      skip 1
      fault
    close "statement" start found

end Redact.Syntax.Ecma
