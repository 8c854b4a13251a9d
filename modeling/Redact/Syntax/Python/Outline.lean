import Redact.Syntax.Python.Literal
import Redact.Text.Blank

/-! # Outlines of Python sources

A tree of a Python source with the nodes that matter here: assignments with their sides, strings
with what is interpolated into them, and numbers. What stands between them is kept as `expression`
nodes or left out.

A source is read as logical lines. A line is cut into items at the top level of brackets: literals,
words, bracketed groups, and operators. The header of a compound statement ends at its colon;
every statement behind it is looked at for `=`. -/

namespace Redact.Syntax.Python

open Read

/-- What may be nested in other things: the inside of brackets, a string, and what is interpolated
into a string. -/
inductive Part where
  | group
  | string (o : Opening)
  | interpolation

def isWordChar (c : Char) : Bool :=
  c.isAlphanum || c = '_' || (0x80 ≤ c.toNat && !Text.isBlank c)

def isSpace (c : Char) : Bool :=
  c != '\n' && (Text.isBlank c || c = '\uFEFF' || c = '\u2060' || c = '\u200B')

/-- Skips blanks, comments and continued line ends, and with `lines` also line ends. -/
def blanks (lines : Bool) : Read Unit :=
  loop do
    skipWhile fun c => isSpace c || (lines && c = '\n')
    if ← seesChar (· = '#') then
      skipWhile (· != '\n')
      return true
    else if ← sees "\\\n" then
      skip 2
      return true
    else if ← sees "\\\r\n" then
      skip 3
      return true
    else return false

/-- Reads a string up to its closing quote. A string that is not closed ends with its line, or with
the source if its quote is written three times, and is no node. -/
def stringBody (rec : Part → Read (List Node)) (o : Opening) : Read (List Node) := do
  let start ← position
  skip o.length
  let parts ← gather do
    let rest := (← get).rest
    if o.delimiter.isPrefixOf rest then return none
    match rest with
    | [] => return none
    | '\n' :: _ => if o.triple then skip 1; return some [] else return none
    | '\\' :: '\r' :: '\n' :: _ => skip 3; return some []
    | '\\' :: c :: _ =>
      skip (if o.format && (c = '\x7b' || c = '\x7d') then 1 else 2)
      return some []
    | '\x7b' :: '\x7b' :: _ | '\x7d' :: '\x7d' :: _ => skip 2; return some []
    | '\x7b' :: _ => if o.format then return some (← rec .interpolation) else skip 1; return some []
    | _ => skip 1; return some []
  if o.delimiter.isPrefixOf (← get).rest then
    skip o.delimiter.length
    return [← close "string" start parts]
  else
    fault
    return []

/-- Reads one lexical item that is no bracket: a string, a number, a word or an operator. -/
def item (rec : Part → Read (List Node)) : Read (List Node) := do
  let cs := (← get).rest
  match opening? cs with
  | some o => rec (.string o)
  | none =>
    match number? cs with
    | some (kind, n) =>
      let start ← position
      skip n
      return [← close kind start []]
    | none =>
      if ← seesChar isWordChar then skipWhile isWordChar
      else skip (((operators.find? fun s => s.toList.isPrefixOf cs).map String.length).getD 1)
      return []

def isOpener (c : Char) : Bool := c = '(' || c = '[' || c = '\x7b'

def isCloser (c : Char) : Bool := c = ')' || c = ']' || c = '\x7d'

/-- Reads a bracketed group with its brackets; a closing bracket of any kind ends it. -/
def groupBody (rec : Part → Read (List Node)) : Read (List Node) := do
  skip 1
  let found ← gather do
    blanks true
    match ← peek? with
    | none => return none
    | some c =>
      if isCloser c then return none
      else if isOpener c then return some (← rec .group)
      else return some (← item rec)
  if ← seesChar isCloser then skip 1 else fault
  return found

/-- Reads what stands behind the colon of an interpolation: anything up to the closing brace, with
interpolations of its own. -/
def formatBody (rec : Part → Read (List Node)) : Read (List Node) :=
  gather do
    match ← peek? with
    | none | some '\n' | some '\x7d' => return none
    | some '\x7b' => return some (← rec .interpolation)
    | some _ => skip 1; return some []

def interpolationBody (rec : Part → Read (List Node)) : Read (List Node) := do
  let start ← position
  skip 1
  let found ← gather do
    blanks true
    let cs := (← get).rest
    match cs with
    | [] | '\x7d' :: _ | ':' :: _ => return none
    | '!' :: c :: _ => if c = '=' then skip 2; return some [] else return none
    | c :: _ =>
      if isCloser c then return none
      else if isOpener c then return some (← rec .group)
      else return some (← item rec)
  if ← accept "!" then skipWhile isWordChar
  blanks true
  let format ← if ← accept ":" then formatBody rec else pure []
  if !(← accept "\x7d") then fault
  return [← close "interpolation" start (found ++ format)]

def partBody (rec : Part → Read (List Node)) : Part → Read (List Node)
  | .group => groupBody rec
  | .string o => stringBody rec o
  | .interpolation => interpolationBody rec

/-- Reads a part with at most `depth` parts inside each other. -/
def part : Nat → Part → Read (List Node)
  | 0, _ => return []
  | depth + 1, p => partBody (part depth) p

/-- A side of an assignment: its items and, behind a colon, those of its type. -/
structure Side where
  items : List Node := []
  typed : Option (List Node) := none

/-- A statement as far as it is read: the sides before the last `=` with the operator behind each,
the side under way (items last first), the first word, and the number of `lambda`s whose colon is
still to come, before which a `=` gives a default. -/
structure Draft where
  sides : List (Side × Bool) := []
  items : List Node := []
  typed : Option (List Node) := none
  first : Option String := none
  lambdas : Nat := 0
  count : Nat := 0

/-- The node of a side: the only item, or an expression of all of them. -/
def sideNode (items : List Node) : Option Node :=
  match items with
  | [] => none
  | [n] => some n
  | n :: rest =>
    let stop := ((n :: rest).getLast?.map Node.stop).getD n.stop
    let kind := if (n :: rest).all (·.kind == "string") then "concatenated_string" else "expression"
    some (.mk kind n.start stop (n :: rest) [])

def typeNode (items : List Node) : Option Node :=
  (sideNode items).map fun n => .mk "type" n.start n.stop [n] []

/-- An assignment of `right` to a side; with `update` the old value goes into the new one. -/
def bind (left : Side) (update : Bool) (right : Option Node) : Option Node :=
  match sideNode left.items with
  | none => right
  | some target =>
    let type := (left.typed.bind typeNode).toList
    match right, left.typed with
    | none, none => some target
    | _, _ =>
      let children := target :: type ++ right.toList
      let stop := (children.getLast?.map Node.stop).getD target.stop
      let fields := ("left", 0) :: (type.map fun _ => ("type", 1)) ++
        (right.toList.map fun _ => ("right", children.length - 1))
      some (.mk (if update then "augmented_assignment" else "assignment") target.start stop children
        fields)

/-- The statement of a draft: its sides bound from the right to the left. -/
def Draft.node (d : Draft) (bindings : Bool) : Option Node :=
  let last : Side := ⟨d.items.reverse, d.typed.map List.reverse⟩
  if bindings then
    let value := match last.typed with
      | some _ => bind last false none
      | none => sideNode last.items
    d.sides.foldl (fun right (side, update) => bind side update right) value
  else
    sideNode ((d.sides.reverse.flatMap fun (s, _) => s.items ++ s.typed.getD []) ++ last.items ++
      last.typed.getD [])

def Draft.add (d : Draft) (n : Node) : Draft :=
  match d.typed with
  | some ts => { d with typed := some (n :: ts), count := d.count + 1 }
  | none => { d with items := n :: d.items, count := d.count + 1 }

/-- The draft behind an assignment operator. A second `=` right behind the first one adds nothing. -/
def Draft.split (d : Draft) (update : Bool) : Draft :=
  if d.items.isEmpty && !d.sides.isEmpty then d
  else
    { d with
      sides := (⟨d.items.reverse, d.typed.map List.reverse⟩, update) :: d.sides
      items := []
      typed := none }

def headWords : List String :=
  ["if", "elif", "else", "while", "for", "try", "except", "finally", "with", "def", "class", "async"]

/-- The statement is a compound one whose header ends at the next colon. -/
def Draft.isHeader (d : Draft) : Bool :=
  match d.first with
  | none => false
  | some w =>
    headWords.contains w ||
      ((w == "match" || w == "case") && d.count ≥ 2 && d.sides.isEmpty && d.typed.isNone)

/-- The statement only gives a type a name. -/
def Draft.isAlias (d : Draft) : Bool :=
  d.first == some "type" &&
    match d.sides.getLast? with
    | some (s, _) => (s.items[1]?).any (·.kind == "identifier")
    | none => false

/-- The sides of a statement are looked at unless it is a header or gives a type a name. -/
def Draft.finish (d : Draft) : List Node :=
  (d.node (!(d.first.any headWords.contains || d.isAlias))).toList

def nameOfDefinition (rec : Part → Read (List Node)) : Read (List Node) :=
  gather do
    blanks true
    match ← peek? with
    | none => return none
    | some c =>
      if isWordChar c && !c.isDigit then return none
      else if isOpener c then return some (← rec .group)
      else return some (← item rec)

/-- Reads the next item of a statement into its draft; `none` if the statement is over. -/
def draftStep (rec : Part → Read (List Node)) (d : Draft) : Read (Option Draft) := do
  blanks false
  let cs := (← get).rest
  let start ← position
  match cs with
  | [] | '\n' :: _ | ';' :: _ => return none
  | c :: _ =>
    if isOpener c then
      let inside ← rec .group
      return some (d.add (← close "expression" start inside))
    else if isCloser c then
      skip 1
      fault
      return some d
    else if (opening? cs).isNone && (number? cs).isNone && isWordChar c then
      let word := String.ofList (cs.takeWhile isWordChar)
      skipWhile isWordChar
      let node ← close "identifier" start []
      let d := { d with first := d.first <|> some word }
      let d := d.add node
      if word == "lambda" then return some { d with lambdas := d.lambdas + 1 }
      else if word == "def" || word == "class" then
        return some ((← nameOfDefinition rec).foldl Draft.add d)
      else return some d
    else
      match operators.find? fun s => s.toList.isPrefixOf cs with
      | some op =>
        if (opening? cs).isNone then
          skip op.length
          if updates.contains op then return some (d.split true)
          else return some (d.add (← close "operator" start []))
        else return some ((← item rec).foldl Draft.add d)
      | none =>
        if c = '=' then
          skip 1
          if d.lambdas > 0 then return some (d.add (← close "operator" start []))
          else return some (d.split false)
        else if c = ':' then
          if d.lambdas > 0 then
            skip 1
            return some { d.add (← close "operator" start []) with lambdas := d.lambdas - 1 }
          else if d.isHeader then return none
          else
            skip 1
            if d.sides.isEmpty && d.typed.isNone then return some { d with typed := some [] }
            else return some (d.add (← close "operator" start []))
        else
          match ← item rec with
          | [] => return some (d.add (← close "operator" start []))
          | found => return some (found.foldl Draft.add d)

/-- The rounds of `statement`. -/
def statementRounds (rec : Part → Read (List Node)) : Nat → Draft → Read Draft
  | 0, d => return d
  | fuel + 1, d => do
    match ← draftStep rec d with
    | none => return d
    | some d => statementRounds rec fuel d

def statement (rec : Part → Read (List Node)) : Read (List Node) := do
  let d ← statementRounds rec ((← get).left + 1) {}
  skip 1
  return d.finish

def outline (cs : List Char) : Node :=
  let c := Cursor.ofText cs
  let start := (c.forwardWhile Text.isBlank).pos
  let (statements, c) := (gather do
    blanks true
    if (← peek?).isNone then return none else return some (← statement (part (c.left + 2)))).run c
  .mk "module" start c.pos statements []

end Redact.Syntax.Python
