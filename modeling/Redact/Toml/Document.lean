import Redact.Toml.Scalar

/-! # TOML documents

A document is a list of statements: headers of tables and of items of table lists, and keys with
values. A key path may be opened by a header once. What an inline table or an array holds is
sealed: nothing can be added to it. -/

namespace Redact.Toml

/-- What is known of a key path: a header or a dotted key has opened it, or it and all below it are
sealed. -/
inductive Mark where
  | opened (path : List String)
  | sealed (path : List String)
  deriving DecidableEq, Repr

def Mark.path : Mark → List String
  | opened p | sealed p => p

def isOpened (marks : List Mark) (path : List String) : Bool := marks.contains (.opened path)

def isSealed (marks : List Mark) (path : List String) : Bool :=
  marks.any fun m => match m with
    | .sealed p => p.isPrefixOf path
    | .opened _ => false

/-- The entries with the table at a path changed by `f`; missing tables are made on the way. With
`lists`, the last item stands for a list of tables. -/
def change (lists : Bool) (f : Entries → Option Entries) : List String → Entries → Option Entries
  | [], entries => f entries
  | k :: path, entries =>
    match (Value.get? entries k).getD (.table []) with
    | .table inner => do
      let inner ← change lists f path inner
      return Value.put entries (.text k) (.table inner)
    | .list items =>
      match lists, items.getLast? with
      | true, some (.table inner) => do
        let inner ← change lists f path inner
        return Value.put entries (.text k) (.list (items.dropLast ++ [.table inner]))
      | _, _ => none
    | _ => none

/-- The entries with a new value under a key that they do not have. -/
def addNew (key : String) (v : Value) (entries : Entries) : Option Entries :=
  match Value.get? entries key with
  | some _ => none
  | none => some (Value.put entries (.text key) v)

/-- The entries with one more empty table in the list under a key. -/
def appendTable (key : String) (entries : Entries) : Option Entries :=
  match Value.get? entries key with
  | none => some (Value.put entries (.text key) (.list [.table []]))
  | some (.list items) => some (Value.put entries (.text key) (.list (items ++ [.table []])))
  | some _ => none

def isCompound : Value → Bool
  | .table _ | .list _ => true
  | _ => false

/-- The items of an array behind its bracket; every round takes one. -/
def itemRounds (value : Scan Value) : Nat → List Value → Scan Value
  | 0, _ => failure
  | fuel + 1, found => do
    space
    if ← accept "]" then return .list found.reverse
    let v ← value
    space
    if ← accept "," then itemRounds value fuel (v :: found)
    else
      expect "]"
      return .list (v :: found).reverse

def keyValue (value : Scan Value) : Scan (List String × Value) := do
  let k ← key
  expect "="
  blanks
  return (k, ← value)

/-- The entries of an inline table behind its brace; every round takes one. -/
def entryRounds (value : Scan Value) : Nat → List Mark → Entries → Scan Value
  | 0, _, _ => failure
  | fuel + 1, marks, entries => do
    let (k, v) ← keyValue value
    if isSealed marks k then failure
    match change false (addNew (k.getLast?.getD "") v) k.dropLast entries with
    | none => failure
    | some entries =>
      blanks
      if ← accept "\x7d" then return .table entries
      expect ","
      blanks
      entryRounds value fuel (if isCompound v then .sealed k :: marks else marks) entries

def valueBody (value : Scan Value) : Scan Value := do
  let text (cs : List Char) : Value := .text (String.ofList cs)
  let fuel := (← get).length + 1
  match ← peek? with
  | none => failure
  | some '\x22' => text <$> (if ← sees "\"\"\"" then basicLines else basicText)
  | some '\x27' => text <$> (if ← sees "\x27\x27\x27" then literalLines else literalText)
  | some '[' =>
    skip 1
    itemRounds value fuel []
  | some '\x7b' =>
    skip 1
    blanks
    if ← accept "\x7d" then return .table []
    entryRounds value fuel [] []
  | some _ =>
    if ← accept "true" then return .bool true
    if ← accept "false" then return .bool false
    dayOrNumber

/-- A value with at most `depth` values inside each other. -/
def value : Nat → Scan Value
  | 0 => failure
  | depth + 1 => valueBody (value depth)

/-- A document under way: its root, the path of the table that keys go into, the marks, and the
paths that the next header opens. -/
structure Draft where
  root : Entries := []
  header : List String := []
  marks : List Mark := []
  pending : List (List String) := []

def Draft.settle (d : Draft) : Draft :=
  { d with marks := d.pending.map .opened ++ d.marks, pending := [] }

def Draft.openTable (d : Draft) (path : List String) : Option Draft := do
  if isOpened d.marks path || isSealed d.marks path then none
  let root ← change true some path d.root
  return { d with root, header := path, marks := .opened path :: d.marks }

/-- The draft behind the header of an item of a list of tables: what was known of the paths below
does not hold for the new item. -/
def Draft.openItem (d : Draft) (path : List String) : Option Draft := do
  if isSealed d.marks path then none
  let kept := d.marks.filter fun m => !path.isPrefixOf m.path
  let root ← change true (appendTable (path.getLast?.getD "")) path.dropLast d.root
  return { d with root, header := path, marks := .opened path :: kept }

/-- The paths that a dotted key goes through, without the last one. -/
def waypoints (header : List String) : List String → List (List String)
  | [] | [_] => []
  | k :: rest => (header ++ [k]) :: waypoints (header ++ [k]) rest

def Draft.add (d : Draft) (path : List String) (v : Value) : Option Draft := do
  let through := waypoints d.header path
  if through.any (isOpened d.marks) then none
  let parent := d.header ++ path.dropLast
  if isSealed d.marks parent then none
  let root ← change true (addNew (path.getLast?.getD "") v) parent d.root
  let marks := if isCompound v then .sealed (d.header ++ path) :: d.marks else d.marks
  return { d with root, marks, pending := through ++ d.pending }

def statement (d : Draft) : Scan Draft := do
  match ← peek? with
  | some '[' =>
    let d := d.settle
    if ← accept "[[" then
      blanks
      let k ← key
      let d ← d.openItem k
      expect "]]"
      return d
    else
      skip 1
      blanks
      let k ← key
      let d ← d.openTable k
      expect "]"
      return d
  | some '#' => return d
  | _ =>
    let (k, v) ← keyValue (value ((← get).length + 1))
    d.add k v

/-- The statements of a document; every round takes a line. -/
def statementRounds : Nat → Draft → Scan Draft
  | 0, _ => failure
  | fuel + 1, d => do
    blanks
    match ← peek? with
    | none => return d
    | some '\n' =>
      skip 1
      statementRounds fuel d
    | some _ =>
      let d ← statement d
      blanks
      comment
      match ← peek? with
      | none => return d
      | some '\n' =>
        skip 1
        statementRounds fuel d
      | some _ => failure

/-- A text with one line feed for each pair of a carriage return and a line feed. -/
def joinLineEnds : List Char → List Char
  | '\r' :: '\n' :: rest => '\n' :: joinLineEnds rest
  | c :: rest => c :: joinLineEnds rest
  | [] => []

def parse? (cs : List Char) : Option Entries :=
  let cs := joinLineEnds cs
  ((statementRounds (cs.length + 2) {}).run cs).map (·.1.root)

end Redact.Toml
