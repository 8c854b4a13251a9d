import Redact.Yaml.Tokens

/-! # Nodes of YAML

A document is a tree of nodes, each with the kind of value that its tag stands for. An anchor names
a node, and an alias stands for the node of its name; inside the node of an anchor, an alias for it
stands for nothing. -/

namespace Redact.Yaml

/-- What a tag makes of a node. Nothing can be made with an `unknown` tag. -/
inductive Tag where
  | null
  | bool
  | int
  | float
  | binary
  | timestamp
  | text
  | list
  | table
  | set
  | orderedMap
  | pairs
  | merge
  | defaultValue
  | unknown
  deriving DecidableEq, Repr

namespace Tag

def start : String := "tag:yaml.org,2002:"

/-- The known tags by what follows `start`. -/
def known : List (String × Tag) :=
  [("null", null), ("bool", bool), ("int", int), ("float", float), ("binary", binary),
    ("timestamp", timestamp), ("str", text), ("seq", list), ("map", table), ("set", set),
    ("omap", orderedMap), ("pairs", pairs), ("merge", merge), ("value", defaultValue)]

def ofName (name : String) : Tag :=
  ((known.find? fun t => start ++ t.1 == name).map (·.2)).getD unknown

end Tag

/-- A node of a document. A scalar without a tag has the tag that its text tells, which is given by
`plain`: whether it may be something else than text. -/
inductive Node where
  | scalar (tag : Option Tag) (plain : Bool) (text : String)
  | list (tag : Tag) (items : List Node)
  | table (tag : Tag) (entries : List (Node × Node))

def Node.empty : Node := .scalar none true ""

/-- Reading nodes: the tokens that are left, the nodes of the anchors, and the handles of tags. -/
structure Reader where
  tokens : List Token
  anchors : List (String × Node) := []
  handles : List (String × String) := []

abbrev Read := StateT Reader Option

def peekToken : Read (Option Token) := return (← get).tokens.head?

def skipToken : Read Unit := modify fun r => { r with tokens := r.tokens.drop 1 }

/-- Drops the next token if it is `t`. -/
def acceptToken (t : Token) : Read Bool := do
  if (← peekToken) = some t then
    skipToken
    return true
  else return false

/-- Drops the next token, which must be `t`. -/
def expectToken (t : Token) : Read Unit := do
  if !(← acceptToken t) then failure

/-- The next token is one of `ts`. -/
def sees (ts : List Token) : Read Bool := return (← peekToken).any ts.contains

/-- A bound for the rounds that are left: every round takes a token. -/
def roundsOfTokens : Read Nat := return (← get).tokens.length + 1

def properties : Read (Option String × Option TagName) := do
  let anchor : Read (Option String) := do
    match ← peekToken with
    | some (.anchor name) =>
      skipToken
      return some name
    | _ => return none
  let tag : Read (Option TagName) := do
    match ← peekToken with
    | some (.tag name) =>
      skipToken
      return some name
    | _ => return none
  match ← anchor with
  | some name => return (some name, ← tag)
  | none =>
    let t ← tag
    if t.isSome then return (← anchor, t) else return (none, none)

def fullName (t : TagName) : Read String := do
  match t.handle with
  | none => return t.suffix
  | some handle =>
    match (← get).handles.lookup handle with
    | some start => return start ++ t.suffix
    | none => failure

/-- The items of a list in brackets; a single key with a value is a table. Every round takes one. -/
def bracketItems (node : Read Node) : Nat → Bool → Read (List Node)
  | 0, _ => failure
  | fuel + 1, first => do
    if ← acceptToken .listClose then return []
    if !first then expectToken .comma
    if ← acceptToken .listClose then return []
    let ends : List Token := [.comma, .listClose]
    let item ←
      if ← acceptToken .key then
        let k ← if ← sees (.value :: ends) then pure Node.empty else node
        let v ←
          if ← acceptToken .value then
            if ← sees ends then pure Node.empty else node
          else pure Node.empty
        pure (Node.table .table [(k, v)])
      else node
    return item :: (← bracketItems node fuel false)

/-- The entries of a table in braces; every round takes one. -/
def braceEntries (node : Read Node) : Nat → Bool → Read (List (Node × Node))
  | 0, _ => failure
  | fuel + 1, first => do
    if ← acceptToken .tableClose then return []
    if !first then expectToken .comma
    if ← acceptToken .tableClose then return []
    let ends : List Token := [.comma, .tableClose]
    let entry ←
      if ← acceptToken .key then
        let k ← if ← sees (.value :: ends) then pure Node.empty else node
        let v ←
          if ← acceptToken .value then
            if ← sees ends then pure Node.empty else node
          else pure Node.empty
        pure (k, v)
      else pure (← node, Node.empty)
    return entry :: (← braceEntries node fuel false)

/-- The items of a list up to the end of its block; every round takes one. -/
def blockItems (node : Read Node) : Nat → Read (List Node)
  | 0 => failure
  | fuel + 1 => do
    if ← acceptToken .item then
      let item ← if ← sees [.item, .blockEnd] then pure Node.empty else node
      return item :: (← blockItems node fuel)
    else
      expectToken .blockEnd
      return []

/-- The items of a list that stands in the column of the key before it; every round takes one. -/
def flatItems (node : Read Node) : Nat → Read (List Node)
  | 0 => failure
  | fuel + 1 => do
    if ← acceptToken .item then
      let item ← if ← sees [.item, .key, .value, .blockEnd] then pure Node.empty else node
      return item :: (← flatItems node fuel)
    else return []

/-- The entries of a table up to the end of its block; every round takes one. -/
def blockEntries (node : Read Node) : Nat → Read (List (Node × Node))
  | 0 => failure
  | fuel + 1 => do
    let ends : List Token := [.key, .value, .blockEnd]
    if ← acceptToken .key then
      let k ← if ← sees ends then pure Node.empty else node
      let v ←
        if ← acceptToken .value then
          if ← sees ends then pure Node.empty else node
        else pure Node.empty
      return (k, v) :: (← blockEntries node fuel)
    else
      expectToken .blockEnd
      return []

/-- Where a node stands: in brackets, in a block, or behind a key of a block, where the items of a
list need not be further in. -/
inductive Place where
  | inBrackets
  | inBlock
  | behindKey
  deriving DecidableEq, Repr

/-- The content of a node with a tag. A `bare` node, without anchor and tag, needs some content;
`loose` lets a quoted text count as plain. -/
def content (node : Place → Read Node) (place : Place) (bare loose : Bool) (tag : Option Tag) :
    Read Node := do
  let fuel ← roundsOfTokens
  match ← peekToken with
  | some (.scalar text plain) =>
    skipToken
    return .scalar tag (plain || loose) text
  | some .listOpen =>
    skipToken
    return .list (tag.getD .list) (← bracketItems (node .inBrackets) fuel true)
  | some .tableOpen =>
    skipToken
    return .table (tag.getD .table) (← braceEntries (node .inBrackets) fuel true)
  | some .item =>
    if place = .behindKey then return .list (tag.getD .list) (← flatItems (node .inBlock) fuel)
    else if bare then failure
    else return .scalar tag true ""
  | some .blockList =>
    if place = .inBrackets then failure
    skipToken
    return .list (tag.getD .list) (← blockItems (node .inBlock) fuel)
  | some .blockTable =>
    if place = .inBrackets then failure
    skipToken
    return .table (tag.getD .table) (← blockEntries (node .behindKey) fuel)
  | _ => if bare then failure else return .scalar tag true ""

/-- A node that is no alias: its anchor and tag, and its content. The tag `!` stands for no tag, but
lets a quoted text be something else than text. -/
def properNode (node : Place → Read Node) (place : Place) : Read Node := do
  let (anchor, name) ← properties
  let full ← name.mapM fullName
  let loose := full == some "!"
  let tag := if loose then none else full.map Tag.ofName
  let read := content node place (anchor.isNone && full.isNone) loose tag
  match anchor with
  | none => read
  | some a =>
    if ((← get).anchors.lookup a).isSome then failure
    modify fun r => { r with anchors := (a, Node.empty) :: r.anchors }
    let n ← read
    modify fun r => { r with anchors := (a, n) :: r.anchors }
    return n

/-- A node with at most `depth` nodes inside each other. -/
def node : Nat → Place → Read Node
  | 0, _ => failure
  | depth + 1, place => do
    match ← peekToken with
    | some (.alias name) =>
      skipToken
      match (← get).anchors.lookup name with
      | some n => return n
      | none => failure
    | _ => properNode (node depth) place

/-- The directives in front of a document; every round takes one. A version or a handle may be told
once, and the version is 1. -/
def directiveRounds : Nat → Bool → Read Unit
  | 0, _ => failure
  | fuel + 1, versioned => do
    match ← peekToken with
    | some (.version major) =>
      if versioned || major != 1 then failure
      skipToken
      directiveRounds fuel true
    | some (.tagHandle handle start) =>
      if ((← get).handles.lookup handle).isSome then failure
      modify fun r => { r with handles := (handle, start) :: r.handles }
      skipToken
      directiveRounds fuel versioned
    | some .otherDirective =>
      skipToken
      directiveRounds fuel versioned
    | _ => return ()

def skipEnds : Read Unit :=
  modify fun r => { r with tokens := r.tokens.dropWhile (· = .documentEnd) }

def Token.opensDocument : Token → Bool
  | .version _ | .tagHandle _ _ | .otherDirective | .documentStart => true
  | _ => false

def defaultHandles : List (String × String) := [("!", "!"), ("!!", Tag.start)]

/-- The only document of a text, if there is one; two are too many. -/
def document : Read (Option Node) := do
  let fuel ← roundsOfTokens
  match ← peekToken with
  | none => return none
  | some t =>
    let root ←
      if t.opensDocument then do
        directiveRounds fuel false
        modify fun r => { r with handles := r.handles ++ defaultHandles }
        expectToken .documentStart
        let next ← peekToken
        if next.all fun t => t.opensDocument || t = .documentEnd then pure Node.empty
        else node fuel .inBlock
      else do
        modify fun r => { r with handles := defaultHandles }
        node fuel .inBlock
    skipEnds
    if (← peekToken).isSome then failure
    return some root

def Node.ofTokens? (tokens : List Token) : Option (Option Node) :=
  (document.run { tokens }).map (·.1)

end Redact.Yaml
