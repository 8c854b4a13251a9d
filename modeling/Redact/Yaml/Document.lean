import Redact.Yaml.Atom

/-! # YAML documents

The value of a document. The entries of tables that are merged into a table come before its own, so
that its own go before them where a key is the same. -/

namespace Redact.Yaml

def isKey : Value → Bool
  | .list _ | .table _ | .set _ => false
  | _ => true

/-- The table of entries, of which a later one goes before an earlier one with the same key. -/
def tableOf (entries : Entries) : Entries :=
  entries.foldl (fun es (k, v) => Value.put es k v) []

def Node.text? : Node → Option String
  | .scalar _ _ text => some text
  | .list _ _ => none
  | .table _ entries => textAmong entries
where
  textAmong : List (Node × Node) → Option String
    | [] => none
    | (k, v) :: rest => if k.tag = .defaultValue then v.text? else textAmong rest

mutual

def Node.value? : Node → Option Value
  | .scalar tag plain text => atom? (Node.scalar tag plain text).tag text
  | .list tag items =>
    match tag with
    | .list => (values? items).map .list
    | .orderedMap | .pairs => (pairs? items).map .list
    | _ => none
  | .table tag entries =>
    match tag with
    | .table => (entries? entries).map fun (merged, own) => .table (tableOf (merged ++ own))
    | .set => (entries? entries).map fun (merged, own) => .set ((tableOf (merged ++ own)).map (·.1))
    | tag => (Node.text? (.table tag entries)).bind (atom? tag)

def values? : List Node → Option (List Value)
  | [] => some []
  | n :: rest => do
    let v ← n.value?
    let vs ← values? rest
    return v :: vs

def pairs? : List Node → Option (List Value)
  | [] => some []
  | .table _ [(k, v)] :: rest => do
    let key ← k.value?
    let value ← v.value?
    let pairs ← pairs? rest
    return .tuple [key, value] :: pairs
  | _ :: _ => none

def entries? : List (Node × Node) → Option (Entries × Entries)
  | [] => some ([], [])
  | (k, v) :: rest => do
    let (merged, own) ← entries? rest
    if k.tag = .merge then
      match v with
      | .table _ inner =>
        let (m, o) ← entries? inner
        return (m ++ o ++ merged, own)
      | .list _ items =>
        let m ← merged? items
        return (m ++ merged, own)
      | .scalar _ _ _ => none
    else
      let key ← if k.tag = .defaultValue then k.text?.map (Value.text ∘ RawText.ofString) else k.value?
      let value ← v.value?
      if isKey key then return (merged, (key, value) :: own) else none

/-- The entries of several tables that are merged; an earlier one goes before a later one. -/
def merged? : List Node → Option Entries
  | [] => some []
  | .table _ inner :: rest => do
    let (m, o) ← entries? inner
    let others ← merged? rest
    return others ++ (m ++ o)
  | _ :: _ => none

end

/-- The value of a text; a text without a document stands for nothing. -/
def parse? (cs : List Char) : Option Value := do
  let tokens ← Token.ofText? cs
  match ← Node.ofTokens? tokens with
  | none => return .null
  | some root => root.value?

end Redact.Yaml
