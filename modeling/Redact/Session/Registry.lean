import Redact.Session.Fault
import Redact.Syntax.Shape

/-! # Grammar registry

Grammars are loaded when they are first asked for and kept. A source of grammars is asked again as
long as it fails; what it returned is kept until the registry is cleared, also if it was nothing.
Names of languages count in their folded form. `G` is the type of grammars. -/

namespace Redact

/-- A source of a grammar: the outcome of its first, second, … load, counted from 1. -/
structure GrammarSource (G : Type) where
  load : Nat → Except Fault (Option G)

/-- The sources by their keys, what was loaded, and the number of loads of each key. -/
structure Registry (G : Type) where
  sources : List (String × GrammarSource G)
  cache : List (String × Option G) := []
  loads : List (String × Nat) := []

def putEntry {α : Type} (key : String) (value : α) : List (String × α) → List (String × α)
  | [] => [(key, value)]
  | (k, v) :: rest => if k == key then (key, value) :: rest else (k, v) :: putEntry key value rest

namespace Registry

variable {G : Type}

def loadWarning (key : String) (fault : Fault) : String :=
  "Failed to load " ++ key ++ " grammar: " ++ fault.message

/-- What asking for a grammar brings: the grammar, nothing, or a fault that is not tolerated. -/
abbrev Outcome (G : Type) := Except Fault (Option G)

def loadCount (r : Registry G) (key : String) : Nat := (r.loads.lookup key).getD 0

def isLoadedKey (r : Registry G) (key : String) : Bool := (r.cache.lookup key).isSome

/-- One load of a key from its source: the outcome, the registry after it, and warnings. -/
def loadKey (r : Registry G) (key : String) (source : GrammarSource G) :
    Outcome G × Registry G × List String :=
  let count := r.loadCount key + 1
  let counted := { r with loads := putEntry key count r.loads }
  match source.load count with
  | .ok g => (.ok g, { counted with cache := putEntry key g r.cache }, [])
  | .error fault =>
    if fault.kind.isTolerated then (.ok none, counted, [loadWarning key fault])
    else (.error fault, counted, [])

/-- The grammar of a key: the kept one, or the one that its source brings. -/
def resolveKey (r : Registry G) (key : String) : Outcome G × Registry G × List String :=
  match r.cache.lookup key with
  | some (some g) => (.ok (some g), r, [])
  | _ =>
    match r.sources.lookup key with
    | none => (.ok none, r, [])
    | some source => r.loadKey key source

def resolve (r : Registry G) (language : String) : Outcome G × Registry G × List String :=
  r.resolveKey (Language.fold language)

def isLoaded (r : Registry G) (language : String) : Bool := r.isLoadedKey (Language.fold language)

def clear (r : Registry G) : Registry G := { r with cache := [] }

end Registry

end Redact
