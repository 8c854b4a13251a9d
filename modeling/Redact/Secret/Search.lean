import Redact.Plan
import Redact.Secret.Hit

/-! # Searching a tree for secrets

The candidates of a tree are the edits that its nodes ask for, in the order of the walk. The edit
of a string is left out if a candidate before it starts at the same place. -/

namespace Redact.Secret

def addBinding (found : List Edit) (hit : Option Edit) : List Edit :=
  match hit with
  | some e => found ++ [e]
  | none => found

/-- The candidates with the one of a string, unless one of them starts where it does. -/
def addToken (found : List Edit) (hit : Option Edit) : List Edit :=
  match hit with
  | some e => if found.any (·.start == e.start) then found else found ++ [e]
  | none => found

def collect (shape : Shape) (settings : Settings) (source : List UInt8) (nodes : List Node) :
    List Edit :=
  nodes.foldl (fun found n =>
    addToken (addBinding found (bindingHit shape settings source n))
      (tokenHit shape settings source n)) []

def candidates (shape : Shape) (settings : Settings) (source : List UInt8) (root : Node) :
    List Edit :=
  collect shape settings source root.walk

def plan (shape : Shape) (settings : Settings) (source : List UInt8) (root : Node) : List Edit :=
  Plan.resolve (candidates shape settings source root)

end Redact.Secret
