import Redact.Syntax.Node

/-! # Parsers

An engine has one parser, in which the grammar of the last parse stays set. A parse sets its grammar
first, so that the ones before it make no difference (`parse_fst`). -/

namespace Redact

/-- What a parser yields for a source: nothing, a tree without a root, or a tree. -/
inductive Yield where
  | nothing
  | rootless
  | rooted (root : Node)

/-- What is made of the yield of a parser: a tree, nothing, or the refusal of the grammar. -/
inductive Parsed where
  | tree (root : Node)
  | nothing
  | badGrammar

/-- A parser: the grammars of type `G` that it takes, and what it yields under the one that is set. -/
structure Parser (G : Type) where
  takes : G → Bool
  yield : Option G → List UInt8 → Yield

namespace Parser

variable {G : Type}

def usable : Yield → Parsed
  | .rooted root => .tree root
  | .nothing | .rootless => .nothing

/-- What a parser that has `active` set makes of a source, and the grammar that is set then. A grammar
that is refused is not set. -/
def parse (p : Parser G) (active : Option G) (grammar : G) (source : List UInt8) : Parsed × Option G :=
  if p.takes grammar then
    let active := some grammar
    (usable (p.yield active source), active)
  else (.badGrammar, active)

/-- What a parser makes of a source with a grammar. -/
def outcome (p : Parser G) (grammar : G) (source : List UInt8) : Parsed :=
  (p.parse none grammar source).1

theorem parse_fst (p : Parser G) (active : Option G) (grammar : G) (source : List UInt8) :
    (p.parse active grammar source).1 = p.outcome grammar source := by
  rw [outcome, parse, parse]
  split <;> rfl

end Parser

end Redact
