import Redact.Syntax.Ecma.Statement

/-! # Outlines of JavaScript and TypeScript sources

A tree of a source with the nodes that matter here: declarators and assignments with their sides,
strings and templates with their fragments, and numbers. Other nodes only hold these together. -/

namespace Redact.Syntax.Ecma

open Read

def partBody (d : Dialect) (rec : Parts) : Part → Read Node
  | .statement => statementBody d rec
  | .sequence inAllowed => sequenceBody rec inAllowed
  | .expression inAllowed => expressionBody d rec inAllowed
  | .operand => operandBody d rec
  | .pattern => patternBody rec
  | .parens => parensBody d rec
  | .params => paramsBody rec
  | .template ofType => templateBody rec ofType
  | .type => typeBody rec
  | .balanced => balancedBody rec
  | .element => elementBody rec

/-- Reads a part with at most `depth` parts inside each other. -/
def part (d : Dialect) : Nat → Parts
  | 0, _ => missing
  | depth + 1, p => partBody d (part d depth) p

/-- The outline of a source. Every part inside another one that is not a bracket itself leads to
one within a few steps, which bounds the depth. -/
def outline (d : Dialect) (cs : List Char) : Node :=
  let c := Cursor.ofText cs
  let start := (c.forwardWhile Text.isBlank).pos
  let read : Read (List Node) := do
    if ← sees "#!" then skipWhile fun x => !isLineEnd x
    gather do
      match ← next? with
      | none => return none
      | some _ => return some [← statementBody d (part d (8 * (c.left + 4)))]
  let (found, c) := read.run c
  .mk "program" start c.pos found []

end Redact.Syntax.Ecma
