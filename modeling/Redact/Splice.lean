import Redact.Edit

/-! # Applying edits

The edits of a list are applied to a source from the one that starts last to the one that starts
first, so that the places of those to come do not move. A span must lie inside the source as it
was given, and a replacement must have bytes. -/

namespace Redact.Splice

/-- An edit whose span does not lie inside a source of `size` bytes. -/
structure BadSpan where
  start : Int
  stop : Int
  size : Nat
  deriving DecidableEq, Repr

def BadSpan.message (e : BadSpan) : String :=
  "Edit span [" ++ toString e.start ++ ", " ++ toString e.stop ++ ") is outside source of " ++
    toString e.size ++ " bytes"

/-- What ends the applying of edits: a bad span, or a replacement that cannot be encoded. -/
inductive Refusal where
  | badSpan (e : BadSpan)
  | unencodable
  deriving DecidableEq, Repr

/-- The span of the edit lies inside a source of `size` bytes. -/
def fits (size : Nat) (e : Edit) : Bool :=
  0 ≤ e.start && e.start ≤ e.stop && e.stop ≤ size

/-- The bytes with `new` in the place of the span of `e`. -/
def splice (bytes new : List UInt8) (e : Edit) : List UInt8 :=
  bytes.take e.start.toNat ++ new ++ bytes.drop e.stop.toNat

/-- The edits applied in the order of the list; the first one that is refused ends it. -/
def run (size : Nat) (bytes : List UInt8) : List Edit → Except Refusal (List UInt8)
  | [] => .ok bytes
  | e :: rest =>
    if fits size e then
      match e.replacement.encode? with
      | some new => run size (splice bytes new e) rest
      | none => .error .unencodable
    else .error (.badSpan ⟨e.start, e.stop, size⟩)

/-- The edits applied to a source, those that start later first; of those with the same start, the
earlier one of the list first. -/
def apply (source : List UInt8) (edits : List Edit) : Except Refusal (List UInt8) :=
  run source.length source (edits.mergeSort fun a b => b.start ≤ a.start)

end Redact.Splice
