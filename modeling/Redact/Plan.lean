import Redact.Edit

/-! # Plans without overlaps

From candidate edits in any order, a plan keeps edits that do not overlap. The candidates are
sorted by their start, larger ones first, and swept from left to right: a candidate is kept if it
starts at or after the end of the last one that was kept. An edit is kept whole or not at all. -/

namespace Redact.Plan

/-- `a` is swept before or together with `b`: it starts earlier, or at the same place and ends no
earlier. -/
def before (a b : Edit) : Bool :=
  a.start < b.start || (a.start == b.start && b.stop ≤ a.stop)

/-- The edits, each of which starts at or after the end of the one kept before it; the first one
starts at or after `bound`. -/
def sweep (bound : Int) : List Edit → List Edit
  | [] => []
  | e :: rest => if bound ≤ e.start then e :: sweep e.stop rest else sweep bound rest

/-- The candidates that are kept, by their start. Only starts from -1 on are kept. -/
def resolve (candidates : List Edit) : List Edit :=
  sweep (-1) (candidates.mergeSort before)

end Redact.Plan
