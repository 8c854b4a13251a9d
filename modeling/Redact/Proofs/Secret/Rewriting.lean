import Redact.Proofs.Refusal
import Redact.Proofs.Secret.Coverage

/-! # Rewriting a tree from the top

What redaction should bring, said on the tree and on characters: a node that is a hit becomes the
replacement, whatever is below it, and of every other node the text is kept, except for the hits below
it (`rewrite`). A node is a hit if it looks like a token, or if its parent binds it to a sensitive
name. The spans of the plan are those of the hits that this meets first (`plan_spans`), so splicing the
plan into the bytes of a text brings the bytes of the rewritten one (`apply_plan`), unless there is a hit and
the replacement has no bytes (`apply_plan_eq_unencodable`). -/

namespace Redact.Secret

section
variable (shape : Shape) (settings : Settings)

/-- The place of the child that a node binds to a sensitive name. -/
def boundPlace? (source : List UInt8) (n : Node) : Option Nat :=
  if (bindingHit shape settings source n).isSome then shape.valuePlace? n else none

/-- A node is a hit: its parent binds it, or it looks like a token. -/
def isHit (source : List UInt8) (bound : Bool) (n : Node) : Bool :=
  bound || (tokenHit shape settings source n).isSome

mutual

/-- The text of a node after rewriting. `bound` says that its parent binds it. -/
def rewriteNode (code : List Char) (bound : Bool) : Node → RawText
  | .mk kind start stop children fields =>
    let n := Node.mk kind start stop children fields
    let source := Text.Utf8.encode code
    if isHit shape settings source bound n then settings.replacement
    else rewriteFrom code (boundPlace? shape settings source n) 0 start stop children

/-- The text from byte `pos` up to `stop` after rewriting; in it stand the children from number `i`
on, and that at `place` is bound. -/
def rewriteFrom (code : List Char) (place : Option Nat) (i pos stop : Nat) : List Node → RawText
  | [] => .ofList (Text.Utf8.slice pos stop code)
  | c :: rest =>
    .ofList (Text.Utf8.slice pos c.start code) ++ rewriteNode code (place == some i) c ++
      rewriteFrom code place (i + 1) c.stop stop rest

end

def rewrite (code : List Char) (root : Node) : RawText :=
  .ofList (Text.Utf8.takeBytes root.start code) ++ rewriteNode shape settings code false root ++
    .ofList (Text.Utf8.dropBytes root.stop code)

mutual

/-- The spans of the hits that rewriting a node meets first. -/
def outermost (source : List UInt8) (bound : Bool) : Node → List Span
  | .mk kind start stop children fields =>
    let n := Node.mk kind start stop children fields
    if isHit shape settings source bound n then [n.span]
    else outermostFrom source (boundPlace? shape settings source n) 0 children

/-- The spans of the hits that rewriting the children from number `i` on meets first. -/
def outermostFrom (source : List UInt8) (place : Option Nat) (i : Nat) : List Node → List Span
  | [] => []
  | c :: rest =>
    outermost source (place == some i) c ++ outermostFrom source place (i + 1) rest

end

end

variable {shape : Shape} {settings : Settings} {source : List UInt8}

theorem outermost_eq (bound : Bool) (n : Node) :
    outermost shape settings source bound n =
      if isHit shape settings source bound n then [n.span]
      else outermostFrom shape settings source (boundPlace? shape settings source n) 0
        n.children := by
  cases n with
  | mk => rw [outermost, Node.children]

theorem rewriteNode_eq (code : List Char) (bound : Bool) (n : Node) :
    rewriteNode shape settings code bound n =
      if isHit shape settings (Text.Utf8.encode code) bound n then settings.replacement
      else rewriteFrom shape settings code
        (boundPlace? shape settings (Text.Utf8.encode code) n) 0 n.start n.stop n.children := by
  cases n with
  | mk => rw [rewriteNode, Node.children, Node.start, Node.stop]

theorem mem_outermostFrom {place : Option Nat} {i : Nat} {ns : List Node} {a : Span} :
    a ∈ outermostFrom shape settings source place i ns ↔
      ∃ j c, ns[j]? = some c ∧ a ∈ outermost shape settings source (place == some (i + j)) c := by
  induction ns generalizing i with
  | nil => simp [outermostFrom]
  | cons n rest ih =>
    rw [outermostFrom, List.mem_append, ih]
    constructor
    · rintro (h | ⟨j, c, hc, h⟩)
      · exact ⟨0, n, rfl, h⟩
      · refine ⟨j + 1, c, hc, ?_⟩
        rwa [Nat.add_assoc, Nat.add_comm 1 j] at h
    · rintro ⟨j, c, hc, h⟩
      cases j with
      | zero =>
        obtain rfl : n = c := Option.some.inj hc
        exact Or.inl h
      | succ j =>
        refine Or.inr ⟨j, c, hc, ?_⟩
        rwa [Nat.add_assoc, Nat.add_comm 1 j]

/-! ### The spans of the plan -/

theorem span_mem_outermost (v : Node) : v.span ∈ outermost shape settings source true v := by
  rw [outermost_eq, isHit, Bool.true_or, if_pos rfl]
  exact List.mem_singleton_self v.span

theorem boundPlace?_eq_some {n : Node} {j : Nat} :
    boundPlace? shape settings source n = some j ↔
      shape.valuePlace? n = some j ∧ ∃ e v, bindingHit shape settings source n = some e ∧
        n.children[j]? = some v ∧ e.span = v.span := by
  constructor
  · intro h
    have hsome : (bindingHit shape settings source n).isSome := by
      by_contra hnone
      simp [boundPlace?, hnone] at h
    have hplace : shape.valuePlace? n = some j := by
      rwa [boundPlace?, if_pos hsome] at h
    obtain ⟨e, he⟩ := Option.isSome_iff_exists.1 hsome
    obtain ⟨-, -, -, v, -, hv, -, -, rfl⟩ := bindingHit_eq_some.1 he
    rw [Shape.value?, hplace, Option.bind_some] at hv
    exact ⟨hplace, _, v, he, hv, rfl⟩
  · rintro ⟨hplace, e, v, he, -, -⟩
    rw [boundPlace?, he, Option.isSome_some, if_pos rfl, hplace]

theorem exists_boundPlace? {n : Node} {e : Edit} (he : bindingHit shape settings source n = some e) :
    ∃ j v, boundPlace? shape settings source n = some j ∧ n.children[j]? = some v ∧
      e.span = v.span := by
  obtain ⟨-, -, -, v, -, hv, -, -, rfl⟩ := bindingHit_eq_some.1 he
  obtain ⟨j, hplace, hj⟩ := Option.bind_eq_some_iff.1 hv
  exact ⟨j, v, boundPlace?_eq_some.2 ⟨hplace, _, v, he, hj, rfl⟩, hj, rfl⟩

theorem outermost_within {n : Node} (h : n.Nested shape) {bound : Bool} {a : Span}
    (ha : a ∈ outermost shape settings source bound n) : a.Within n.span := by
  induction n using Node.treeInduction generalizing bound with
  | node n ih =>
    rw [outermost_eq] at ha
    split at ha
    · obtain rfl := List.mem_singleton.1 ha
      exact Span.Within.refl n.span
    · obtain ⟨j, c, hc, hac⟩ := mem_outermostFrom.1 ha
      have hmem : c ∈ n.children := List.mem_of_getElem? hc
      exact (ih c hmem (h.of_child hmem) hac).trans (h.child_within hmem)

theorem outermostFrom_within {ns : List Node} (hn : ∀ n ∈ ns, n.Nested shape)
    {place : Option Nat} {i : Nat} {a : Span}
    (ha : a ∈ outermostFrom shape settings source place i ns) : ∃ c ∈ ns, a.Within c.span := by
  obtain ⟨j, c, hc, hac⟩ := mem_outermostFrom.1 ha
  have hmem : c ∈ ns := List.mem_of_getElem? hc
  exact ⟨c, hmem, outermost_within (hn c hmem) hac⟩

theorem outermostFrom_precedes {ns : List Node} (hn : ∀ n ∈ ns, n.Nested shape)
    (ho : ns.Pairwise fun a b => a.span.Precedes b.span)
    (hp : ∀ n ∈ ns, ∀ bound,
      (outermost shape settings source bound n).Pairwise Span.Precedes)
    (place : Option Nat) (i : Nat) :
    (outermostFrom shape settings source place i ns).Pairwise Span.Precedes := by
  induction ns generalizing i with
  | nil => rw [outermostFrom]; exact List.Pairwise.nil
  | cons n rest ih =>
    obtain ⟨hfirst, hrest⟩ := List.pairwise_cons.1 ho
    obtain ⟨hnn, hnr⟩ := List.forall_mem_cons.1 hn
    obtain ⟨hpn, hpr⟩ := List.forall_mem_cons.1 hp
    rw [outermostFrom, List.pairwise_append]
    refine ⟨hpn _, ih hnr hrest hpr (i + 1), ?_⟩
    intro a ha b hb
    obtain ⟨d, hd, hbd⟩ := outermostFrom_within hnr hb
    have han := outermost_within hnn ha
    exact han.2.trans (le_trans (hfirst d hd) hbd.1)

theorem outermost_precedes {n : Node} (h : n.Nested shape) (bound : Bool) :
    (outermost shape settings source bound n).Pairwise Span.Precedes := by
  induction n using Node.treeInduction generalizing bound with
  | node n ih =>
    rw [outermost_eq]
    split
    · exact List.pairwise_singleton _ _
    · exact outermostFrom_precedes (fun c hc => h.of_child hc) h.children_precede
        (fun c hc b => ih c hc (h.of_child hc) b) _ 0

/-- What rewriting meets first is a hit of a node of the tree, or the root if that is bound. -/
theorem hit_of_mem_outermost {n : Node} {bound : Bool} {a : Span}
    (ha : a ∈ outermost shape settings source bound n) :
    (bound = true ∧ a = n.span) ∨
      ∃ m ∈ n.preorder, ∃ e ∈ hits shape settings source m, e.span = a := by
  induction n using Node.treeInduction generalizing bound with
  | node n ih =>
    rw [outermost_eq] at ha
    split at ha
    · rename_i hhit
      obtain rfl := List.mem_singleton.1 ha
      rcases Bool.or_eq_true_iff.1 hhit with hb | ht
      · exact Or.inl ⟨hb, rfl⟩
      · obtain ⟨e, he⟩ := Option.isSome_iff_exists.1 ht
        obtain ⟨-, -, -, -, rfl⟩ := tokenHit_eq_some.1 he
        exact Or.inr ⟨n, Node.mem_preorder_self n, _, mem_hits.2 (Or.inr he), rfl⟩
    · obtain ⟨j, c, hc, hac⟩ := mem_outermostFrom.1 ha
      have hmem : c ∈ n.children := List.mem_of_getElem? hc
      rcases ih c hmem hac with ⟨hb, rfl⟩ | ⟨m, hm, hit⟩
      · rw [Nat.zero_add, beq_iff_eq] at hb
        obtain ⟨-, e, v, he, hv, hspan⟩ := boundPlace?_eq_some.1 hb
        obtain rfl : c = v := Option.some.inj (hc.symm.trans hv)
        exact Or.inr ⟨n, Node.mem_preorder_self n, e, mem_hits.2 (Or.inl he), hspan⟩
      · exact Or.inr ⟨m, Node.mem_preorder.2 (Or.inr ⟨c, hmem, hm⟩), hit⟩

/-- No node of the tree asks for an edit. -/
def Hitless (shape : Shape) (settings : Settings) (source : List UInt8) (root : Node) : Prop :=
  ∀ n ∈ root.preorder, hits shape settings source n = []

instance (root : Node) : Decidable (Hitless shape settings source root) :=
  inferInstanceAs (Decidable (∀ n ∈ root.preorder, _))

/-- Each hit of a node of the tree lies inside one that rewriting meets first. -/
theorem outermost_keeps (hr : shape.Regular) {n m : Node} (h : n.Nested shape)
    (hm : m ∈ n.preorder) {e : Edit} (he : e ∈ hits shape settings source m) (bound : Bool) :
    ∃ a ∈ outermost shape settings source bound n, e.span.Within a := by
  induction n using Node.treeInduction generalizing bound with
  | node n ih =>
    rw [outermost_eq]
    split
    · obtain ⟨z, hz, hspan, -⟩ := exists_mem_of_mem_hits hr h hm he
      exact ⟨n.span, List.mem_singleton_self _, hspan ▸ h.within hz⟩
    · rename_i hhit
      rcases Node.mem_preorder.1 hm with rfl | ⟨c, hc, hmc⟩
      · rcases mem_hits.1 he with hb | ht
        · obtain ⟨j, v, hplace, hv, hspan⟩ := exists_boundPlace? hb
          refine ⟨v.span, mem_outermostFrom.2 ⟨j, v, hv, ?_⟩, hspan ▸ Span.Within.refl _⟩
          rw [hplace, Nat.zero_add, beq_self_eq_true]
          exact span_mem_outermost v
        · exact absurd (by simp [isHit, ht]) hhit
      · obtain ⟨j, hj⟩ := List.getElem?_of_mem hc
        obtain ⟨a, ha, hin⟩ := ih c hc (h.of_child hc) hmc
          (boundPlace? shape settings source n == some (0 + j))
        exact ⟨a, mem_outermostFrom.2 ⟨j, c, hj, ha⟩, hin⟩

/-- The plan redacts the hits that rewriting meets first, in source order. -/
theorem plan_spans (hr : shape.Regular) {root : Node} (h : root.Nested shape) :
    (plan shape settings source root).map Edit.span =
      outermost shape settings source false root := by
  have hhit : ∀ a ∈ outermost shape settings source false root,
      ∃ m ∈ root.preorder, ∃ e ∈ hits shape settings source m, e.span = a := by
    intro a ha
    rcases hit_of_mem_outermost ha with ⟨hb, -⟩ | hhit
    · exact absurd hb Bool.false_ne_true
    · exact hhit
  refine Span.eq_of_refine (plan_spans_precede shape settings source root)
    (outermost_precedes h false) (plan_spans_filled hr h) ?_ ?_ ?_
  · intro a ha
    obtain ⟨m, hm, e, he, rfl⟩ := hhit a ha
    obtain ⟨z, -, hspan, hf⟩ := exists_mem_of_mem_hits hr h hm he
    exact hspan ▸ hf
  · intro a ha
    obtain ⟨e, he, rfl⟩ := List.mem_map.1 ha
    obtain ⟨m, hm, hit⟩ := mem_hits_of_mem_plan he
    exact outermost_keeps hr h hm hit false
  · intro a ha
    obtain ⟨m, hm, e, he, rfl⟩ := hhit a ha
    obtain ⟨k, hk, hin⟩ := plan_keeps hr h hm he
    exact ⟨k.span, List.mem_map_of_mem hk, hin⟩

/-! ### The text of the rewritten tree -/

/-- The nodes of the tree start and stop between characters. -/
def OnBoundaries (code : List Char) (root : Node) : Prop :=
  ∀ n ∈ root.preorder,
    Text.Utf8.IsBoundary code n.start ∧ Text.Utf8.IsBoundary code n.stop

instance (code : List Char) (root : Node) : Decidable (OnBoundaries code root) :=
  inferInstanceAs (Decidable (∀ n ∈ root.preorder, _ ∧ _))

theorem OnBoundaries.of_child {code : List Char} {n c : Node} (h : OnBoundaries code n)
    (hc : c ∈ n.children) : OnBoundaries code c :=
  fun m hm => h m (Node.mem_preorder.2 (Or.inr ⟨c, hc, hm⟩))

theorem OnBoundaries.self {code : List Char} {n : Node} (h : OnBoundaries code n) :
    Text.Utf8.IsBoundary code n.start ∧ Text.Utf8.IsBoundary code n.stop :=
  h n (Node.mem_preorder_self n)

theorem isPlain_rewriteFrom {code : List Char} {ns : List Node}
    (hn : ∀ c ∈ ns, ∀ bound, settings.replacement.isPlain = true ∨
        outermost shape settings (Text.Utf8.encode code) bound c = [] →
      (rewriteNode shape settings code bound c).isPlain = true)
    {place : Option Nat} {i : Nat}
    (h : settings.replacement.isPlain = true ∨
      outermostFrom shape settings (Text.Utf8.encode code) place i ns = []) (pos stop : Nat) :
    (rewriteFrom shape settings code place i pos stop ns).isPlain = true := by
  induction ns generalizing i pos with
  | nil =>
    rw [rewriteFrom]
    exact RawText.isPlain_ofList _
  | cons c rest ih =>
    obtain ⟨hc, hrest⟩ := List.forall_mem_cons.1 hn
    rw [outermostFrom, List.append_eq_nil_iff, or_and_left] at h
    rw [rewriteFrom, RawText.isPlain_append, RawText.isPlain_append, RawText.isPlain_ofList,
      hc _ h.1, ih hrest h.2]
    rfl

/-- The rewritten text has bytes if the replacement has, or no hit is met. -/
theorem isPlain_rewriteNode {code : List Char} {n : Node} {bound : Bool}
    (h : settings.replacement.isPlain = true ∨
      outermost shape settings (Text.Utf8.encode code) bound n = []) :
    (rewriteNode shape settings code bound n).isPlain = true := by
  induction n using Node.treeInduction generalizing bound with
  | node n ih =>
    rw [outermost_eq] at h
    rw [rewriteNode_eq]
    split
    · rename_i hhit
      rw [if_pos hhit] at h
      exact h.resolve_right (List.cons_ne_nil _ _)
    · rename_i hhit
      rw [if_neg hhit] at h
      exact isPlain_rewriteFrom (fun c hc _ => ih c hc) h _ _

/-- Weaving the replacement into the hits met first in a node brings the bytes of its rewritten text,
whatever spans come after the node. -/
def Woven (shape : Shape) (settings : Settings) (code : List Char) (n : Node) : Prop :=
  ∀ (bound : Bool) (tail : List Span), (∀ a ∈ tail, (n.stop : Int) ≤ a.start) →
    Splice.weave (Text.Utf8.encode code) settings.replacement.bytes n.start
        (outermost shape settings (Text.Utf8.encode code) bound n ++ tail) =
      (rewriteNode shape settings code bound n).bytes ++
        Splice.weave (Text.Utf8.encode code) settings.replacement.bytes n.stop
          tail

theorem weave_outermostFrom {code : List Char} {ns : List Node} (hw : ∀ c ∈ ns,
      Woven shape settings code c) (hn : ∀ c ∈ ns, c.Nested shape)
    (hb : ∀ c ∈ ns, OnBoundaries code c) (ho : ns.Pairwise fun a b => a.stop ≤ b.start)
    {pos stop : Nat} (hpos : ∀ c ∈ ns, pos ≤ c.start) (hstop : ∀ c ∈ ns, c.stop ≤ stop)
    (hle : pos ≤ stop) (hbpos : Text.Utf8.IsBoundary code pos)
    (hbstop : Text.Utf8.IsBoundary code stop) (place : Option Nat) (i : Nat) {tail : List Span}
    (htail : ∀ a ∈ tail, (stop : Int) ≤ a.start) :
    Splice.weave (Text.Utf8.encode code) settings.replacement.bytes pos
        (outermostFrom shape settings (Text.Utf8.encode code) place i ns ++ tail) =
      (rewriteFrom shape settings code place i pos stop ns).bytes ++
        Splice.weave (Text.Utf8.encode code) settings.replacement.bytes stop
          tail := by
  induction ns generalizing pos i with
  | nil =>
    rw [outermostFrom, rewriteFrom, List.nil_append, Splice.weave_skip hle htail, RawText.bytes_ofList,
      Text.Utf8.encode_slice hbpos hbstop hle]
  | cons c rest ih =>
    obtain ⟨hwc, hwrest⟩ := List.forall_mem_cons.1 hw
    obtain ⟨hnc, hnrest⟩ := List.forall_mem_cons.1 hn
    obtain ⟨hbc, hbrest⟩ := List.forall_mem_cons.1 hb
    obtain ⟨hoc, horest⟩ := List.pairwise_cons.1 ho
    obtain ⟨hposc, -⟩ := List.forall_mem_cons.1 hpos
    obtain ⟨hstopc, hstoprest⟩ := List.forall_mem_cons.1 hstop
    have hinside : ∀ a ∈ outermostFrom shape settings (Text.Utf8.encode code) place (i + 1) rest ++
        tail, (c.stop : Int) ≤ a.start := by
      intro a ha
      rcases List.mem_append.1 ha with ha | ha
      · obtain ⟨d, hd, had⟩ := outermostFrom_within hnrest ha
        have h1 := hoc d hd
        have h2 : (d.start : Int) ≤ a.start := had.1
        omega
      · have := htail a ha
        omega
    have hstart : ∀ a ∈ outermost shape settings (Text.Utf8.encode code) (place == some i) c ++
        (outermostFrom shape settings (Text.Utf8.encode code) place (i + 1) rest ++ tail),
        (c.start : Int) ≤ a.start := by
      intro a ha
      rcases List.mem_append.1 ha with ha | ha
      · exact (outermost_within hnc ha).1
      · have h1 := hinside a ha
        have h2 := hnc.placed.start_le_stop
        omega
    rw [outermostFrom, rewriteFrom, List.append_assoc, Splice.weave_skip hposc hstart,
      hwc _ _ hinside,
      ih hwrest hnrest hbrest horest hoc hstoprest hstopc hbc.self.2 (i + 1),
      RawText.bytes_append, RawText.bytes_append, RawText.bytes_ofList,
      Text.Utf8.encode_slice hbpos hbc.self.1 hposc]
    simp only [List.append_assoc]

theorem woven {code : List Char} {n : Node} (h : n.Nested shape) (hb : OnBoundaries code n) :
    Woven shape settings code n := by
  induction n using Node.treeInduction with
  | node n ih =>
    intro bound tail htail
    rw [outermost_eq, rewriteNode_eq]
    have hle := h.placed.start_le_stop
    split
    · rw [List.singleton_append, Splice.weave]
      simp [Node.span]
    · exact weave_outermostFrom (fun c hc => ih c hc (h.of_child hc) (hb.of_child hc))
        (fun c hc => h.of_child hc) (fun c hc => hb.of_child hc) h.placed.ordered
        (fun c hc => (h.placed.inside c hc).1) (fun c hc => (h.placed.inside c hc).2) hle
        hb.self.1 hb.self.2 _ 0 htail

/-! ### Splicing the plan -/

theorem plan_inside (hr : shape.Regular) {root : Node} (h : WellNested shape source root) {e : Edit}
    (he : e ∈ plan shape settings source root) :
    0 ≤ e.start ∧ e.start < e.stop ∧ e.stop ≤ source.length := by
  obtain ⟨m, hm, hspan, hf⟩ := exists_mem_of_mem_plan hr h.nested he
  have hin := h.nested.within hm
  have hroot := h.inside
  have hstart : e.start = (m.start : Int) := congrArg Span.start hspan
  have hstop : e.stop = (m.stop : Int) := congrArg Span.stop hspan
  simp only [Span.Within, Span.Filled, Node.span] at hin hf
  omega

theorem inside_of_mem_plan (hr : shape.Regular) {root : Node} (h : WellNested shape source root) :
    ∀ e ∈ plan shape settings source root, Splice.Inside source.length e := by
  intro e he
  obtain ⟨hstart, horder, hstop⟩ := plan_inside hr h he
  exact ⟨hstart, le_of_lt horder, hstop⟩

theorem plan_replacement (hr : shape.Regular) {root : Node} {e : Edit}
    (he : e ∈ plan shape settings source root) : e.replacement = settings.replacement :=
  replacement_of_mem_collect hr (Plan.mem_of_mem_resolve he)

theorem plan_starts_ascend (hr : shape.Regular) {root : Node} (h : WellNested shape source root) :
    (plan shape settings source root).Pairwise fun a b => a.start < b.start := by
  refine (plan_precedes shape settings source root).imp_of_mem ?_
  intro a b ha _ hab
  have hfilled := (plan_inside hr h ha).2.1
  simp only [Span.Precedes, Edit.span] at hab
  omega

theorem plan_eq_nil_iff (hr : shape.Regular) {root : Node} (h : root.Nested shape) :
    plan shape settings source root = [] ↔ Hitless shape settings source root := by
  simp only [Hitless, List.eq_nil_iff_forall_not_mem]
  constructor
  · intro hnone n hn e he
    obtain ⟨k, hk, -⟩ := plan_keeps hr h hn he
    exact hnone k hk
  · intro hnone e he
    obtain ⟨n, hn, hit⟩ := mem_hits_of_mem_plan he
    exact hnone n hn e hit

theorem isPlain_rewrite (hr : shape.Regular) {code : List Char} {root : Node}
    (h : root.Nested shape)
    (hplain : settings.replacement.isPlain = true ∨
      plan shape settings (Text.Utf8.encode code) root = []) :
    (rewrite shape settings code root).isPlain = true := by
  have hnode : (rewriteNode shape settings code false root).isPlain = true := by
    refine isPlain_rewriteNode (hplain.imp_right fun hnil => ?_)
    rw [← plan_spans hr h, hnil, List.map_nil]
  rw [rewrite, RawText.isPlain_append, RawText.isPlain_append, RawText.isPlain_ofList,
    RawText.isPlain_ofList, hnode]
  rfl

/-- Splicing the plan into the bytes of a text brings the bytes of the rewritten text, if the replacement
has bytes or is not needed. -/
theorem apply_plan (hr : shape.Regular) {code : List Char} {root : Node}
    (h : WellNested shape (Text.Utf8.encode code) root) (hb : OnBoundaries code root)
    (hplain : settings.replacement.isPlain = true ∨
      plan shape settings (Text.Utf8.encode code) root = []) :
    Splice.apply (Text.Utf8.encode code) (plan shape settings (Text.Utf8.encode code) root) =
      .ok (rewrite shape settings code root).bytes := by
  have happlicable : ∀ e ∈ plan shape settings (Text.Utf8.encode code) root,
      Splice.Applicable (Text.Utf8.encode code).length e := by
    intro e he
    refine ⟨inside_of_mem_plan hr h e he, ?_⟩
    rw [plan_replacement hr he]
    exact hplain.resolve_right (List.ne_nil_of_mem he)
  have hnew : ∀ e ∈ plan shape settings (Text.Utf8.encode code) root,
      e.replacement.bytes = settings.replacement.bytes := by
    intro e he
    rw [plan_replacement hr he]
  have hstart : ∀ a ∈ outermost shape settings (Text.Utf8.encode code) false root,
      (root.start : Int) ≤ a.start := fun a ha => (outermost_within h.nested ha).1
  have hwoven : Woven shape settings code root := woven h.nested hb
  have hroot := hwoven false [] (by simp)
  rw [List.append_nil, Splice.weave] at hroot
  rw [Splice.apply_eq_leftToRight happlicable (plan_precedes _ _ _ _) (plan_starts_ascend hr h),
    Splice.leftToRight_eq_weave hnew, plan_spans hr h.nested,
    Splice.weave_skip (Nat.zero_le root.start) hstart, hroot, rewrite, RawText.bytes_append,
    RawText.bytes_append, RawText.bytes_ofList, RawText.bytes_ofList,
    Text.Utf8.encode_takeBytes hb.self.1, Text.Utf8.encode_dropBytes hb.self.2, List.drop_zero,
    List.append_assoc]

theorem apply_plan_eq_unencodable (hr : shape.Regular) {root : Node}
    (hin : ∀ e ∈ plan shape settings source root, Splice.Inside source.length e)
    (hlone : settings.replacement.isPlain = false) (hne : plan shape settings source root ≠ []) :
    Splice.apply source (plan shape settings source root) = .error .unencodable := by
  obtain ⟨e, he⟩ := List.exists_mem_of_ne_nil _ hne
  refine Splice.apply_eq_unencodable_of_inside hin he ?_
  rw [plan_replacement hr he, hlone]

end Redact.Secret
