import Redact.Proofs.Plan
import Redact.Proofs.Secret.Hits

/-! # What a plan covers

The edits of a plan are hits of nodes of the tree (`mem_hits_of_mem_plan`), and in a well-nested tree
each hit lies inside an edit of the plan (`plan_keeps`), although strings are left out where another
candidate starts and the sweep drops what overlaps. So a plan covers the bytes of the hits and no
other byte. -/

namespace Redact.Secret

variable {shape : Shape} {settings : Settings} {source : List UInt8} {root : Node}

theorem mem_hits_of_mem_plan {e : Edit} (he : e ∈ plan shape settings source root) :
    ∃ n ∈ root.preorder, e ∈ hits shape settings source n := by
  have hc : e ∈ candidates shape settings source root := Plan.mem_of_mem_resolve he
  rw [candidates, Node.walk_eq_preorder] at hc
  exact mem_hits_of_mem_collect hc

theorem plan_precedes (shape : Shape) (settings : Settings) (source : List UInt8) (root : Node) :
    (plan shape settings source root).Pairwise fun a b => a.span.Precedes b.span :=
  Plan.resolve_precedes _

/-- An edit of a plan redacts a node of the tree that is not empty. -/
theorem exists_mem_of_mem_plan (hr : shape.Regular) (h : root.Nested shape) {e : Edit}
    (he : e ∈ plan shape settings source root) :
    ∃ m ∈ root.preorder, e.span = m.span ∧ m.span.Filled := by
  obtain ⟨n, hn, hit⟩ := mem_hits_of_mem_plan he
  exact exists_mem_of_mem_hits hr h hn hit

theorem plan_spans_precede (shape : Shape) (settings : Settings) (source : List UInt8) (root : Node) :
    ((plan shape settings source root).map Edit.span).Pairwise Span.Precedes :=
  List.pairwise_map.2 (plan_precedes shape settings source root)

theorem plan_spans_filled (hr : shape.Regular) (h : root.Nested shape) :
    ∀ a ∈ (plan shape settings source root).map Edit.span, a.Filled := by
  intro a ha
  obtain ⟨e, he, rfl⟩ := List.mem_map.1 ha
  obtain ⟨m, -, hspan, hf⟩ := exists_mem_of_mem_plan hr h he
  exact hspan ▸ hf

/-! ### Plans of a list of nodes -/

section
variable {nodes : List Node}

theorem collect_node (hr : shape.Regular) (h : root.Nested shape)
    (hsub : ∀ n ∈ nodes, n ∈ root.preorder) {e : Edit}
    (he : e ∈ collect shape settings source nodes) : ∃ m ∈ root.preorder, e.span = m.span := by
  obtain ⟨n, hn, hit⟩ := mem_hits_of_mem_collect he
  obtain ⟨m, hm, hspan, -⟩ := exists_mem_of_mem_hits hr h (hsub n hn) hit
  exact ⟨m, hm, hspan⟩

theorem collect_laminar (hr : shape.Regular) (h : root.Nested shape)
    (hsub : ∀ n ∈ nodes, n ∈ root.preorder) :
    Plan.Laminar (collect shape settings source nodes) := by
  intro a ha b hb
  obtain ⟨m, hm, hma⟩ := collect_node hr h hsub ha
  obtain ⟨n, hn, hnb⟩ := collect_node hr h hsub hb
  rw [hma, hnb]
  exact Node.within_or_apart h hm hn

/-- If each of some nodes of the tree leads those after it, each hit of them lies inside an edit of
their plan. -/
theorem resolve_collect_keeps (hr : shape.Regular) (h : root.Nested shape)
    (hsub : ∀ n ∈ nodes, n ∈ root.preorder) (hp : nodes.Pairwise Node.Leads) {n : Node}
    (hn : n ∈ nodes) {e : Edit} (he : e ∈ hits shape settings source n) :
    ∃ k ∈ Plan.resolve (collect shape settings source nodes), e.span.Within k.span := by
  have hstart : ∀ k ∈ collect shape settings source nodes, 0 ≤ k.start := by
    intro k hk
    obtain ⟨m, -, hspan⟩ := collect_node hr h hsub hk
    have : k.start = (m.start : Int) := congrArg Span.start hspan
    omega
  obtain ⟨c, hc, hec⟩ := collect_keeps hr (fun m hm => h.of_mem (hsub m hm)) hp hn he
  obtain ⟨k, hk, hck⟩ := Plan.resolve_keeps (collect_laminar hr h hsub) hstart hc
  exact ⟨k, hk, hec.trans hck⟩

end

/-! ### The plan of a tree -/

/-- Each hit of a node of the tree lies inside an edit of the plan. -/
theorem plan_keeps (hr : shape.Regular) (h : root.Nested shape) {n : Node}
    (hn : n ∈ root.preorder) {e : Edit} (he : e ∈ hits shape settings source n) :
    ∃ k ∈ plan shape settings source root, e.span.Within k.span := by
  rw [plan, candidates, Node.walk_eq_preorder]
  exact resolve_collect_keeps hr h (fun _ hm => hm) (Node.preorder_leads h) hn he

/-- The plan of a well-nested tree covers the bytes of the hits of all nodes, and no others. -/
theorem covered_plan_eq_covered_hits (l : Language) (settings : Settings) (source : List UInt8)
    (root : Node) (h : WellNested (Shape.ofLanguage l) source root) :
    Span.covered ((plan (Shape.ofLanguage l) settings source root).map Edit.span) =
      Span.covered
        ((root.preorder.flatMap (hits (Shape.ofLanguage l) settings source)).map Edit.span) := by
  have hr := Shape.ofLanguage_regular l
  ext i
  rw [Edit.mem_covered, Edit.mem_covered]
  constructor
  · rintro ⟨e, he, hi⟩
    exact ⟨e, List.mem_flatMap.2 (mem_hits_of_mem_plan he), hi⟩
  · rintro ⟨e, he, hi⟩
    obtain ⟨n, hn, hit⟩ := List.mem_flatMap.1 he
    obtain ⟨k, hk, hin⟩ := plan_keeps hr h.nested hn hit
    exact ⟨k, hk, hin.bytes_subset hi⟩

/-! ### A sample -/

/-- The source of an assignment to a name of eight bytes; the string starts with an escape. -/
def sampleCode (name : String) : String := name ++ " = \x22\\nAAAAAAAAAAAAAAAAAAAAAAAAA\x22"

def sampleSource (name : String) : List UInt8 := Text.Utf8.encode (sampleCode name).toList

/-- The string of the sample: its quotes, its escape, and the run after that. -/
def sampleString : Node :=
  .mk "string" 11 40
    [.mk "\x22" 11 12 [] [], .mk "escape_sequence" 12 14 [] [],
      .mk "string_fragment" 14 39 [] [], .mk "\x22" 39 40 [] []] []

def sampleTree : Node :=
  .mk "program" 0 40
    [.mk "expression_statement" 0 40
      [.mk "assignment_expression" 0 40
        [.mk "identifier" 0 8 [] [], .mk "=" 9 10 [] [], sampleString]
        [("left", 0), ("right", 2)]] []] []

/-- The string of the sample is bound to a sensitive name and holds a run that looks like a token. -/
theorem covered_plan_sample :
    WellNested (Shape.ofLanguage .javascript) (sampleSource "clé_key") sampleTree ∧
      Span.covered ((plan (Shape.ofLanguage .javascript) {} (sampleSource "clé_key")
        sampleTree).map Edit.span) = Span.covered [⟨11, 40⟩, ⟨14, 39⟩] := by
  have h : WellNested (Shape.ofLanguage .javascript) (sampleSource "clé_key") sampleTree := by
    decide +kernel
  have hits_eq : (sampleTree.preorder.flatMap (hits (Shape.ofLanguage .javascript) {}
      (sampleSource "clé_key"))).map Edit.span = [⟨11, 40⟩, ⟨14, 39⟩] := by decide +kernel
  refine ⟨h, ?_⟩
  rw [covered_plan_eq_covered_hits .javascript {} _ _ h, hits_eq]

end Redact.Secret
