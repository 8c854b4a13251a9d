import Redact.Proofs.Secret.Coverage
import Redact.Proofs.Settings.Names
import Redact.Proofs.Tree.Enumeration

/-! # The order of the search

The candidates depend on the order in which the nodes are visited: of the strings that start at one
place only the first becomes one. The plan does not, as long as parents come before their children. It
has the same spans in any such order (`resolve_collect_spans`), and the rule of an edit can be read off
the hits: it is that of a binding exactly if some binding redacts the span (`rule_of_mem_collect`). So
any enumeration of a well-nested tree brings the plan of the walk. -/

namespace Redact

/-- An empty node has no text. -/
theorem Node.text_of_stop_le_start {n : Node} (source : List UInt8) (h : n.stop ≤ n.start) :
    n.text source = "" := by
  have hbytes : n.bytes source = [] := by
    rw [bytes, List.drop_eq_nil_iff, List.length_take]
    omega
  rw [text, hbytes]
  rfl

namespace Secret

variable {shape : Shape} {settings : Settings} {source : List UInt8}

/-! ### Bindings and strings of one span -/

/-- A binding that redacts the span of a string is not visited after the string. Its name would have
to be empty, and the empty name is not sensitive. -/
theorem not_leads_of_span_eq (hr : shape.Regular) {n m : Node} (hn : n.Nested shape)
    (hm : m.Nested shape) {t b : Edit} (ht : tokenHit shape settings source n = some t)
    (hb : bindingHit shape settings source m = some b) (hspan : b.span = t.span) :
    ¬ n.Leads m := by
  obtain ⟨-, hkind, -, -, rfl⟩ := tokenHit_eq_some.1 ht
  obtain ⟨-, hplace, target, value, htarget, hvalue, hsens, hlit, rfl⟩ := bindingHit_eq_some.1 hb
  rw [redact_span, redact_span] at hspan
  have hnf : n.span.Filled := hn.filled (hr.literal_of_string _ hkind)
  have hvm : value.span.Within m.span := hm.child_within (value?_mem_children hvalue)
  obtain ⟨i, hi, hti⟩ := Option.bind_eq_some_iff.1 htarget
  obtain ⟨j, hj, hvj⟩ := Option.bind_eq_some_iff.1 hvalue
  have hij : i ≠ j := by
    rintro rfl
    exact hplace (hi.trans hj.symm)
  rintro (hin | hapart)
  · -- `m` has the span of its value, so nothing is left for its name
    have htm : target.span.Within m.span := hm.child_within (List.mem_of_getElem? hti)
    have hmn : m.span.Within n.span := hn.within hin
    have hclear : target.span.Apart value.span := hm.children_apart hti hvj hij
    have hempty : target.stop ≤ target.start := by
      rw [hspan] at hvm hclear
      simp only [Span.Within, Span.Apart, Span.Precedes, Node.span] at *
      omega
    have hnil : RawText.ofString "" = [] := rfl
    rw [Node.text_of_stop_le_start source hempty, hnil, isSensitive_nil] at hsens
    exact Bool.false_ne_true hsens
  · have hself : n.span.Apart value.span := hapart.mono (Span.Within.refl _) hvm
    rw [hspan] at hself
    exact (Span.Within.refl n.span).not_apart hnf hself

/-! ### Where candidates come from -/

theorem mem_visit {found : List Edit} {n : Node} {e : Edit} :
    e ∈ visit shape settings source found n ↔
      e ∈ found ∨ bindingHit shape settings source n = some e ∨
        tokenHit shape settings source n = some e ∧
          ∀ k ∈ addBinding found (bindingHit shape settings source n), k.start ≠ e.start := by
  rw [visit, mem_addToken, mem_addBinding, or_assoc]

theorem collect_append_singleton (nodes : List Node) (n : Node) :
    collect shape settings source (nodes ++ [n]) =
      visit shape settings source (collect shape settings source nodes) n := by
  simp [collect, visit]

/-- The edit of a binding is a candidate wherever the binding stands. -/
theorem bindingHit_mem_collect {nodes : List Node} {n : Node} (hn : n ∈ nodes) {e : Edit}
    (he : bindingHit shape settings source n = some e) :
    e ∈ collect shape settings source nodes := by
  induction nodes using List.reverseRecOn with
  | nil => simp at hn
  | append_singleton nodes x ih =>
    rw [collect_append_singleton]
    rcases List.mem_append.1 hn with hn | hn
    · exact subset_visit _ _ (ih hn)
    · obtain rfl : n = x := List.mem_singleton.1 hn
      exact mem_visit.2 (Or.inr (Or.inl he))

/-- A candidate is that of a binding, or that of a string `n` before which, and at which, no binding
redacts anything that starts where it does. -/
theorem mem_collect_cases {nodes : List Node} {e : Edit}
    (he : e ∈ collect shape settings source nodes) :
    (∃ n ∈ nodes, bindingHit shape settings source n = some e) ∨
      ∃ pre n post, nodes = pre ++ n :: post ∧ tokenHit shape settings source n = some e ∧
        ∀ m ∈ pre ++ [n], ∀ b, bindingHit shape settings source m = some b →
          b.start ≠ e.start := by
  induction nodes using List.reverseRecOn with
  | nil => simp [collect] at he
  | append_singleton nodes x ih =>
    rw [collect_append_singleton] at he
    rcases mem_visit.1 he with hfound | hbind | ⟨htok, hnone⟩
    · rcases ih hfound with ⟨n, hn, hbind⟩ | ⟨pre, n, post, rfl, htok, hclear⟩
      · exact Or.inl ⟨n, List.mem_append_left [x] hn, hbind⟩
      · exact Or.inr ⟨pre, n, post ++ [x], by simp, htok, hclear⟩
    · exact Or.inl ⟨x, by simp, hbind⟩
    · refine Or.inr ⟨nodes, x, [], rfl, htok, ?_⟩
      intro m hm b hb
      refine hnone b (mem_addBinding.2 ?_)
      rcases List.mem_append.1 hm with hm | hm
      · exact Or.inl (bindingHit_mem_collect hm hb)
      · obtain rfl : m = x := List.mem_singleton.1 hm
        exact Or.inr hb

/-- If each node leads those after it, the rule of a candidate is that of a binding exactly if some
binding redacts its span. -/
theorem rule_of_mem_collect (hr : shape.Regular) {nodes : List Node}
    (hn : ∀ n ∈ nodes, n.Nested shape) (hp : nodes.Pairwise Node.Leads) {e : Edit}
    (he : e ∈ collect shape settings source nodes) :
    e.rule = .sensitiveAssignment ↔
      ∃ n ∈ nodes, ∃ b, bindingHit shape settings source n = some b ∧ b.span = e.span := by
  rcases mem_collect_cases he with ⟨n, hmem, hbind⟩ | ⟨pre, n, post, rfl, htok, hclear⟩
  · obtain ⟨-, -, -, _, -, -, -, -, rfl⟩ := bindingHit_eq_some.1 hbind
    exact ⟨fun _ => ⟨n, hmem, _, hbind, rfl⟩, fun _ => rfl⟩
  · have hrule : e.rule = .secretToken := by
      obtain ⟨-, -, -, -, rfl⟩ := tokenHit_eq_some.1 htok
      rfl
    constructor
    · intro h
      rw [hrule] at h
      cases h
    · rintro ⟨m, hm, b, hb, hspan⟩
      have hbefore : m ∉ pre ++ [n] := fun hm =>
        hclear m hm b hb (congrArg Span.start hspan)
      have hafter : m ∈ post := by
        simp only [List.mem_append, List.mem_cons, List.not_mem_nil, or_false] at hm hbefore
        tauto
      have hleads : n.Leads m :=
        (List.pairwise_cons.1 (List.pairwise_append.1 hp).2.1).1 m hafter
      exact absurd hleads (not_leads_of_span_eq hr (hn n (by simp)) (hn m hm) htok hb hspan)

/-! ### Plans in any order -/

section
variable {root : Node} {xs ys : List Node}

theorem resolve_collect_filled (hr : shape.Regular) (h : root.Nested shape)
    (hx : ∀ n, n ∈ xs ↔ n ∈ root.preorder) :
    ∀ a ∈ (Plan.resolve (collect shape settings source xs)).map Edit.span, a.Filled := by
  intro a ha
  obtain ⟨e, he, rfl⟩ := List.mem_map.1 ha
  obtain ⟨n, hn, hit⟩ := mem_hits_of_mem_collect (Plan.mem_of_mem_resolve he)
  obtain ⟨m, -, hspan, hf⟩ := exists_mem_of_mem_hits hr h ((hx n).1 hn) hit
  rwa [hspan]

theorem resolve_collect_refines (hr : shape.Regular) (h : root.Nested shape)
    (hx : ∀ n, n ∈ xs ↔ n ∈ root.preorder) (hy : ∀ n, n ∈ ys ↔ n ∈ root.preorder)
    (hyp : ys.Pairwise Node.Leads) :
    ∀ a ∈ (Plan.resolve (collect shape settings source xs)).map Edit.span,
      ∃ b ∈ (Plan.resolve (collect shape settings source ys)).map Edit.span, a.Within b := by
  intro a ha
  obtain ⟨e, he, rfl⟩ := List.mem_map.1 ha
  obtain ⟨n, hn, hit⟩ := mem_hits_of_mem_collect (Plan.mem_of_mem_resolve he)
  have hny : n ∈ ys := (hy n).2 ((hx n).1 hn)
  obtain ⟨k, hk, hin⟩ := resolve_collect_keeps hr h (fun m hm => (hy m).1 hm) hyp hny hit
  exact ⟨k.span, List.mem_map_of_mem hk, hin⟩

theorem resolve_collect_spans (hr : shape.Regular) (h : root.Nested shape)
    (hx : ∀ n, n ∈ xs ↔ n ∈ root.preorder) (hy : ∀ n, n ∈ ys ↔ n ∈ root.preorder)
    (hxp : xs.Pairwise Node.Leads) (hyp : ys.Pairwise Node.Leads) :
    (Plan.resolve (collect shape settings source xs)).map Edit.span =
      (Plan.resolve (collect shape settings source ys)).map Edit.span :=
  Span.eq_of_refine (List.pairwise_map.2 (Plan.resolve_precedes _))
    (List.pairwise_map.2 (Plan.resolve_precedes _)) (resolve_collect_filled hr h hx)
    (resolve_collect_filled hr h hy) (resolve_collect_refines hr h hx hy hyp)
    (resolve_collect_refines hr h hy hx hxp)

/-- Two lists of the nodes of a tree, each with parents before children, bring one plan. -/
theorem resolve_collect_eq (hr : shape.Regular) (h : root.Nested shape)
    (hx : ∀ n, n ∈ xs ↔ n ∈ root.preorder) (hy : ∀ n, n ∈ ys ↔ n ∈ root.preorder)
    (hxp : xs.Pairwise Node.Leads) (hyp : ys.Pairwise Node.Leads) :
    Plan.resolve (collect shape settings source xs) =
      Plan.resolve (collect shape settings source ys) := by
  refine Edit.eq_of_spans_eq (resolve_collect_spans hr h hx hy hxp hyp) ?_
  intro a ha b hb hspan
  have hac := Plan.mem_of_mem_resolve ha
  have hbc := Plan.mem_of_mem_resolve hb
  have harule := rule_of_mem_collect hr (fun n hn => h.of_mem ((hx n).1 hn)) hxp hac
  have hbrule := rule_of_mem_collect hr (fun n hn => h.of_mem ((hy n).1 hn)) hyp hbc
  have hsame : a.rule = .sensitiveAssignment ↔ b.rule = .sensitiveAssignment := by
    rw [harule, hbrule, hspan]
    simp only [hx, hy]
  have hrule : a.rule = b.rule := by
    cases har : a.rule <;> cases hbr : b.rule <;> simp_all
  have hreplacement : a.replacement = b.replacement := by
    rw [replacement_of_mem_collect hr hac, replacement_of_mem_collect hr hbc]
  exact Edit.eq_of_span_eq hspan hreplacement hrule

end

/-- Any enumeration of a well-nested tree brings the plan that the walk brings: the same edits in the
same order. -/
theorem resolve_collect_nodesAt (l : Language) (settings : Settings) (source : List UInt8)
    (root : Node) (h : root.Nested (Shape.ofLanguage l)) (order : List (List Nat))
    (ho : root.Enumerates order) :
    Plan.resolve (collect (Shape.ofLanguage l) settings source (root.nodesAt order)) =
      plan (Shape.ofLanguage l) settings source root := by
  rw [plan, candidates, Node.walk_eq_preorder]
  exact resolve_collect_eq (Shape.ofLanguage_regular l) h (fun _ => ho.mem_nodesAt)
    (fun _ => Iff.rfl) (ho.nodesAt_leads h) (Node.preorder_leads h)

/-! ### A sample -/

/-- A token bound to a sensitive name, and a token on its own. -/
def pairCode : String := "key = \x22AAAAAAAAAAAAAAAAAAAAA\x22; \x22BBBBBBBBBBBBBBBBBBBBB\x22"

def quotedNode (start : Nat) : Node :=
  .mk "string" start (start + 23)
    [.mk "\x22" start (start + 1) [] [], .mk "string_fragment" (start + 1) (start + 22) [] [],
      .mk "\x22" (start + 22) (start + 23) [] []] []

def pairTree : Node :=
  .mk "program" 0 54
    [.mk "expression_statement" 0 30
      [.mk "assignment_expression" 0 29
        [.mk "identifier" 0 3 [] [], .mk "=" 4 5 [] [], quotedNode 6]
        [("left", 0), ("right", 2)],
        .mk ";" 29 30 [] []] [],
      .mk "expression_statement" 31 54 [quotedNode 31] []] []

/-- The places of the sample level by level, the first child first. -/
def pairLevels : List (List Nat) :=
  [[], [0], [1], [0, 0], [0, 1], [1, 0], [0, 0, 0], [0, 0, 1], [0, 0, 2], [1, 0, 0], [1, 0, 1],
    [1, 0, 2], [0, 0, 2, 0], [0, 0, 2, 1], [0, 0, 2, 2]]

/-- Level by level, the candidates come in another order than in the walk; the plan is the same. -/
theorem resolve_collect_levels :
    pairTree.Nested (Shape.ofLanguage .javascript) ∧ pairTree.Enumerates pairLevels ∧
      collect (Shape.ofLanguage .javascript) {} (Text.Utf8.encode pairCode.toList)
          (pairTree.nodesAt pairLevels) ≠
        candidates (Shape.ofLanguage .javascript) {} (Text.Utf8.encode pairCode.toList) pairTree ∧
      Plan.resolve (collect (Shape.ofLanguage .javascript) {} (Text.Utf8.encode pairCode.toList)
          (pairTree.nodesAt pairLevels)) =
        plan (Shape.ofLanguage .javascript) {} (Text.Utf8.encode pairCode.toList) pairTree := by
  have h : pairTree.Nested (Shape.ofLanguage .javascript) := by decide +kernel
  have ho : pairTree.Enumerates pairLevels := by decide +kernel
  exact ⟨h, ho, by decide +kernel, resolve_collect_nodesAt .javascript {} _ _ h _ ho⟩

end Secret

end Redact
