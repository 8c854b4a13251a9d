import Redact.Proofs.Tree.Nesting
import Redact.Secret.Search

/-! # Hits and candidates

The hits of a node are the edits that it asks for: that of a binding, which redacts the value of the
node, and that of a string, which redacts the node. The candidates of a list of nodes are hits of
these (`mem_hits_of_mem_collect`), but not all of them: a string is left out if a candidate before it
starts where it does. If each node leads those after it, as in the preorder of a well-nested tree,
that candidate holds the string, so each hit lies inside a candidate (`collect_keeps`). -/

namespace Redact

/-- Strings are literals and bind nothing. -/
structure Shape.Regular (shape : Shape) : Prop where
  literal_of_string : ∀ k ∈ shape.stringKinds, k ∈ shape.literalKinds
  string_not_binding : ∀ k ∈ shape.stringKinds, k ∉ shape.bindingKinds

theorem Shape.ofLanguage_regular (l : Language) : (Shape.ofLanguage l).Regular := by
  cases l <;> constructor <;> decide

namespace Secret

section
variable (shape : Shape) (settings : Settings) (source : List UInt8)

/-- The text of a string without the marks before its quote. -/
def body (n : Node) : List Char := (n.text source).toList.dropWhile shape.stringMarks.contains

def hits (n : Node) : List Edit :=
  (bindingHit shape settings source n).toList ++ (tokenHit shape settings source n).toList

/-- The candidates after the visit of a node. -/
def visit (found : List Edit) (n : Node) : List Edit :=
  addToken (addBinding found (bindingHit shape settings source n))
    (tokenHit shape settings source n)

/-- A string `b` that starts where a hit of `a` does lies inside that hit. -/
def Shields (a b : Node) : Prop :=
  ∀ e ∈ hits shape settings source a, ∀ t, tokenHit shape settings source b = some t →
    e.start = t.start → t.span.Within e.span

end

variable {shape : Shape} {settings : Settings} {source : List UInt8}

/-! ### The two kinds of hits -/

@[simp]
theorem redact_span (settings : Settings) (rule : Rule) (n : Node) :
    (redact settings rule n).span = n.span := rfl

theorem bindingHit_eq_some {n : Node} {e : Edit} :
    bindingHit shape settings source n = some e ↔
      n.kind ∈ shape.bindingKinds ∧ shape.targetPlace? n ≠ shape.valuePlace? n ∧
        ∃ target value, shape.target? n = some target ∧ shape.value? n = some value ∧
          isSensitive settings.names (target.text source) = true ∧
          value.kind ∈ shape.literalKinds ∧ e = redact settings .sensitiveAssignment value := by
  unfold bindingHit
  cases shape.target? n with
  | none => simp
  | some target =>
    cases shape.value? n with
    | none => simp
    | some value => simp [and_assoc, @eq_comm _ (redact _ _ _) e]

theorem tokenHit_eq_some {n : Node} {e : Edit} :
    tokenHit shape settings source n = some e ↔
      settings.tokensEnabled = true ∧ n.kind ∈ shape.stringKinds ∧
        settings.allowlist.contains (RawText.ofList (stripQuotes (body shape source n))) = false ∧
        looksLikeToken settings.tokenMinLength (body shape source n) = true ∧
        e = redact settings .secretToken n := by
  simp [tokenHit, body, and_assoc, @eq_comm _ (redact _ _ _) e]

theorem mem_hits {n : Node} {e : Edit} :
    e ∈ hits shape settings source n ↔
      bindingHit shape settings source n = some e ∨ tokenHit shape settings source n = some e := by
  simp [hits]

theorem value?_mem_children {n v : Node} (h : shape.value? n = some v) : v ∈ n.children := by
  obtain ⟨i, -, hi⟩ := Option.bind_eq_some_iff.1 h
  exact List.mem_of_getElem? hi

/-- A hit redacts a literal: the node or one of its children. -/
theorem exists_node_of_mem_hits (hr : shape.Regular) {n : Node} {e : Edit}
    (he : e ∈ hits shape settings source n) :
    ∃ m, (m = n ∨ m ∈ n.children) ∧ m.kind ∈ shape.literalKinds ∧
      ∃ rule, e = redact settings rule m := by
  rcases mem_hits.1 he with hb | ht
  · obtain ⟨-, -, -, value, -, hv, -, hl, rfl⟩ := bindingHit_eq_some.1 hb
    exact ⟨value, Or.inr (value?_mem_children hv), hl, _, rfl⟩
  · obtain ⟨-, hk, -, -, rfl⟩ := tokenHit_eq_some.1 ht
    exact ⟨n, Or.inl rfl, hr.literal_of_string _ hk, _, rfl⟩

theorem exists_preorder_of_mem_hits (hr : shape.Regular) {root n : Node} (hn : n ∈ root.preorder)
    {e : Edit} (he : e ∈ hits shape settings source n) :
    ∃ m ∈ root.preorder, m.kind ∈ shape.literalKinds ∧ ∃ rule, e = redact settings rule m := by
  obtain ⟨m, hm, hl, hrule⟩ := exists_node_of_mem_hits hr he
  refine ⟨m, ?_, hl, hrule⟩
  rcases hm with rfl | hm
  · exact hn
  · exact Node.mem_preorder_trans (Node.mem_preorder_of_mem_children hm) hn

/-- The node that a hit of a tree redacts lies in the tree and is not empty. -/
theorem exists_mem_of_mem_hits (hr : shape.Regular) {root n : Node} (h : root.Nested shape)
    (hn : n ∈ root.preorder) {e : Edit} (he : e ∈ hits shape settings source n) :
    ∃ m ∈ root.preorder, e.span = m.span ∧ m.span.Filled := by
  obtain ⟨m, hm, hl, rule, rfl⟩ := exists_preorder_of_mem_hits hr hn he
  exact ⟨m, hm, rfl, (h.of_mem hm).filled hl⟩

theorem shields_of_leads (hr : shape.Regular) {a b : Node} (ha : a.Nested shape)
    (hb : b.Nested shape) (h : a.Leads b) : Shields shape settings source a b := by
  intro e he t ht hstart
  obtain ⟨-, hkind, -, -, rfl⟩ := tokenHit_eq_some.1 ht
  have hbf : b.span.Filled := hb.filled (hr.literal_of_string _ hkind)
  rcases mem_hits.1 he with hbind | htok
  · obtain ⟨hak, -, -, value, -, hv, -, hl, rfl⟩ := bindingHit_eq_some.1 hbind
    have hvm := value?_mem_children hv
    have hvf : value.span.Filled := (ha.of_child hvm).filled hl
    have hclash : ¬ value.span.Apart b.span := Span.not_apart_of_start_eq hvf hbf hstart
    rcases h with hin | hapart
    · rcases Node.mem_preorder.1 hin with rfl | ⟨c, hc, hbc⟩
      · exact absurd hak (hr.string_not_binding _ hkind)
      · -- the child that `b` lies in is the value, as another one is apart from it
        have hbin : b.span.Within c.span := (ha.of_child hc).within hbc
        rcases ha.children_eq_or_apart hvm hc with rfl | hapart
        · exact hbin
        · exact absurd (hapart.mono (Span.Within.refl _) hbin) hclash
    · exact absurd (hapart.mono (ha.child_within hvm) (Span.Within.refl _)) hclash
  · obtain ⟨-, hak, -, -, rfl⟩ := tokenHit_eq_some.1 htok
    have haf : a.span.Filled := ha.filled (hr.literal_of_string _ hak)
    rcases h with hin | hapart
    · exact ha.within hin
    · exact absurd hapart (Span.not_apart_of_start_eq haf hbf hstart)

/-! ### Candidates -/

theorem mem_addBinding {found : List Edit} {hit : Option Edit} {e : Edit} :
    e ∈ addBinding found hit ↔ e ∈ found ∨ hit = some e := by
  cases hit with
  | none => simp [addBinding]
  | some x => simp [addBinding, eq_comm]

/-- A string becomes a candidate unless a candidate starts where it does. -/
theorem mem_addToken {found : List Edit} {hit : Option Edit} {e : Edit} :
    e ∈ addToken found hit ↔ e ∈ found ∨ hit = some e ∧ ∀ k ∈ found, k.start ≠ e.start := by
  cases hit with
  | none => simp [addToken]
  | some t =>
    rw [addToken]
    by_cases hstart : found.any (·.start == t.start)
    · obtain ⟨k, hk, hkt⟩ := List.any_eq_true.1 hstart
      rw [if_pos hstart]
      constructor
      · exact Or.inl
      · rintro (he | ⟨hte, hnone⟩)
        · exact he
        · obtain rfl : t = e := Option.some.inj hte
          exact absurd (by simpa using hkt) (hnone k hk)
    · have hnone : ∀ k ∈ found, k.start ≠ t.start := by simpa using hstart
      rw [if_neg hstart, List.mem_append, List.mem_singleton]
      constructor
      · rintro (he | rfl)
        · exact Or.inl he
        · exact Or.inr ⟨rfl, hnone⟩
      · rintro (he | ⟨hte, -⟩)
        · exact Or.inl he
        · exact Or.inr (Option.some.inj hte).symm

theorem subset_addToken (found : List Edit) (hit : Option Edit) : found ⊆ addToken found hit :=
  fun _ he => mem_addToken.2 (Or.inl he)

theorem subset_visit (found : List Edit) (n : Node) :
    found ⊆ visit shape settings source found n :=
  fun _ he => subset_addToken _ _ (mem_addBinding.2 (Or.inl he))

theorem mem_or_of_mem_visit {found : List Edit} {n : Node} {e : Edit}
    (he : e ∈ visit shape settings source found n) :
    e ∈ found ∨ e ∈ hits shape settings source n := by
  rcases mem_addToken.1 he with he | ⟨he, -⟩
  · rcases mem_addBinding.1 he with he | he
    · exact Or.inl he
    · exact Or.inr (mem_hits.2 (Or.inl he))
  · exact Or.inr (mem_hits.2 (Or.inr he))

theorem subset_foldl_visit (nodes : List Node) (found : List Edit) :
    found ⊆ nodes.foldl (visit shape settings source) found := by
  induction nodes generalizing found with
  | nil => exact List.Subset.refl found
  | cons n rest ih => exact List.Subset.trans (subset_visit found n) (ih _)

theorem mem_or_of_mem_foldl_visit {nodes : List Node} {found : List Edit} {e : Edit}
    (he : e ∈ nodes.foldl (visit shape settings source) found) :
    e ∈ found ∨ ∃ n ∈ nodes, e ∈ hits shape settings source n := by
  induction nodes generalizing found with
  | nil => exact Or.inl he
  | cons n rest ih =>
    rcases ih he with he | ⟨m, hm, he⟩
    · rcases mem_or_of_mem_visit he with he | he
      · exact Or.inl he
      · exact Or.inr ⟨n, List.mem_cons_self .., he⟩
    · exact Or.inr ⟨m, List.mem_cons_of_mem n hm, he⟩

/-- After the visit of a node each hit of it lies inside a candidate, if the candidates before hold
the strings that start where they do. -/
theorem visit_keeps {found : List Edit} {n : Node} (hself : Shields shape settings source n n)
    (hf : ∀ e ∈ found, ∀ t, tokenHit shape settings source n = some t → e.start = t.start →
      t.span.Within e.span) {e : Edit} (he : e ∈ hits shape settings source n) :
    ∃ k ∈ visit shape settings source found n, e.span.Within k.span := by
  rcases mem_hits.1 he with hb | ht
  · exact ⟨e, subset_addToken _ _ (mem_addBinding.2 (Or.inr hb)), Span.Within.refl _⟩
  · by_cases hblock : ∃ k ∈ addBinding found (bindingHit shape settings source n), k.start = e.start
    · obtain ⟨k, hk, hstart⟩ := hblock
      refine ⟨k, subset_addToken _ _ hk, ?_⟩
      rcases mem_addBinding.1 hk with hk | hk
      · exact hf k hk e ht hstart
      · exact hself k (mem_hits.2 (Or.inl hk)) e ht hstart
    · have hnone : ∀ k ∈ addBinding found (bindingHit shape settings source n),
          k.start ≠ e.start := fun k hk hstart => hblock ⟨k, hk, hstart⟩
      exact ⟨e, mem_addToken.2 (Or.inr ⟨ht, hnone⟩), Span.Within.refl _⟩

theorem foldl_visit_keeps {nodes : List Node} {found : List Edit}
    (hp : nodes.Pairwise (Shields shape settings source))
    (hself : ∀ n ∈ nodes, Shields shape settings source n n)
    (hf : ∀ e ∈ found, ∀ n ∈ nodes, ∀ t, tokenHit shape settings source n = some t →
      e.start = t.start → t.span.Within e.span)
    {n : Node} (hn : n ∈ nodes) {e : Edit} (he : e ∈ hits shape settings source n) :
    ∃ k ∈ nodes.foldl (visit shape settings source) found, e.span.Within k.span := by
  induction nodes generalizing found with
  | nil => simp at hn
  | cons x rest ih =>
    obtain ⟨hx, hrest⟩ := List.pairwise_cons.1 hp
    obtain ⟨hsx, hsrest⟩ := List.forall_mem_cons.1 hself
    rw [List.foldl_cons]
    rcases List.mem_cons.1 hn with rfl | hn
    · obtain ⟨k, hk, hin⟩ :=
        visit_keeps hsx (fun e he => hf e he n (List.mem_cons_self ..)) he
      exact ⟨k, subset_foldl_visit rest _ hk, hin⟩
    · refine ih hrest hsrest ?_ hn
      intro k hk m hm
      rcases mem_or_of_mem_visit hk with hk | hk
      · exact hf k hk m (List.mem_cons_of_mem x hm)
      · exact hx m hm k hk

theorem mem_hits_of_mem_collect {nodes : List Node} {e : Edit}
    (he : e ∈ collect shape settings source nodes) :
    ∃ n ∈ nodes, e ∈ hits shape settings source n := by
  rcases mem_or_of_mem_foldl_visit he with he | he
  · simp at he
  · exact he

theorem replacement_of_mem_collect (hr : shape.Regular) {nodes : List Node} {e : Edit}
    (he : e ∈ collect shape settings source nodes) : e.replacement = settings.replacement := by
  obtain ⟨n, -, hit⟩ := mem_hits_of_mem_collect he
  obtain ⟨m, -, -, rule, rfl⟩ := exists_node_of_mem_hits hr hit
  rfl

/-- If each node leads those after it, each hit lies inside a candidate. -/
theorem collect_keeps (hr : shape.Regular) {nodes : List Node}
    (hn : ∀ n ∈ nodes, n.Nested shape) (hp : nodes.Pairwise Node.Leads) {n : Node}
    (hmem : n ∈ nodes) {e : Edit} (he : e ∈ hits shape settings source n) :
    ∃ k ∈ collect shape settings source nodes, e.span.Within k.span := by
  have hshields : nodes.Pairwise (Shields shape settings source) :=
    hp.imp_of_mem fun ha hb hab => shields_of_leads hr (hn _ ha) (hn _ hb) hab
  have hself : ∀ n ∈ nodes, Shields shape settings source n n := fun n hm =>
    shields_of_leads hr (hn n hm) (hn n hm) (Or.inl (Node.mem_preorder_self n))
  exact foldl_visit_keeps hshields hself (by simp) hmem he

end Secret

end Redact
