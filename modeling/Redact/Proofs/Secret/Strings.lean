import Redact.Proofs.Secret.Coverage

/-! # Strings that are cut open

A placeholder has quotes of its own, so a string that keeps its quotes must not get one inside. The
plan keeps to this exactly if each string in the tree of which a node has a hit lies inside a hit
itself (`closed_iff`). It need not: what stands in a string is judged on its own, and a run after an
escape can look like a token when the whole string does not (`not_closed_sample`). -/

namespace Redact.Secret

section
variable (shape : Shape) (settings : Settings) (source : List UInt8) (root : Node)

/-- An edit of the plan that lies inside a string comes with one that holds the whole string. -/
def Closed : Prop :=
  ∀ e ∈ plan shape settings source root, ∀ s ∈ root.preorder, s.kind = "string" →
    e.span.Within s.span → ∃ k ∈ plan shape settings source root, s.span.Within k.span

/-- The span of the node lies inside a hit of the tree. -/
def InHit (s : Node) : Prop :=
  ∃ n ∈ root.preorder, ∃ e ∈ hits shape settings source n, s.span.Within e.span

instance : Decidable (Closed shape settings source root) :=
  inferInstanceAs (Decidable (∀ e ∈ plan shape settings source root, ∀ s ∈ root.preorder, _ → _ →
    ∃ k ∈ plan shape settings source root, _))

instance (s : Node) : Decidable (InHit shape settings source root s) :=
  inferInstanceAs (Decidable (∃ n ∈ root.preorder, ∃ e ∈ hits shape settings source n, _))

end

variable {shape : Shape} {settings : Settings} {source : List UInt8} {root : Node}

theorem exists_plan_of_inHit (hr : shape.Regular) (h : root.Nested shape) {s : Node}
    (hs : InHit shape settings source root s) :
    ∃ k ∈ plan shape settings source root, s.span.Within k.span := by
  obtain ⟨n, hn, e, he, hin⟩ := hs
  obtain ⟨k, hk, hek⟩ := plan_keeps hr h hn he
  exact ⟨k, hk, hin.trans hek⟩

/-- A node that has a hit inside a node `s` lies in the tree of `s`, or the hit holds `s`. -/
theorem mem_or_within_of_hit (hr : shape.Regular) (h : root.Nested shape) {n s : Node}
    (hn : n ∈ root.preorder) (hs : s ∈ root.preorder) {e : Edit}
    (he : e ∈ hits shape settings source n) (hin : e.span.Within s.span) :
    n ∈ s.preorder ∨ s.span.Within e.span := by
  obtain ⟨m, hm, hl, rule, rfl⟩ := exists_node_of_mem_hits hr he
  have hnn : n.Nested shape := h.of_mem hn
  have hmn : m.span.Within n.span := by
    rcases hm with rfl | hm
    · exact Span.Within.refl _
    · exact hnn.child_within hm
  have hmf : m.span.Filled := by
    rcases hm with rfl | hm
    · exact hnn.filled hl
    · exact (hnn.of_child hm).filled hl
  rw [redact_span] at hin ⊢
  rcases Node.mem_or_apart h hn hs with hns | hsn | hapart
  · exact Or.inl hns
  · rcases Node.mem_preorder.1 hsn with rfl | ⟨c, hc, hsc⟩
    · exact Or.inl (Node.mem_preorder_self s)
    · have hsc' : s.span.Within c.span := (hnn.of_child hc).within hsc
      rcases hm with rfl | hm
      · exact Or.inr (hnn.within hsn)
      · -- the child that `s` lies in is the one that is redacted
        rcases hnn.children_eq_or_apart hm hc with rfl | hapart
        · exact Or.inr hsc'
        · exact absurd hapart ((hin.trans hsc').not_apart hmf)
  · exact absurd (hapart.mono hmn (Span.Within.refl s.span)) (hin.not_apart hmf)

/-- The plan leaves no string cut open exactly if each string with a hit in its tree lies inside a
hit. -/
theorem closed_iff (l : Language) (settings : Settings) (source : List UInt8) (root : Node)
    (h : WellNested (Shape.ofLanguage l) source root) :
    Closed (Shape.ofLanguage l) settings source root ↔
      ∀ s ∈ root.preorder, s.kind = "string" →
        (∃ n ∈ s.preorder, hits (Shape.ofLanguage l) settings source n ≠ []) →
          InHit (Shape.ofLanguage l) settings source root s := by
  have hr := Shape.ofLanguage_regular l
  have hroot := h.nested
  constructor
  · rintro hclosed s hs hk ⟨n, hns, hne⟩
    obtain ⟨e, he⟩ := List.exists_mem_of_ne_nil _ hne
    obtain ⟨m, hm, hspan, hf⟩ := exists_mem_of_mem_hits hr (hroot.of_mem hs) hns he
    have hes : e.span.Within s.span := hspan ▸ (hroot.of_mem hs).within hm
    have hn : n ∈ root.preorder := Node.mem_preorder_trans hns hs
    obtain ⟨k, hkp, hek⟩ := plan_keeps hr hroot hn he
    obtain ⟨z, hz, hkz, -⟩ := exists_mem_of_mem_plan hr hroot hkp
    -- `k` and `s` share the bytes of `e`, so one lies inside the other
    have hkept : ∃ k ∈ plan (Shape.ofLanguage l) settings source root, s.span.Within k.span := by
      rcases Node.within_or_apart hroot hz hs with hin | hin | hapart
      · exact hclosed k hkp s hs hk (hkz ▸ hin)
      · exact ⟨k, hkp, hkz ▸ hin⟩
      · have hef : e.span.Filled := hspan ▸ hf
        have hself := hapart.mono (hkz ▸ hek) hes
        exact absurd hself ((Span.Within.refl e.span).not_apart hef)
    obtain ⟨p, hp, hsp⟩ := hkept
    obtain ⟨y, hy, hit⟩ := mem_hits_of_mem_plan hp
    exact ⟨y, hy, p, hit, hsp⟩
  · intro hcond e he s hs hk hes
    obtain ⟨n, hn, hit⟩ := mem_hits_of_mem_plan he
    rcases mem_or_within_of_hit hr hroot hn hs hit hes with hns | hse
    · exact exists_plan_of_inHit hr hroot
        (hcond s hs hk ⟨n, hns, List.ne_nil_of_mem hit⟩)
    · exact ⟨e, he, hse⟩

/-- The string of the sample is bound to a sensitive name, so nothing in it is redacted alone. -/
theorem closed_sample :
    WellNested (Shape.ofLanguage .javascript) (sampleSource "clé_key") sampleTree ∧
      Closed (Shape.ofLanguage .javascript) {} (sampleSource "clé_key") sampleTree := by
  have h : WellNested (Shape.ofLanguage .javascript) (sampleSource "clé_key") sampleTree := by
    decide +kernel
  exact ⟨h, (closed_iff .javascript {} _ _ h).2 (by decide +kernel)⟩

/-- Without the sensitive name, the run after the escape is redacted and its string is not. -/
theorem not_closed_sample :
    WellNested (Shape.ofLanguage .javascript) (sampleSource "clé_mot") sampleTree ∧
      ¬ Closed (Shape.ofLanguage .javascript) {} (sampleSource "clé_mot") sampleTree := by
  decide +kernel

end Redact.Secret
