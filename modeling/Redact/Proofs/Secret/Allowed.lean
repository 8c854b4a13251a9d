import Redact.Proofs.Secret.Coverage

/-! # Allowed strings

The allowlist keeps a string from being redacted as a token, wherever it stands. It says nothing of
bindings: a string that is bound to a sensitive name is redacted whether it is allowed or not
(`redacted_bound_sample`). These are all the edits that an allowed string can get, and it gets one exactly
if no hit holds more than the string (`redacted_iff_bound`). -/

namespace Redact.Secret

section
variable (shape : Shape) (settings : Settings) (source : List UInt8)

/-- A string whose text is in the allowlist, without marks and quotes. -/
structure Allowed (s : Node) : Prop where
  string : s.kind ∈ shape.stringKinds
  listed : settings.allowlist.contains (RawText.ofList (stripQuotes (body shape source s))) = true

/-- The hit of a binding has the span. -/
def Bound (root : Node) (a : Span) : Prop :=
  ∃ n ∈ root.preorder, (bindingHit shape settings source n).map Edit.span = some a

/-- No hit holds the span and more. -/
def Largest (root : Node) (a : Span) : Prop :=
  ∀ n ∈ root.preorder, ∀ e ∈ hits shape settings source n, a.Within e.span → e.span = a

instance (s : Node) : Decidable (Allowed shape settings source s) :=
  decidable_of_iff
    (s.kind ∈ shape.stringKinds ∧
      settings.allowlist.contains (RawText.ofList (stripQuotes (body shape source s))) = true)
    ⟨fun ⟨h1, h2⟩ => ⟨h1, h2⟩, fun ⟨h1, h2⟩ => ⟨h1, h2⟩⟩

instance (root : Node) (a : Span) : Decidable (Bound shape settings source root a) :=
  inferInstanceAs (Decidable (∃ n ∈ root.preorder, _))

end

variable {shape : Shape} {settings : Settings} {source : List UInt8} {root s : Node}

/-! ### The spans of a plan -/

/-- The plan has an edit of a span exactly if a hit has the span and no hit holds more. -/
theorem exists_plan_span_iff (hr : shape.Regular) (h : root.Nested shape) {a : Span} :
    (∃ e ∈ plan shape settings source root, e.span = a) ↔
      (∃ n ∈ root.preorder, ∃ e ∈ hits shape settings source n, e.span = a) ∧
        Largest shape settings source root a := by
  constructor
  · rintro ⟨e, he, rfl⟩
    obtain ⟨n, hn, hit⟩ := mem_hits_of_mem_plan he
    refine ⟨⟨n, hn, e, hit, rfl⟩, ?_⟩
    intro m hm k hk hin
    obtain ⟨p, hp, hkp⟩ := plan_keeps hr h hm hk
    -- of two edits of the plan none lies inside the other
    have heq : e.span = p.span :=
      Span.eq_of_within (plan_spans_precede shape settings source root) (plan_spans_filled hr h)
        (List.mem_map_of_mem he) (List.mem_map_of_mem hp) (hin.trans hkp)
    exact (heq ▸ hkp).antisymm hin
  · rintro ⟨⟨n, hn, e, hit, rfl⟩, hlargest⟩
    obtain ⟨p, hp, hin⟩ := plan_keeps hr h hn hit
    obtain ⟨m, hm, hitp⟩ := mem_hits_of_mem_plan hp
    exact ⟨p, hp, hlargest m hm p hitp hin⟩

/-! ### What asks for an edit of an allowed string -/

theorem body_of_span_eq {n : Node} (h : n.span = s.span) :
    body shape source n = body shape source s := by
  have hstart : (n.start : Int) = s.start := congrArg Span.start h
  have hstop : (n.stop : Int) = s.stop := congrArg Span.stop h
  rw [body, body, Node.text, Node.text, Node.bytes, Node.bytes, Int.ofNat_inj.1 hstart,
    Int.ofNat_inj.1 hstop]

/-- No node is redacted as a token that covers the same bytes as an allowed string. -/
theorem Allowed.bindingHit_eq (ha : Allowed shape settings source s) {n : Node} {e : Edit}
    (he : e ∈ hits shape settings source n) (hspan : e.span = s.span) :
    bindingHit shape settings source n = some e := by
  rcases mem_hits.1 he with hbind | htok
  · exact hbind
  · obtain ⟨-, -, hallow, -, rfl⟩ := tokenHit_eq_some.1 htok
    rw [body_of_span_eq hspan, ha.listed] at hallow
    exact absurd hallow.symm Bool.false_ne_true

theorem Allowed.exists_hit_iff (ha : Allowed shape settings source s) :
    (∃ n ∈ root.preorder, ∃ e ∈ hits shape settings source n, e.span = s.span) ↔
      Bound shape settings source root s.span := by
  constructor
  · rintro ⟨n, hn, e, hit, hspan⟩
    refine ⟨n, hn, ?_⟩
    rw [ha.bindingHit_eq hit hspan, Option.map_some, hspan]
  · rintro ⟨n, hn, hbound⟩
    obtain ⟨e, he, hspan⟩ := Option.map_eq_some_iff.1 hbound
    exact ⟨n, hn, e, mem_hits.2 (Or.inl he), hspan⟩

/-- An allowed string is redacted only as the value of a binding to a sensitive name. The plan has an edit
of its span exactly if a binding asks for one and no hit holds more than the string. -/
theorem redacted_iff_bound (l : Language) (settings : Settings) (source : List UInt8) {root s : Node}
    (h : root.Nested (Shape.ofLanguage l)) (ha : Allowed (Shape.ofLanguage l) settings source s) :
    (∀ e ∈ plan (Shape.ofLanguage l) settings source root, e.span = s.span →
        e.rule = .sensitiveAssignment) ∧
      ((∃ e ∈ plan (Shape.ofLanguage l) settings source root, e.span = s.span) ↔
        Bound (Shape.ofLanguage l) settings source root s.span ∧
          Largest (Shape.ofLanguage l) settings source root s.span) := by
  constructor
  · intro e he hspan
    obtain ⟨n, hn, hit⟩ := mem_hits_of_mem_plan he
    obtain ⟨-, -, -, value, -, -, -, -, rfl⟩ := bindingHit_eq_some.1 (ha.bindingHit_eq hit hspan)
    rfl
  · rw [exists_plan_span_iff (Shape.ofLanguage_regular l) h, ha.exists_hit_iff]

/-! ### A sample -/

/-- A string of Python that is bound to a name of eight bytes. -/
def boundString : Node :=
  .mk "string" 11 34
    [.mk "string_start" 11 12 [] [], .mk "string_content" 12 33 [] [], .mk "string_end" 33 34 [] []] []

def boundTree : Node :=
  .mk "module" 0 34
    [.mk "expression_statement" 0 34
      [.mk "assignment" 0 34
        [.mk "identifier" 0 8 [] [], .mk "=" 9 10 [] [], boundString]
        [("left", 0), ("right", 2)]] []] []

def boundSource (name : String) : List UInt8 :=
  Text.Utf8.encode (name ++ " = \x22example-example-12345\x22").toList

def allowing : Settings := { allowlist := .ofList ["example-example-12345"] }

/-- The name is not sensitive, so the string is kept although it looks like a token. -/
theorem redacted_iff_bound_kept :
    boundTree.Nested (Shape.ofLanguage .python) ∧
      Allowed (Shape.ofLanguage .python) allowing (boundSource "greeting") boundString ∧
      (∃ e ∈ plan (Shape.ofLanguage .python) {} (boundSource "greeting") boundTree,
        e.span = boundString.span) ∧
      ¬ ∃ e ∈ plan (Shape.ofLanguage .python) allowing (boundSource "greeting") boundTree,
        e.span = boundString.span := by
  have h : boundTree.Nested (Shape.ofLanguage .python) := by decide +kernel
  have ha : Allowed (Shape.ofLanguage .python) allowing (boundSource "greeting") boundString := by
    decide +kernel
  have hfree : ¬ Bound (Shape.ofLanguage .python) allowing (boundSource "greeting") boundTree
      boundString.span := by decide +kernel
  refine ⟨h, ha, by decide +kernel, ?_⟩
  rw [(redacted_iff_bound .python allowing _ h ha).2]
  exact fun hbound => hfree hbound.1

/-- The name is sensitive, so the string is redacted although it is allowed. -/
theorem redacted_bound_sample :
    boundTree.Nested (Shape.ofLanguage .python) ∧ boundString ∈ boundTree.preorder ∧
      Allowed (Shape.ofLanguage .python) allowing (boundSource "password") boundString ∧
      ∃ e ∈ plan (Shape.ofLanguage .python) allowing (boundSource "password") boundTree,
        e.span = boundString.span := by
  have hmem : boundString ∈ boundTree.preorder := by
    simp [boundTree, Node.preorder, Node.preorderAll, Node.mem_preorder_self]
  exact ⟨by decide +kernel, hmem, by decide +kernel, by decide +kernel⟩

end Redact.Secret
