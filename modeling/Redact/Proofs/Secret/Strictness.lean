import Redact.Proofs.Secret.Coverage
import Redact.Proofs.Settings.Names

/-! # Stricter settings

Settings are at least as strict as others if they have their extra names, look for tokens if the
others do, ask no more of the length of a token, and allow nothing that the others do not allow. What
asks for an edit under settings asks for one of the same span under stricter ones (`hits_mono`). The
sweep alone would not keep this, as one more candidate can make it drop others; what makes it hold is
that a plan covers the bytes of all hits. -/

namespace Redact

structure Settings.Stricter (a b : Settings) : Prop where
  names : ∀ name ∈ a.extraNames, name ∈ b.extraNames
  tokens : a.tokensEnabled = true → b.tokensEnabled = true
  minLength : b.tokenMinLength ≤ a.tokenMinLength
  allowlist : ∀ s, b.allowlist.contains s = true → a.allowlist.contains s = true

theorem Settings.stricter_addName (s : Settings) (name : RawText) :
    s.Stricter { s with extraNames := s.extraNames ++ [name] } where
  names _ hx := List.mem_append_left [name] hx
  tokens := id
  minLength := le_rfl
  allowlist _ := id

namespace Secret

variable {shape : Shape} {source : List UInt8} {a b : Settings}

theorem looksLikeToken_mono {m k : Int} (h : k ≤ m) {cs : List Char}
    (ht : looksLikeToken m cs = true) : looksLikeToken k cs = true := by
  simp only [looksLikeToken, Bool.and_eq_true, decide_eq_true_eq] at ht ⊢
  exact ⟨by omega, ht.2⟩

/-- Each hit under settings has one of the same span under stricter settings. -/
theorem hits_mono (hs : a.Stricter b) {n : Node} {e : Edit} (he : e ∈ hits shape a source n) :
    ∃ k ∈ hits shape b source n, k.span = e.span := by
  rcases mem_hits.1 he with hbind | htok
  · obtain ⟨hk, hplace, target, value, htarget, hvalue, hsens, hlit, rfl⟩ :=
      bindingHit_eq_some.1 hbind
    have hsens' := isSensitive_mono (Settings.names_subset hs.names) hsens
    refine ⟨redact b .sensitiveAssignment value, mem_hits.2 (Or.inl ?_), rfl⟩
    exact bindingHit_eq_some.2
      ⟨hk, hplace, target, value, htarget, hvalue, hsens', hlit, rfl⟩
  · obtain ⟨hon, hk, hallow, hlook, rfl⟩ := tokenHit_eq_some.1 htok
    have hallow' : b.allowlist.contains (RawText.ofList (stripQuotes (body shape source n))) = false :=
      Bool.eq_false_iff.2 fun hin => Bool.eq_false_iff.1 hallow (hs.allowlist _ hin)
    refine ⟨redact b .secretToken n, mem_hits.2 (Or.inr ?_), rfl⟩
    exact tokenHit_eq_some.2
      ⟨hs.tokens hon, hk, hallow', looksLikeToken_mono hs.minLength hlook, rfl⟩

/-- What a plan covers, the plan under stricter settings covers. -/
theorem covered_plan_subset_of_stricter (l : Language) (source : List UInt8) (root : Node)
    (h : WellNested (Shape.ofLanguage l) source root) {a b : Settings} (hs : a.Stricter b) :
    Span.covered ((plan (Shape.ofLanguage l) a source root).map Edit.span) ⊆
      Span.covered ((plan (Shape.ofLanguage l) b source root).map Edit.span) := by
  intro i hi
  obtain ⟨e, he, hi⟩ := Edit.mem_covered.1 hi
  obtain ⟨n, hn, hit⟩ := mem_hits_of_mem_plan he
  obtain ⟨k, hk, hspan⟩ := hits_mono hs hit
  obtain ⟨p, hp, hin⟩ := plan_keeps (Shape.ofLanguage_regular l) h.nested hn hk
  rw [hspan] at hin
  exact Edit.mem_covered.2 ⟨p, hp, hin.bytes_subset hi⟩

/-- With one more name, the string is redacted where only the run in it was before. -/
theorem covered_plan_sample_stricter :
    WellNested (Shape.ofLanguage .javascript) (sampleSource "clé_mot") sampleTree ∧
      Settings.Stricter {} { extraNames := ["MOT"] } ∧
      Span.covered ((plan (Shape.ofLanguage .javascript) {} (sampleSource "clé_mot")
        sampleTree).map Edit.span) ⊆
      Span.covered ((plan (Shape.ofLanguage .javascript) { extraNames := ["MOT"] }
        (sampleSource "clé_mot") sampleTree).map Edit.span) := by
  have h : WellNested (Shape.ofLanguage .javascript) (sampleSource "clé_mot") sampleTree := by
    decide +kernel
  have hs : Settings.Stricter {} { extraNames := ["MOT"] } :=
    Settings.stricter_addName {} "MOT"
  exact ⟨h, hs, covered_plan_subset_of_stricter .javascript _ _ h hs⟩

end Secret

end Redact
