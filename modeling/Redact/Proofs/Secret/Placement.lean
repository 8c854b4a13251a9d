import Redact.Proofs.Secret.Rewriting

/-! # Plans of trees that need not be nested

A plan can be spliced also for a tree whose nodes overlap or are empty, as long as each of them covers whole
characters of the source (`Placed`) and the replacement has bytes. The edits of its plan still follow one
another, and of those that start at the same place none has bytes (`plan_apart`). Each edit that is applied
leaves all characters before it as they were, so what the edits before it need is still there
(`run_of_cuts`). -/

namespace Redact

namespace Text.Utf8

theorem IsBoundary.le_length {cs : List Char} {n : Nat} (h : IsBoundary cs n) :
    n ≤ (encode cs).length := by
  obtain ⟨front, back, rfl, rfl⟩ := h
  rw [encode_append, List.length_append]
  exact Nat.le_add_right _ _

/-- Of two beginnings of a text, the one with fewer bytes is a beginning of the other. -/
theorem prefix_of_length_encode_le {xs ys cs : List Char} (hx : xs <+: cs) (hy : ys <+: cs)
    (h : (encode xs).length ≤ (encode ys).length) : xs <+: ys := by
  rcases List.prefix_or_prefix_of_prefix hx hy with hxy | ⟨rest, rfl⟩
  · exact hxy
  · rw [encode_append, List.length_append] at h
    obtain rfl : rest = [] := eq_nil_of_length_encode (by omega)
    exact ⟨[], by simp⟩

end Text.Utf8

namespace Splice

open Text.Utf8

/-- The edit replaces whole characters of the text. -/
structure Cuts (code : List Char) (e : Edit) : Prop where
  nonneg : 0 ≤ e.start
  start_le_stop : e.start ≤ e.stop
  start : IsBoundary code e.start.toNat
  stop : IsBoundary code e.stop.toNat

theorem Cuts.inside {code : List Char} {e : Edit} (h : Cuts code e) :
    Inside (encode code).length e := by
  have hinside := h.stop.le_length
  refine ⟨h.nonneg, h.start_le_stop, ?_⟩
  omega

/-- Edits that replace whole characters, from the last one to the first one, leave whole characters. -/
theorem run_of_cuts {code front : List Char} {edits : List Edit} (hc : ∀ e ∈ edits, Cuts code e)
    (hplain : ∀ e ∈ edits, e.replacement.isPlain = true)
    (ho : edits.Pairwise fun a b => b.stop ≤ a.start) (hfront : front <+: code)
    (hstop : ∀ e ∈ edits, e.stop ≤ (encode front).length) (back : List Char) :
    ∃ cs, run (encode code).length (encode (front ++ back)) edits = .ok (encode cs) := by
  induction edits generalizing front back with
  | nil => exact ⟨_, rfl⟩
  | cons e rest ih =>
    obtain ⟨hce, hcrest⟩ := List.forall_mem_cons.1 hc
    obtain ⟨hpe, hprest⟩ := List.forall_mem_cons.1 hplain
    obtain ⟨hoe, horest⟩ := List.pairwise_cons.1 ho
    obtain ⟨hnonneg, horder, ⟨before, _, hbefore, hstart⟩, ⟨upto, _, hupto, hend⟩⟩ := id hce
    have hpre : before <+: code := ⟨_, hbefore.symm⟩
    have hpre' : upto <+: code := ⟨_, hupto.symm⟩
    have hend_le := hstop e (List.mem_cons_self ..)
    obtain ⟨cut, rfl⟩ : before <+: upto := prefix_of_length_encode_le hpre hpre' (by omega)
    obtain ⟨kept, rfl⟩ : before ++ cut <+: front := prefix_of_length_encode_le hpre' hfront (by omega)
    have hsplice : splice (encode (before ++ cut ++ kept ++ back)) e.replacement.bytes e =
        encode (before ++ (e.replacement.chars ++ kept ++ back)) := by
      have htake : (encode (before ++ cut ++ kept ++ back)).take e.start.toNat = encode before := by
        rw [← hstart, List.append_assoc, List.append_assoc, encode_append, List.take_left]
      have hdrop : (encode (before ++ cut ++ kept ++ back)).drop e.stop.toNat =
          encode (kept ++ back) := by
        rw [← hend, List.append_assoc (before ++ cut), encode_append (before ++ cut), List.drop_left]
      rw [splice, htake, hdrop, RawText.bytes]
      simp only [encode_append, List.append_assoc]
    have hbound : ∀ x ∈ rest, x.stop ≤ (encode before).length := by
      intro x hx
      have := hoe x hx
      omega
    rw [run_cons_of_applicable ⟨hce.inside, hpe⟩, hsplice]
    exact ih hcrest hprest horest hpre hbound _

/-- Where no two edits overlap, and of those that start at the same place none has bytes, the sort puts
each edit after those that start where it ends or later. -/
theorem stop_le_start_sort {edits : List Edit} (hle : ∀ e ∈ edits, e.start ≤ e.stop)
    (h : edits.Pairwise fun a b => a.span.Apart b.span ∧ (a.start = b.start → a.stop = b.stop)) :
    (edits.mergeSort fun a b => b.start ≤ a.start).Pairwise fun a b => b.stop ≤ a.start := by
  have hperm := List.mergeSort_perm edits fun a b => b.start ≤ a.start
  have hapart := (hperm.pairwise_iff fun hab => ⟨hab.1.symm, fun heq => (hab.2 heq.symm).symm⟩).2 h
  refine ((pairwise_sort edits).and hapart).imp_of_mem ?_
  rintro a b ha hb ⟨hsorted, hab, hsame⟩
  have ha' := hle a (hperm.mem_iff.1 ha)
  have hb' := hle b (hperm.mem_iff.1 hb)
  simp only [decide_eq_true_eq, Span.Apart, Span.Precedes, Edit.span] at *
  omega

theorem apply_of_cuts {code : List Char} {edits : List Edit} (hc : ∀ e ∈ edits, Cuts code e)
    (hplain : ∀ e ∈ edits, e.replacement.isPlain = true)
    (h : edits.Pairwise fun a b => a.span.Apart b.span ∧ (a.start = b.start → a.stop = b.stop)) :
    ∃ cs, apply (encode code) edits = .ok (encode cs) := by
  have hmem : ∀ e, e ∈ (edits.mergeSort fun a b => b.start ≤ a.start) ↔ e ∈ edits :=
    fun _ => (List.mergeSort_perm _ _).mem_iff
  have hrun := run_of_cuts (fun e he => hc e ((hmem e).1 he)) (fun e he => hplain e ((hmem e).1 he))
    (stop_le_start_sort (fun e he => (hc e he).start_le_stop) h) (List.prefix_refl code)
    (fun e he => (hc e ((hmem e).1 he)).inside.2.2) []
  rwa [List.append_nil] at hrun

end Splice

namespace Secret

variable {shape : Shape} {settings : Settings}

/-- Each node of the tree covers whole characters of the text. -/
structure Placed (code : List Char) (root : Node) : Prop where
  start_le_stop : ∀ n ∈ root.preorder, n.start ≤ n.stop
  onBoundaries : OnBoundaries code root

theorem cuts_of_mem_plan (hr : shape.Regular) {code : List Char} {root : Node}
    (h : Placed code root) {e : Edit}
    (he : e ∈ plan shape settings (Text.Utf8.encode code) root) : Splice.Cuts code e := by
  obtain ⟨n, hn, hit⟩ := mem_hits_of_mem_plan he
  obtain ⟨m, hm, -, rule, rfl⟩ := exists_preorder_of_mem_hits hr hn hit
  obtain ⟨hstart, hstop⟩ := h.onBoundaries m hm
  exact ⟨Int.natCast_nonneg _, Int.ofNat_le.2 (h.start_le_stop m hm), hstart, hstop⟩

/-- The edits of a plan that are not inverted do not overlap, and those that start at the same place are
empty. -/
theorem plan_apart (source : List UInt8) (root : Node)
    (hle : ∀ e ∈ plan shape settings source root, e.start ≤ e.stop) :
    (plan shape settings source root).Pairwise
      fun a b => a.span.Apart b.span ∧ (a.start = b.start → a.stop = b.stop) := by
  refine ((plan_precedes shape settings source root).and (Plan.resolve_before _)).imp_of_mem ?_
  rintro a b ha hb ⟨hprecedes, hbefore⟩
  refine ⟨Or.inl hprecedes, fun heq => ?_⟩
  have ha' := hle a ha
  have hb' := hle b hb
  have hab := Plan.before_iff.1 hbefore
  simp only [Span.Precedes, Edit.span] at hprecedes
  omega

/-- Splicing the plan of a placed tree into the bytes of a text brings the bytes of a text, if the
replacement has any. -/
theorem apply_plan_of_placed (hr : shape.Regular) {code : List Char} {root : Node}
    (h : Placed code root) (hplain : settings.replacement.isPlain = true) :
    ∃ cs, Splice.apply (Text.Utf8.encode code)
      (plan shape settings (Text.Utf8.encode code) root) = .ok (Text.Utf8.encode cs) := by
  refine Splice.apply_of_cuts (fun _ he => cuts_of_mem_plan hr h he) ?_
    (plan_apart _ root fun _ he => (cuts_of_mem_plan hr h he).start_le_stop)
  intro e he
  rw [plan_replacement hr he, hplain]

end Secret

end Redact
