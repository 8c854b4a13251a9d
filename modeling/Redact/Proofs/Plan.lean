import Redact.Plan
import Redact.Proofs.Span

/-! # Plans and their candidates

A plan is part of its candidates and its edits follow one another (`resolve_precedes`), whatever
the candidates are. The sweep drops candidates whole, so for entangled spans it can leave bytes of a
candidate out. Where no two spans are entangled it loses none: each candidate lies inside an edit of
the plan (`resolve_keeps`). -/

namespace Redact.Plan

theorem before_iff {a b : Edit} :
    before a b = true ↔ a.start < b.start ∨ (a.start = b.start ∧ b.stop ≤ a.stop) := by
  simp [before]

theorem before_trans (a b c : Edit) (hab : before a b = true) (hbc : before b c = true) :
    before a c = true := by
  rw [before_iff] at *
  omega

theorem before_total (a b : Edit) : (before a b || before b a) = true := by
  rw [Bool.or_eq_true, before_iff, before_iff]
  omega

theorem sorted_before (candidates : List Edit) :
    (candidates.mergeSort before).Pairwise fun a b => before a b = true :=
  List.pairwise_mergeSort before_trans before_total candidates

/-! ### The sweep -/

theorem sweep_sublist (bound : Int) (edits : List Edit) : (sweep bound edits).Sublist edits := by
  induction edits generalizing bound with
  | nil => exact List.Sublist.refl []
  | cons e rest ih =>
    rw [sweep]
    split
    · exact (ih e.stop).cons_cons e
    · exact (ih bound).cons e

/-- Also after an inverted edit, which moves the bound back: the edits are sorted. -/
theorem bound_le_of_mem_sweep {bound : Int} {edits : List Edit}
    (hs : edits.Pairwise fun a b => before a b = true) {e : Edit} (he : e ∈ sweep bound edits) :
    bound ≤ e.start := by
  induction edits with
  | nil => simp [sweep] at he
  | cons x rest ih =>
    obtain ⟨hx, hrest⟩ := List.pairwise_cons.1 hs
    rw [sweep] at he
    split at he
    · rename_i hbound
      rcases List.mem_cons.1 he with rfl | he
      · exact hbound
      · have hlater := before_iff.1 (hx e ((sweep_sublist _ _).mem he))
        omega
    · exact ih hrest he

theorem sweep_precedes {bound : Int} {edits : List Edit}
    (hs : edits.Pairwise fun a b => before a b = true) :
    (sweep bound edits).Pairwise fun a b => a.span.Precedes b.span := by
  induction edits generalizing bound with
  | nil => exact List.Pairwise.nil
  | cons e rest ih =>
    have hrest := (List.pairwise_cons.1 hs).2
    rw [sweep]
    split
    · exact List.pairwise_cons.2 ⟨fun b hb => bound_le_of_mem_sweep hrest hb, ih hrest⟩
    · exact ih hrest

/-- No two spans of the edits are entangled. -/
def Laminar (edits : List Edit) : Prop :=
  ∀ a ∈ edits, ∀ b ∈ edits,
    a.span.Within b.span ∨ b.span.Within a.span ∨ a.span.Apart b.span

theorem Laminar.mono {edits part : List Edit} (h : Laminar edits) (hp : part ⊆ edits) :
    Laminar part :=
  fun a ha b hb => h a (hp ha) b (hp hb)

/-- An edit that is swept after `a` lies inside `a` or starts at or after its end. -/
theorem within_or_start_of_before {a b : Edit} (h : before a b = true)
    (hl : a.span.Within b.span ∨ b.span.Within a.span ∨ a.span.Apart b.span) :
    b.span.Within a.span ∨ a.stop ≤ b.start := by
  have hab := before_iff.1 h
  simp only [Span.Within, Span.Apart, Span.Precedes, Edit.span] at *
  omega

theorem sweep_keeps {bound : Int} {edits : List Edit}
    (hs : edits.Pairwise fun a b => before a b = true) (hl : Laminar edits) {e : Edit}
    (he : e ∈ edits) (hb : bound ≤ e.start) :
    ∃ k ∈ sweep bound edits, e.span.Within k.span := by
  induction edits generalizing bound with
  | nil => simp at he
  | cons x rest ih =>
    obtain ⟨hx, hrest⟩ := List.pairwise_cons.1 hs
    have hlrest : Laminar rest := hl.mono (List.subset_cons_self x rest)
    rw [sweep]
    rcases List.mem_cons.1 he with rfl | hmem
    · exact ⟨e, by simp [hb], Span.Within.refl e.span⟩
    · split
      · -- `x` is kept: what it does not hold starts after it, and the bound moves there
        have hcase := within_or_start_of_before (hx e hmem) (hl x (List.mem_cons_self ..) e he)
        rcases hcase with hin | hafter
        · exact ⟨x, List.mem_cons_self .., hin⟩
        · obtain ⟨k, hk, hin⟩ := ih hrest hlrest hmem hafter
          exact ⟨k, List.mem_cons_of_mem x hk, hin⟩
      · exact ih hrest hlrest hmem hb

/-! ### The plan -/

theorem mem_of_mem_resolve {candidates : List Edit} {e : Edit} (he : e ∈ resolve candidates) :
    e ∈ candidates :=
  (List.mergeSort_perm candidates before).mem_iff.1 ((sweep_sublist _ _).mem he)

theorem resolve_precedes (candidates : List Edit) :
    (resolve candidates).Pairwise fun a b => a.span.Precedes b.span :=
  sweep_precedes (sorted_before candidates)

theorem resolve_before (candidates : List Edit) :
    (resolve candidates).Pairwise fun a b => before a b = true :=
  (sorted_before candidates).sublist (sweep_sublist _ _)

/-- Where no two spans are entangled, each candidate lies inside an edit of the plan. -/
theorem resolve_keeps {candidates : List Edit} (hl : Laminar candidates)
    (hstart : ∀ e ∈ candidates, 0 ≤ e.start) {e : Edit} (he : e ∈ candidates) :
    ∃ k ∈ resolve candidates, e.span.Within k.span := by
  have hmem : ∀ x, x ∈ candidates.mergeSort before ↔ x ∈ candidates :=
    fun x => (List.mergeSort_perm candidates before).mem_iff
  have hbound : -1 ≤ e.start := by
    have := hstart e he
    omega
  exact sweep_keeps (sorted_before candidates) (hl.mono fun x hx => (hmem x).1 hx)
    ((hmem e).2 he) hbound

end Redact.Plan
