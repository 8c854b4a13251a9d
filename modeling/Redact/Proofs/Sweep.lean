import Mathlib.Algebra.Order.Group.Multiset
import Redact.Proofs.Plan

/-! # The greedy sweep

What the sweep keeps and drops of any candidates: inverted and empty ones, and several with one span.
A candidate is dropped because it starts before the end of the one that was kept last, so where no
candidate starts before the source each dropped one starts inside a kept one (`resolve_greedy`). An
inverted edit that is kept moves the bound back. This does no harm: the edits come by their start, so
what follows is bounded by the end of each edit that is kept, not only of the last one.

The sweep looks at spans only, and the sort puts the spans of any candidates in one order. So the plan
does not depend on the order of the candidates, and a plan is its own plan (`resolve_of_perm`). -/

namespace Redact.Plan

/-! ### What is dropped -/

/-- The edits that the sweep leaves out. -/
def dropped (bound : Int) : List Edit → List Edit
  | [] => []
  | e :: rest => if bound ≤ e.start then dropped e.stop rest else e :: dropped bound rest

theorem sweep_append_dropped_perm (bound : Int) (edits : List Edit) :
    (sweep bound edits ++ dropped bound edits).Perm edits := by
  induction edits generalizing bound with
  | nil => exact List.Perm.refl []
  | cons e rest ih =>
    rw [sweep, dropped]
    split
    · exact (ih e.stop).cons e
    · exact List.perm_middle.trans ((ih bound).cons e)

/-- `c` starts inside `a`, and if both start at the same place, `a` ends no earlier. -/
def GivesWay (c a : Edit) : Prop :=
  a.start ≤ c.start ∧ c.start < a.stop ∧ (a.start = c.start → c.stop ≤ a.stop)

instance (c a : Edit) : Decidable (GivesWay c a) := inferInstanceAs (Decidable (_ ∧ _))

theorem givesWay_of_before {a c : Edit} (h : before a c = true) (hlt : c.start < a.stop) :
    GivesWay c a := by
  have hac := before_iff.1 h
  refine ⟨by omega, hlt, ?_⟩
  intro hstart
  omega

/-- What is dropped starts before the bound that the sweep began with, or inside an edit that is kept. -/
theorem dropped_givesWay {bound : Int} {edits : List Edit}
    (hs : edits.Pairwise fun a b => before a b = true) {c : Edit} (hc : c ∈ dropped bound edits) :
    c.start < bound ∨ ∃ a ∈ sweep bound edits, GivesWay c a := by
  induction edits generalizing bound with
  | nil => simp [dropped] at hc
  | cons e rest ih =>
    obtain ⟨he, hrest⟩ := List.pairwise_cons.1 hs
    rw [dropped] at hc
    rw [sweep]
    split at hc
    · -- `e` is kept and its end is the bound of the rest
      rename_i hbound
      have hmem : c ∈ rest :=
        (sweep_append_dropped_perm e.stop rest).mem_iff.1 (List.mem_append_right _ hc)
      rw [if_pos hbound]
      rcases ih hrest hc with hlt | ⟨a, ha, hway⟩
      · exact Or.inr ⟨e, List.mem_cons_self .., givesWay_of_before (he c hmem) hlt⟩
      · exact Or.inr ⟨a, List.mem_cons_of_mem e ha, hway⟩
    · rename_i hbound
      rw [if_neg hbound]
      rcases List.mem_cons.1 hc with rfl | hc
      · exact Or.inl (by omega)
      · exact ih hrest hc

/-! ### The plan -/

theorem resolve_append_dropped_perm (candidates : List Edit) :
    (resolve candidates ++ dropped (-1) (candidates.mergeSort before)).Perm candidates :=
  (sweep_append_dropped_perm _ _).trans (List.mergeSort_perm candidates before)

theorem rejected_eq_dropped (candidates : List Edit) :
    (candidates : Multiset Edit) - (resolve candidates : Multiset Edit) =
      (dropped (-1) (candidates.mergeSort before) : Multiset Edit) := by
  have hperm := Multiset.coe_eq_coe.2 (resolve_append_dropped_perm candidates)
  rw [← Multiset.coe_add] at hperm
  rw [← hperm, add_tsub_cancel_left]

/-- The plan is what a greedy choice from left to right brings, which prefers the larger one of two
candidates that start at the same place. -/
structure Greedy (candidates plan : List Edit) : Prop where
  part : (plan : Multiset Edit) ≤ (candidates : Multiset Edit)
  ascending : plan.Pairwise fun a b => a.start ≤ b.start
  disjoint : plan.Pairwise fun a b => a.stop ≤ b.start
  maximal : (∀ e ∈ candidates, 0 ≤ e.start) →
    ∀ c ∈ (candidates : Multiset Edit) - (plan : Multiset Edit), ∃ a ∈ plan, GivesWay c a

theorem resolve_ascending (candidates : List Edit) :
    (resolve candidates).Pairwise fun a b => a.start ≤ b.start := by
  refine (resolve_before candidates).imp ?_
  intro a b hab
  have hbefore := before_iff.1 hab
  omega

theorem resolve_greedy (candidates : List Edit) : Greedy candidates (resolve candidates) where
  part := by
    rw [← Multiset.coe_eq_coe.2 (resolve_append_dropped_perm candidates), ← Multiset.coe_add]
    exact Multiset.le_add_right _ _
  ascending := resolve_ascending candidates
  disjoint := resolve_precedes candidates
  maximal := by
    intro hstart c hc
    rw [rejected_eq_dropped, Multiset.mem_coe] at hc
    have hmem : c ∈ candidates :=
      (resolve_append_dropped_perm candidates).mem_iff.1 (List.mem_append_right _ hc)
    have hnonneg : 0 ≤ c.start := hstart c hmem
    rcases dropped_givesWay (sorted_before candidates) hc with hlt | hway
    · omega
    · exact hway

def tangledEdits : List Edit :=
  [⟨7, 12, "b", .secretToken⟩, ⟨20, 15, "f", .secretToken⟩, ⟨5, 9, "a", .secretToken⟩,
    ⟨9, 9, "c", .secretToken⟩, ⟨5, 9, "a", .secretToken⟩, ⟨12, 10, "e", .secretToken⟩,
    ⟨12, 14, "d", .sensitiveAssignment⟩, ⟨22, 23, "g", .secretToken⟩]

theorem resolve_tangledEdits :
    resolve tangledEdits =
      [⟨5, 9, "a", .secretToken⟩, ⟨9, 9, "c", .secretToken⟩, ⟨12, 14, "d", .sensitiveAssignment⟩,
        ⟨20, 15, "f", .secretToken⟩, ⟨22, 23, "g", .secretToken⟩] := by
  simp [resolve, tangledEdits, List.mergeSort, List.MergeSort.Internal.splitInTwo, before, sweep]

/-- Of two equal candidates one is dropped, and it gives way to the other. -/
theorem resolve_greedy_tangled :
    (∀ e ∈ tangledEdits, 0 ≤ e.start) ∧
      ⟨5, 9, "a", .secretToken⟩ ∈
        (tangledEdits : Multiset Edit) - (resolve tangledEdits : Multiset Edit) ∧
      ∃ a ∈ resolve tangledEdits, GivesWay ⟨5, 9, "a", .secretToken⟩ a := by
  have hstart : ∀ e ∈ tangledEdits, 0 ≤ e.start := by decide
  have hdropped : ⟨5, 9, "a", .secretToken⟩ ∈
      (tangledEdits : Multiset Edit) - (resolve tangledEdits : Multiset Edit) := by
    rw [resolve_tangledEdits]
    decide +kernel
  exact ⟨hstart, hdropped, (resolve_greedy tangledEdits).maximal hstart _ hdropped⟩

/-! ### The order of the candidates -/

theorem sort_spans_of_perm {candidates others : List Edit} (h : candidates.Perm others) :
    (candidates.mergeSort before).map Edit.span = (others.mergeSort before).map Edit.span := by
  have hsorted : ∀ edits : List Edit, ((edits.mergeSort before).map Edit.span).Pairwise
      fun a b => a.start < b.start ∨ (a.start = b.start ∧ b.stop ≤ a.stop) := by
    intro edits
    refine List.pairwise_map.2 ((sorted_before edits).imp ?_)
    intro a b hab
    exact before_iff.1 hab
  have hperm : (candidates.mergeSort before).Perm (others.mergeSort before) :=
    (List.mergeSort_perm candidates before).trans (h.trans (List.mergeSort_perm others before).symm)
  refine List.Perm.eq_of_pairwise ?_ (hsorted candidates) (hsorted others) (hperm.map Edit.span)
  intro a b _ _ hab hba
  apply Span.ext
  · omega
  · omega

theorem sweep_spans_congr {bound : Int} {as bs : List Edit}
    (h : as.map Edit.span = bs.map Edit.span) :
    (sweep bound as).map Edit.span = (sweep bound bs).map Edit.span := by
  induction as generalizing bound bs with
  | nil =>
    obtain rfl : bs = [] := List.map_eq_nil_iff.1 h.symm
    rfl
  | cons a as ih =>
    cases bs with
    | nil => simp at h
    | cons b bs =>
      obtain ⟨hab, hrest⟩ := List.cons.inj h
      have hstart : a.start = b.start := congrArg Span.start hab
      have hstop : a.stop = b.stop := congrArg Span.stop hab
      rw [sweep, sweep, hstart, hstop]
      split
      · rw [List.map_cons, List.map_cons, hab, ih hrest]
      · exact ih hrest

theorem resolve_spans_of_perm {candidates others : List Edit} (h : candidates.Perm others) :
    (resolve candidates).map Edit.span = (resolve others).map Edit.span :=
  sweep_spans_congr (sort_spans_of_perm h)

/-! ### Plans of plans -/

theorem sweep_eq_self {bound : Int} {edits : List Edit}
    (ho : edits.Pairwise fun a b => a.span.Precedes b.span) (hb : ∀ e ∈ edits, bound ≤ e.start) :
    sweep bound edits = edits := by
  induction edits generalizing bound with
  | nil => rfl
  | cons e rest ih =>
    obtain ⟨he, hrest⟩ := List.pairwise_cons.1 ho
    have hself : sweep e.stop rest = rest := ih hrest he
    rw [sweep, if_pos (hb e (List.mem_cons_self ..)), hself]

theorem resolve_resolve (candidates : List Edit) :
    resolve (resolve candidates) = resolve candidates := by
  have hsort : (resolve candidates).mergeSort before = resolve candidates :=
    List.mergeSort_of_pairwise (resolve_before candidates)
  have hbound : ∀ e ∈ resolve candidates, -1 ≤ e.start :=
    fun e he => bound_le_of_mem_sweep (sorted_before candidates) he
  rw [resolve, hsort, sweep_eq_self (resolve_precedes candidates) hbound]

/-- The plan has the same spans for any order of the candidates. Only which of the edits with one span is
kept depends on it. A plan is its own plan. -/
theorem resolve_of_perm {candidates others : List Edit} (h : candidates.Perm others) :
    (resolve candidates).map Edit.span = (resolve others).map Edit.span ∧
      ((∀ a ∈ candidates, ∀ b ∈ candidates, a.span = b.span → a = b) →
        resolve candidates = resolve others) ∧
      resolve (resolve candidates) = resolve candidates := by
  have hspans := resolve_spans_of_perm h
  refine ⟨hspans, ?_, resolve_resolve candidates⟩
  intro hsame
  refine Edit.eq_of_spans_eq hspans ?_
  intro a ha b hb
  exact hsame a (mem_of_mem_resolve ha) b (h.mem_iff.2 (mem_of_mem_resolve hb))

theorem resolve_of_perm_tangled :
    tangledEdits.Perm tangledEdits.reverse ∧
      (∀ a ∈ tangledEdits, ∀ b ∈ tangledEdits, a.span = b.span → a = b) ∧
      (resolve tangledEdits).map Edit.span = (resolve tangledEdits.reverse).map Edit.span ∧
      resolve tangledEdits = resolve tangledEdits.reverse ∧
      resolve (resolve tangledEdits) = resolve tangledEdits := by
  have hperm : tangledEdits.Perm tangledEdits.reverse := tangledEdits.reverse_perm.symm
  have hsame : ∀ a ∈ tangledEdits, ∀ b ∈ tangledEdits, a.span = b.span → a = b := by
    decide +kernel
  obtain ⟨hspans, hplans, hagain⟩ := resolve_of_perm hperm
  exact ⟨hperm, hsame, hspans, hplans hsame, hagain⟩

/-- Of two edits with one span the one that comes first is kept, so their order decides the rule. -/
example : resolve [⟨0, 3, "x", .secretToken⟩, ⟨0, 3, "x", .sensitiveAssignment⟩] =
    [⟨0, 3, "x", .secretToken⟩] := by
  simp [resolve, List.mergeSort, List.MergeSort.Internal.splitInTwo, before, sweep]

end Redact.Plan
