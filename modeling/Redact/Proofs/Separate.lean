import Redact.Proofs.Splice

/-! # Edits that are separate

Edits inside a source that start at different places and do not overlap, in any order, and whose
replacements have bytes. They are applied
in one pass from left to right, and the bytes outside of their spans are kept: each moves by what the
edits before it add to the source (`apply_of_separate`). An edit of zero width is separate from one that
ends where it stands, and from one that starts behind it. -/

namespace Redact.Splice

structure Separate (size : Nat) (edits : List Edit) : Prop where
  inside : ∀ e ∈ edits, 0 ≤ e.start ∧ e.start ≤ e.stop ∧ e.stop ≤ size
  encodable : ∀ e ∈ edits, e.replacement.isPlain = true
  distinct : edits.Pairwise fun a b => a.start ≠ b.start
  apart : edits.Pairwise fun a b => a.span.Apart b.span

/-! ### By their starts -/

def byStart (edits : List Edit) : List Edit := edits.mergeSort fun a b => a.start ≤ b.start

theorem byStart_perm (edits : List Edit) : (byStart edits).Perm edits :=
  List.mergeSort_perm edits _

theorem byStart_sorted (edits : List Edit) :
    (byStart edits).Pairwise fun a b => a.start ≤ b.start := by
  have hsorted : (byStart edits).Pairwise fun a b => decide (a.start ≤ b.start) = true := by
    apply List.pairwise_mergeSort
    · intro a b c hab hbc
      simp only [decide_eq_true_eq] at *
      omega
    · intro a b
      simp only [Bool.or_eq_true, decide_eq_true_eq]
      omega
  refine hsorted.imp ?_
  intro a b hab
  exact of_decide_eq_true hab

namespace Separate

variable {size : Nat} {edits others : List Edit}

theorem applicable (h : Separate size edits) : ∀ e ∈ edits, Applicable size e :=
  fun e he => ⟨h.inside e he, h.encodable e he⟩

theorem of_perm (h : Separate size edits) (hp : others.Perm edits) : Separate size others where
  inside e he := h.inside e (hp.mem_iff.1 he)
  encodable e he := h.encodable e (hp.mem_iff.1 he)
  distinct := (hp.pairwise_iff fun hab => Ne.symm hab).2 h.distinct
  apart := (hp.pairwise_iff fun hab => hab.symm).2 h.apart

theorem ascending (h : Separate size edits) :
    (byStart edits).Pairwise fun a b => a.start < b.start := by
  have hdistinct := (h.of_perm (byStart_perm edits)).distinct
  refine ((byStart_sorted edits).and hdistinct).imp ?_
  rintro a b ⟨hle, hne⟩
  omega

/-- Of two separate edits, the one that starts earlier ends before the other starts. -/
theorem precedes (h : Separate size edits) :
    (byStart edits).Pairwise fun a b => a.span.Precedes b.span := by
  have hsorted := h.of_perm (byStart_perm edits)
  refine (h.ascending.and hsorted.apart).imp_of_mem ?_
  rintro a b ha hb ⟨hlt, hapart⟩
  obtain ⟨-, hb', -⟩ := hsorted.inside b hb
  simp only [Span.Apart, Span.Precedes, Edit.span] at *
  omega

end Separate

/-! ### What is kept -/

/-- By how many bytes the edit makes a source longer. -/
def gain (e : Edit) : Int := (e.replacement.bytes.length : Int) - (e.stop - e.start)

/-- By how many bytes the edits that end at `i` or before it make a source longer. -/
def growth (i : Nat) : List Edit → Int
  | [] => 0
  | e :: rest => if e.stop ≤ (i : Int) then gain e + growth i rest else growth i rest

theorem growth_perm {edits others : List Edit} (h : others.Perm edits) (i : Nat) :
    growth i others = growth i edits := by
  induction h with
  | nil => rfl
  | cons e _ ih => simp only [growth, ih]
  | swap a b rest =>
    simp only [growth]
    split <;> split <;> omega
  | trans _ _ ihab ihbc => exact ihab.trans ihbc

theorem growth_eq_zero {edits : List Edit} {i : Nat} (h : ∀ e ∈ edits, (i : Int) < e.stop) :
    growth i edits = 0 := by
  induction edits with
  | nil => rfl
  | cons e rest ih =>
    obtain ⟨he, hrest⟩ := List.forall_mem_cons.1 h
    rw [growth, if_neg (by omega), ih hrest]

theorem getElem?_leftToRight {source : List UInt8} {pos i : Nat} {edits : List Edit}
    (hf : ∀ e ∈ edits, Applicable source.length e)
    (ho : edits.Pairwise fun a b => a.span.Precedes b.span)
    (hpos : ∀ e ∈ edits, (pos : Int) ≤ e.start) (hi : pos ≤ i)
    (hout : ∀ e ∈ edits, (i : Int) ∉ e.span.bytes) :
    ∃ k : Nat, (k : Int) = i - pos + growth i edits ∧
      (leftToRight source pos edits)[k]? = source[i]? := by
  induction edits generalizing pos with
  | nil =>
    refine ⟨i - pos, ?_, ?_⟩
    · rw [growth_eq_zero (by simp)]
      omega
    · rw [leftToRight, List.getElem?_drop]
      congr 1
      omega
  | cons e rest ih =>
    obtain ⟨hfe, hfrest⟩ := List.forall_mem_cons.1 hf
    obtain ⟨hoe, horest⟩ := List.pairwise_cons.1 ho
    obtain ⟨hstart, horder, hstop⟩ := hfe.inside
    obtain ⟨hie, hirest⟩ := List.forall_mem_cons.1 hout
    have hpe : (pos : Int) ≤ e.start := hpos e (List.mem_cons_self ..)
    have hafter : ∀ x ∈ rest, e.stop ≤ x.start := fun x hx => hoe x hx
    have hside : (i : Int) < e.start ∨ e.stop ≤ i := by
      have hie' : ¬ (e.start ≤ (i : Int) ∧ (i : Int) < e.stop) := hie
      omega
    have hfront : ((source.take e.start.toNat).drop pos).length = e.start.toNat - pos := by
      rw [List.length_drop, List.length_take]
      omega
    rw [leftToRight]
    rcases hside with hbefore | hbehind
    · -- the byte stands before all edits
      have hlater : ∀ x ∈ e :: rest, (i : Int) < x.stop := by
        intro x hx
        rcases List.mem_cons.1 hx with rfl | hx
        · omega
        · have hstartx := hafter x hx
          have horderx := (hfrest x hx).inside.2.1
          omega
      refine ⟨i - pos, ?_, ?_⟩
      · rw [growth_eq_zero hlater]
        omega
      · rw [List.append_assoc, List.getElem?_append_left (by omega), List.getElem?_drop,
          List.getElem?_take_of_lt (by omega)]
        congr 1
        omega
    · -- the byte comes after `e`, whose new bytes stand in front of it
      have hposrest : ∀ x ∈ rest, (e.stop.toNat : Int) ≤ x.start := by
        intro x hx
        have hstartx := hafter x hx
        omega
      obtain ⟨k, hk, hget⟩ := ih hfrest horest hposrest (by omega) hirest
      have hlen : ((source.take e.start.toNat).drop pos ++ e.replacement.bytes).length =
          e.start.toNat - pos + e.replacement.bytes.length := by
        rw [List.length_append, hfront]
      refine ⟨((source.take e.start.toNat).drop pos ++ e.replacement.bytes).length + k, ?_, ?_⟩
      · rw [growth, if_pos hbehind, hlen, gain]
        omega
      · rw [List.getElem?_append_right (Nat.le_add_right _ k), Nat.add_sub_cancel_left, hget]

/-! ### Edits in any order -/

/-- Separate edits are applied as if in one pass from left to right, in whatever order they are given, and
the bytes outside of their spans are kept. -/
theorem apply_of_separate {source : List UInt8} {edits : List Edit}
    (h : Separate source.length edits) :
    apply source edits = .ok (leftToRight source 0 (byStart edits)) ∧
      (∀ others : List Edit, others.Perm edits → apply source others = apply source edits) ∧
      ∀ i : Nat, (∀ e ∈ edits, (i : Int) ∉ e.span.bytes) →
        ∃ k : Nat, (k : Int) = i + growth i edits ∧
          (leftToRight source 0 (byStart edits))[k]? = source[i]? := by
  have hperm := byStart_perm edits
  have happlicable := (h.of_perm hperm).applicable
  have hpass : ∀ others : List Edit, others.Perm edits →
      apply source others = .ok (leftToRight source 0 (byStart edits)) :=
    fun others hp => apply_of_perm (hp.trans hperm.symm) happlicable h.precedes h.ascending
  have hself := hpass edits (List.Perm.refl edits)
  refine ⟨hself, fun others hp => (hpass others hp).trans hself.symm, ?_⟩
  intro i hout
  have hpos : ∀ e ∈ byStart edits, ((0 : Nat) : Int) ≤ e.start :=
    fun e he => (happlicable e he).inside.1
  obtain ⟨k, hk, hget⟩ := getElem?_leftToRight happlicable h.precedes hpos (Nat.zero_le i)
    fun e he => hout e (hperm.mem_iff.1 he)
  refine ⟨k, ?_, hget⟩
  rw [growth_perm hperm] at hk
  omega

def looseSource : List UInt8 := Text.Utf8.encode "a=111; b=222; c=333;".toList

/-- Edits in no order; two of them are empty, and one of these touches another edit. -/
def looseEdits : List Edit :=
  [⟨16, 19, "ZZZZZ", .secretToken⟩, ⟨5, 5, "+", .secretToken⟩, ⟨20, 20, "!", .secretToken⟩,
    ⟨2, 5, "é", .sensitiveAssignment⟩, ⟨9, 12, "", .secretToken⟩]

theorem apply_of_separate_loose :
    Separate looseSource.length looseEdits ∧
      apply looseSource looseEdits = .ok (Text.Utf8.encode "a=é+; b=; c=ZZZZZ;!".toList) ∧
      apply looseSource looseEdits.reverse = apply looseSource looseEdits ∧
      ∃ k : Nat, (k : Int) = (19 : Nat) + growth 19 looseEdits ∧
        (leftToRight looseSource 0 (byStart looseEdits))[k]? = looseSource[19]? := by
  have h : Separate looseSource.length looseEdits :=
    ⟨by decide +kernel, by decide +kernel, by decide +kernel, by decide +kernel⟩
  have hsorted : byStart looseEdits =
      [⟨2, 5, "é", .sensitiveAssignment⟩, ⟨5, 5, "+", .secretToken⟩, ⟨9, 12, "", .secretToken⟩,
        ⟨16, 19, "ZZZZZ", .secretToken⟩, ⟨20, 20, "!", .secretToken⟩] := by
    simp [byStart, looseEdits, List.mergeSort, List.MergeSort.Internal.splitInTwo]
  have hpass : leftToRight looseSource 0 (byStart looseEdits) =
      Text.Utf8.encode "a=é+; b=; c=ZZZZZ;!".toList := by
    rw [hsorted]
    decide +kernel
  obtain ⟨happly, hany, hkept⟩ := apply_of_separate h
  refine ⟨h, ?_, hany _ looseEdits.reverse_perm, hkept 19 ?_⟩
  · rw [happly, hpass]
  · intro e he hin
    have hside : ∀ x ∈ looseEdits, ¬ (x.start ≤ (19 : Int) ∧ (19 : Int) < x.stop) := by decide
    exact hside e he hin

end Redact.Splice
