import Redact.Proofs.Span
import Redact.Proofs.Text.Raw
import Redact.Splice

/-! # Splicing from left to right

Edits are applied from the last one to the first one, to a source that changes under them. For edits
that follow one another the outcome is that of one pass over the source from left to right, in the
order of their starts (`apply_of_perm`): what stands before an edit that is not applied yet is still
the source itself. -/

namespace Redact.Splice

/-- The edit can be applied to a source of `size` bytes: its span lies inside it, and its replacement has
bytes. -/
structure Applicable (size : Nat) (e : Edit) : Prop where
  inside : 0 ≤ e.start ∧ e.start ≤ e.stop ∧ e.stop ≤ size
  plain : e.replacement.isPlain = true

/-- The source from byte `pos` on with the edits applied, which come in source order. -/
def leftToRight (source : List UInt8) (pos : Nat) : List Edit → List UInt8
  | [] => source.drop pos
  | e :: rest =>
    (source.take e.start.toNat).drop pos ++ e.replacement.bytes ++ leftToRight source e.stop.toNat rest

theorem drop_take_split (bytes : List UInt8) {a b c : Nat} (hab : a ≤ b) (hbc : b ≤ c) :
    (bytes.take c).drop a = (bytes.take b).drop a ++ (bytes.take c).drop b := by
  have hcut := List.take_append_drop b (bytes.take c)
  rw [List.take_take, Nat.min_eq_left hbc] at hcut
  have hdrop : (bytes.take b ++ (bytes.take c).drop b).drop a =
      (bytes.take b).drop a ++ (bytes.take c).drop b := by
    by_cases hlen : a ≤ (bytes.take b).length
    · exact List.drop_append_of_le_length hlen
    · rw [List.length_take] at hlen
      have hb : bytes.length < b := by omega
      have hnil : (bytes.take c).drop b = [] :=
        List.drop_eq_nil_of_le (by rw [List.length_take]; omega)
      rw [hnil, List.append_nil, List.append_nil]
  rw [← hdrop, hcut]

theorem apply_nil (source : List UInt8) : apply source [] = .ok source := by
  rw [apply, List.mergeSort_nil, run]

theorem fits_iff {size : Nat} {e : Edit} :
    fits size e = true ↔ 0 ≤ e.start ∧ e.start ≤ e.stop ∧ e.stop ≤ size := by
  simp [fits, and_assoc]

theorem run_append (size : Nat) (bytes : List UInt8) (xs ys : List Edit) :
    run size bytes (xs ++ ys) = (run size bytes xs).bind fun b => run size b ys := by
  induction xs generalizing bytes with
  | nil => rfl
  | cons x xs ih =>
    rw [List.cons_append, run, run]
    split
    · cases x.replacement.encode? with
      | none => rfl
      | some new => exact ih (splice bytes new x)
    · rfl

theorem run_cons_of_applicable {size : Nat} {bytes : List UInt8} {e : Edit} (h : Applicable size e)
    (rest : List Edit) :
    run size bytes (e :: rest) = run size (splice bytes e.replacement.bytes e) rest := by
  rw [run, if_pos (fits_iff.2 h.inside), RawText.encode?_of_plain h.plain]

/-- The edits that start later are applied to the rest of the source; before them it is unchanged. -/
theorem run_reverse {source : List UInt8} {pos : Nat} {edits : List Edit}
    (hf : ∀ e ∈ edits, Applicable source.length e)
    (ho : edits.Pairwise fun a b => a.span.Precedes b.span)
    (hpos : ∀ e ∈ edits, (pos : Int) ≤ e.start) :
    run source.length source edits.reverse =
      .ok (source.take pos ++ leftToRight source pos edits) := by
  induction edits generalizing pos with
  | nil => rw [List.reverse_nil, run, leftToRight, List.take_append_drop]
  | cons e rest ih =>
    obtain ⟨hfe, hfrest⟩ := List.forall_mem_cons.1 hf
    obtain ⟨hoe, horest⟩ := List.pairwise_cons.1 ho
    obtain ⟨hstart, horder, hstop⟩ := hfe.inside
    have hpe : (pos : Int) ≤ e.start := hpos e (List.mem_cons_self ..)
    have hafter : ∀ x ∈ rest, (e.stop.toNat : Int) ≤ x.start := by
      intro x hx
      have : e.stop ≤ x.start := hoe x hx
      omega
    have hlen : (source.take e.stop.toNat).length = e.stop.toNat := by
      rw [List.length_take]
      omega
    have hsplice : splice (source.take e.stop.toNat ++ leftToRight source e.stop.toNat rest)
        e.replacement.bytes e =
        source.take e.start.toNat ++ e.replacement.bytes ++ leftToRight source e.stop.toNat rest := by
      have htake : (source.take e.stop.toNat ++ leftToRight source e.stop.toNat rest).take
          e.start.toNat = source.take e.start.toNat := by
        rw [List.take_append_of_le_length (by omega), List.take_take]
        congr 1
        omega
      rw [splice, htake, List.drop_left' hlen]
    have hcut : source.take e.start.toNat =
        source.take pos ++ (source.take e.start.toNat).drop pos :=
      drop_take_split source (Nat.zero_le pos) (by omega)
    have hjoin : source.take pos ++ ((source.take e.start.toNat).drop pos ++ e.replacement.bytes ++
        leftToRight source e.stop.toNat rest) =
        source.take e.start.toNat ++ e.replacement.bytes ++ leftToRight source e.stop.toNat rest := by
      rw [← List.append_assoc, ← List.append_assoc, ← hcut]
    rw [List.reverse_cons, run_append, ih hfrest horest hafter, Except.bind, run_cons_of_applicable hfe,
      hsplice, run, leftToRight, hjoin]

theorem later_trans (a b c : Edit) (hab : decide (b.start ≤ a.start) = true)
    (hbc : decide (c.start ≤ b.start) = true) : decide (c.start ≤ a.start) = true := by
  simp only [decide_eq_true_eq] at *
  omega

theorem later_total (a b : Edit) :
    (decide (b.start ≤ a.start) || decide (a.start ≤ b.start)) = true := by
  simp only [Bool.or_eq_true, decide_eq_true_eq]
  omega

theorem pairwise_sort (edits : List Edit) :
    (edits.mergeSort fun a b => b.start ≤ a.start).Pairwise
      fun a b => decide (b.start ≤ a.start) = true :=
  List.pairwise_mergeSort later_trans later_total edits

/-- Edits come out of the sort in reverse of their order by ascending starts. -/
theorem sort_eq_reverse {edits ordered : List Edit} (hp : edits.Perm ordered)
    (h : ordered.Pairwise fun a b => a.start < b.start) :
    (edits.mergeSort fun a b => b.start ≤ a.start) = ordered.reverse := by
  have hreverse : ordered.reverse.Pairwise fun a b => decide (b.start ≤ a.start) = true := by
    refine List.pairwise_reverse.2 (h.imp ?_)
    intro a b hab
    simp only [decide_eq_true_eq]
    omega
  have hperm := (List.mergeSort_perm edits fun a b => b.start ≤ a.start).trans hp
  refine List.Perm.eq_of_pairwise ?_ (pairwise_sort edits) hreverse
    (hperm.trans (List.reverse_perm ordered).symm)
  intro a b ha hb hab hba
  have hsymm : Std.Symm fun a b : Edit => a.start ≠ b.start := ⟨fun _ _ => Ne.symm⟩
  have hdistinct : ordered.Pairwise fun a b => a.start ≠ b.start := h.imp fun hab => ne_of_lt hab
  by_contra hne
  simp only [decide_eq_true_eq] at hab hba
  exact hdistinct.forall (hperm.mem_iff.1 ha) (List.mem_reverse.1 hb) hne (le_antisymm hba hab)

/-- Edits inside the source that follow one another, with ascending starts, are applied in one pass
from left to right, in whatever order they are given. -/
theorem apply_of_perm {source : List UInt8} {edits ordered : List Edit} (hp : edits.Perm ordered)
    (hf : ∀ e ∈ ordered, Applicable source.length e)
    (ho : ordered.Pairwise fun a b => a.span.Precedes b.span)
    (hd : ordered.Pairwise fun a b => a.start < b.start) :
    apply source edits = .ok (leftToRight source 0 ordered) := by
  have hpos : ∀ e ∈ ordered, ((0 : Nat) : Int) ≤ e.start := fun e he => (hf e he).inside.1
  rw [apply, sort_eq_reverse hp hd, run_reverse hf ho hpos]
  rfl

theorem apply_eq_leftToRight {source : List UInt8} {edits : List Edit}
    (hf : ∀ e ∈ edits, Applicable source.length e)
    (ho : edits.Pairwise fun a b => a.span.Precedes b.span)
    (hd : edits.Pairwise fun a b => a.start < b.start) :
    apply source edits = .ok (leftToRight source 0 edits) :=
  apply_of_perm (List.Perm.refl edits) hf ho hd

/-! ### One replacement for all spans -/

/-- The source from byte `pos` on with the bytes `new` in the place of each span. -/
def weave (source new : List UInt8) (pos : Nat) : List Span → List UInt8
  | [] => source.drop pos
  | a :: rest =>
    (source.take a.start.toNat).drop pos ++ new ++ weave source new a.stop.toNat rest

theorem leftToRight_eq_weave {source new : List UInt8} {edits : List Edit}
    (h : ∀ e ∈ edits, e.replacement.bytes = new) (pos : Nat) :
    leftToRight source pos edits = weave source new pos (edits.map Edit.span) := by
  induction edits generalizing pos with
  | nil => rfl
  | cons e rest ih =>
    obtain ⟨he, hrest⟩ := List.forall_mem_cons.1 h
    rw [leftToRight, he, ih hrest, List.map_cons, weave, Edit.span]

theorem weave_skip {source new : List UInt8} {pos q : Nat} {spans : List Span} (hpq : pos ≤ q)
    (hq : ∀ a ∈ spans, (q : Int) ≤ a.start) :
    weave source new pos spans = (source.take q).drop pos ++ weave source new q spans := by
  cases spans with
  | nil =>
    by_cases hlen : q ≤ source.length
    · have h := drop_take_split source hpq hlen
      rwa [List.take_length] at h
    · rw [weave, weave, List.take_of_length_le (by omega), List.drop_eq_nil_of_le (i := q) (by omega),
        List.append_nil]
  | cons a rest =>
    have hqa : (q : Int) ≤ a.start := hq a (List.mem_cons_self ..)
    have hcut := drop_take_split source hpq (show q ≤ a.start.toNat by omega)
    rw [weave, weave, hcut]
    simp only [List.append_assoc]

end Redact.Splice
