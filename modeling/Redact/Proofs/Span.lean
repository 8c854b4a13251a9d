import Mathlib.Data.List.Pairwise
import Mathlib.Data.Set.Basic
import Redact.Syntax.Node
import Redact.Edit

/-! # Spans

A span is a run of bytes of a source, from `start` up to `stop`. Nodes and edits have one each.
Two spans of a tree are never entangled: one lies inside the other or they are apart. Two families
of spans in source order, each of which lies inside the other span by span, are the same family
(`eq_of_refine`). -/

namespace Redact

/-- The bytes from `start` up to `stop`, without `stop`. -/
@[ext]
structure Span where
  start : Int
  stop : Int
  deriving DecidableEq, Repr

namespace Span

def Filled (a : Span) : Prop := a.start < a.stop

/-- `a` lies inside `b`. -/
def Within (a b : Span) : Prop := b.start ≤ a.start ∧ a.stop ≤ b.stop

/-- `a` ends before `b` starts, or where it does. -/
def Precedes (a b : Span) : Prop := a.stop ≤ b.start

/-- One of the spans precedes the other. -/
def Apart (a b : Span) : Prop := a.Precedes b ∨ b.Precedes a

instance (a b : Span) : Decidable (a.Within b) := inferInstanceAs (Decidable (_ ∧ _))

instance (a b : Span) : Decidable (a.Precedes b) := inferInstanceAs (Decidable (_ ≤ _))

instance (a b : Span) : Decidable (a.Apart b) := inferInstanceAs (Decidable (_ ∨ _))

def bytes (a : Span) : Set Int := {i | a.start ≤ i ∧ i < a.stop}

/-- The positions of the bytes of some spans. -/
def covered (spans : List Span) : Set Int := {i | ∃ a ∈ spans, i ∈ a.bytes}

theorem Within.refl (a : Span) : a.Within a := ⟨le_rfl, le_rfl⟩

theorem Within.trans {a b c : Span} (hab : a.Within b) (hbc : b.Within c) : a.Within c :=
  ⟨hbc.1.trans hab.1, hab.2.trans hbc.2⟩

theorem Within.antisymm {a b : Span} (hab : a.Within b) (hba : b.Within a) : a = b :=
  Span.ext (le_antisymm hba.1 hab.1) (le_antisymm hab.2 hba.2)

theorem Within.bytes_subset {a b : Span} (h : a.Within b) : a.bytes ⊆ b.bytes := by
  intro i hi
  exact ⟨h.1.trans hi.1, hi.2.trans_le h.2⟩

theorem Apart.symm {a b : Span} (h : a.Apart b) : b.Apart a := Or.symm h

instance : Std.Symm Apart := ⟨fun _ _ => Apart.symm⟩

theorem Apart.mono {a b a' b' : Span} (h : a.Apart b) (ha : a'.Within a) (hb : b'.Within b) :
    a'.Apart b' := by
  rcases h with h | h
  · exact Or.inl (ha.2.trans (le_trans h hb.1))
  · exact Or.inr (hb.2.trans (le_trans h ha.1))

theorem Within.not_apart {a b : Span} (h : a.Within b) (ha : a.Filled) : ¬ a.Apart b := by
  simp only [Within, Filled, Apart, Precedes] at *
  omega

/-- Spans with bytes that start at the same place are not apart. -/
theorem not_apart_of_start_eq {a b : Span} (ha : a.Filled) (hb : b.Filled)
    (h : a.start = b.start) : ¬ a.Apart b := by
  simp only [Filled, Apart, Precedes] at *
  omega

/-- In a family of spans in source order, one inside another is the other. -/
theorem eq_of_within {spans : List Span} (ho : spans.Pairwise Precedes)
    (hf : ∀ a ∈ spans, a.Filled) {a b : Span} (ha : a ∈ spans) (hb : b ∈ spans)
    (h : a.Within b) : a = b := by
  have hapart : spans.Pairwise Apart := ho.imp Or.inl
  by_contra hne
  exact h.not_apart (hf a ha) (hapart.forall ha hb hne)

theorem nodup_of_pairwise {spans : List Span} (ho : spans.Pairwise Precedes)
    (hf : ∀ a ∈ spans, a.Filled) : spans.Nodup := by
  refine ho.imp_of_mem ?_
  intro a b ha _ hab heq
  subst heq
  exact (Within.refl a).not_apart (hf a ha) (Or.inl hab)

/-- The members of a family in source order lie in a second family, of which the members lie in
the first: the first family is part of the second. -/
theorem subset_of_refine {as bs : List Span} (ha : as.Pairwise Precedes)
    (hf : ∀ a ∈ as, a.Filled) (hab : ∀ a ∈ as, ∃ b ∈ bs, a.Within b)
    (hba : ∀ b ∈ bs, ∃ a ∈ as, b.Within a) : as ⊆ bs := by
  intro a hmem
  obtain ⟨b, hb, hin⟩ := hab a hmem
  obtain ⟨c, hc, hout⟩ := hba b hb
  have heq : a = c := eq_of_within ha hf hmem hc (hin.trans hout)
  subst heq
  rwa [hin.antisymm hout]

/-- Two families in source order, each of which lies inside the other, are the same. -/
theorem eq_of_refine {as bs : List Span} (ha : as.Pairwise Precedes) (hb : bs.Pairwise Precedes)
    (haf : ∀ a ∈ as, a.Filled) (hbf : ∀ b ∈ bs, b.Filled)
    (hab : ∀ a ∈ as, ∃ b ∈ bs, a.Within b) (hba : ∀ b ∈ bs, ∃ a ∈ as, b.Within a) : as = bs := by
  have hmem : ∀ x, x ∈ as ↔ x ∈ bs := fun x =>
    ⟨fun h => subset_of_refine ha haf hab hba h, fun h => subset_of_refine hb hbf hba hab h⟩
  have hperm : as.Perm bs :=
    (List.perm_ext_iff_of_nodup (nodup_of_pairwise ha haf) (nodup_of_pairwise hb hbf)).2 hmem
  refine hperm.eq_of_pairwise ?_ ha hb
  intro a b hma hmb hp hq
  have h1 := haf a hma
  have h2 := hbf b hmb
  simp only [Filled, Precedes] at *
  omega

end Span

def Node.span (n : Node) : Span := ⟨n.start, n.stop⟩

def Edit.span (e : Edit) : Span := ⟨e.start, e.stop⟩

theorem Edit.mem_covered {edits : List Edit} {i : Int} :
    i ∈ Span.covered (edits.map Edit.span) ↔ ∃ e ∈ edits, i ∈ e.span.bytes := by
  simp [Span.covered]

theorem Edit.eq_of_span_eq {a b : Edit} (hspan : a.span = b.span)
    (hreplacement : a.replacement = b.replacement) (hrule : a.rule = b.rule) : a = b := by
  have hstart : a.start = b.start := congrArg Span.start hspan
  have hstop : a.stop = b.stop := congrArg Span.stop hspan
  cases a
  cases b
  simp_all

theorem Edit.eq_of_spans_eq {as bs : List Edit} (hspans : as.map Edit.span = bs.map Edit.span)
    (h : ∀ a ∈ as, ∀ b ∈ bs, a.span = b.span → a = b) : as = bs := by
  induction as generalizing bs with
  | nil => exact (List.map_eq_nil_iff.1 hspans.symm).symm
  | cons a as ih =>
    cases bs with
    | nil => simp at hspans
    | cons b bs =>
      obtain ⟨hab, hrest⟩ := List.cons.inj hspans
      have hhead : a = b := h a (List.mem_cons_self ..) b (List.mem_cons_self ..) hab
      have htail : as = bs := ih hrest fun x hx y hy =>
        h x (List.mem_cons_of_mem a hx) y (List.mem_cons_of_mem b hy)
      rw [hhead, htail]

end Redact
