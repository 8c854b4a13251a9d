import Mathlib.Data.List.DropRight
import Redact.Text.Blank

/-! # Trimmed texts

What trimming leaves begins and ends with a member outside of the class, and what it takes away are
members of the class (`trimmed_trimBoth`). More members of the class at an end change nothing
(`trimBoth_append_left`, `trimBoth_append_right`). -/

namespace Redact.Text

/-- `core` is `cs` without the members of the class `p` at both ends. -/
structure Trimmed {α : Type} (p : α → Bool) (cs core : List α) : Prop where
  split : ∃ front back, cs = front ++ core ++ back ∧ (∀ c ∈ front, p c = true) ∧
    ∀ c ∈ back, p c = true
  first : ∀ c, core.head? = some c → p c = false
  last : ∀ c, core.getLast? = some c → p c = false

variable {α : Type} {p : α → Bool}

theorem trimEnd_eq_rdropWhile (p : α → Bool) (cs : List α) :
    trimEnd p cs = cs.rdropWhile p := rfl

theorem trimEnd_append {cs back : List α} (h : ∀ c ∈ back, p c = true) :
    trimEnd p (cs ++ back) = trimEnd p cs := by
  rw [trimEnd, List.reverse_append, List.dropWhile_append_of_pos, ← trimEnd]
  intro c hc
  exact h c (List.mem_reverse.1 hc)

theorem trimBoth_append_left {front cs : List α} (h : ∀ c ∈ front, p c = true) :
    trimBoth p (front ++ cs) = trimBoth p cs := by
  rw [trimBoth, List.dropWhile_append_of_pos h, ← trimBoth]

theorem trimBoth_append_right {cs back : List α} (h : ∀ c ∈ back, p c = true) :
    trimBoth p (cs ++ back) = trimBoth p cs := by
  rw [trimBoth, trimBoth, List.dropWhile_append]
  split
  · rename_i hempty
    rw [List.isEmpty_iff] at hempty
    rw [hempty, List.dropWhile_eq_nil_iff.2 h]
  · exact trimEnd_append h

/-- Of a text that does not begin with a member of the class, only the end is taken away. -/
theorem trimBoth_prefix {cs : List α} (h : ∀ c, cs.head? = some c → p c = false) :
    trimBoth p cs <+: cs := by
  cases cs with
  | nil => exact List.prefix_refl []
  | cons c rest =>
    have hc : ¬ p c = true := by simp [h c rfl]
    rw [trimBoth, List.dropWhile_cons_of_neg hc, trimEnd_eq_rdropWhile]
    exact List.rdropWhile_prefix p _

theorem not_of_head?_dropWhile {cs : List α} {c : α} (h : (cs.dropWhile p).head? = some c) :
    p c = false := by
  have hhead := List.head?_dropWhile_not p cs
  rwa [h] at hhead

theorem trimmed_trimBoth (p : α → Bool) (cs : List α) : Trimmed p cs (trimBoth p cs) := by
  have hsplit : trimBoth p cs ++ (cs.dropWhile p).rtakeWhile p = cs.dropWhile p := by
    rw [trimBoth, trimEnd_eq_rdropWhile, List.rdropWhile_append_rtakeWhile]
  refine ⟨⟨cs.takeWhile p, (cs.dropWhile p).rtakeWhile p, ?_, ?_, ?_⟩, ?_, ?_⟩
  · rw [List.append_assoc, hsplit, List.takeWhile_append_dropWhile]
  · intro c hc
    exact List.mem_takeWhile_imp hc
  · intro c hc
    exact List.mem_rtakeWhile_imp hc
  · intro c hc
    have hhead : (cs.dropWhile p).head? = some c := by
      rw [← hsplit, List.head?_append, hc, Option.some_or]
    exact not_of_head?_dropWhile hhead
  · intro c hc
    rw [trimBoth, trimEnd, List.getLast?_reverse] at hc
    exact not_of_head?_dropWhile hc

theorem trimBoth_eq_self {cs : List α} (hfirst : ∀ c, cs.head? = some c → p c = false)
    (hlast : ∀ c, cs.getLast? = some c → p c = false) : trimBoth p cs = cs := by
  have hstart : cs.dropWhile p = cs := by
    cases cs with
    | nil => rfl
    | cons c rest => exact List.dropWhile_cons_of_neg (by simp [hfirst c rfl])
  have hend : cs.reverse.dropWhile p = cs.reverse := by
    cases hcs : cs.reverse with
    | nil => rfl
    | cons c rest =>
      have hc : cs.getLast? = some c := by rw [← List.head?_reverse, hcs, List.head?_cons]
      exact List.dropWhile_cons_of_neg (by simp [hlast c hc])
  rw [trimBoth, hstart, trimEnd, hend, List.reverse_reverse]

theorem trimBoth_trimBoth (p : α → Bool) (cs : List α) :
    trimBoth p (trimBoth p cs) = trimBoth p cs :=
  trimBoth_eq_self (trimmed_trimBoth p cs).first (trimmed_trimBoth p cs).last

theorem trimBoth_eq_nil_iff {cs : List α} : trimBoth p cs = [] ↔ ∀ c ∈ cs, p c = true := by
  constructor
  · intro hnil
    obtain ⟨front, back, hsplit, hfront, hback⟩ := (trimmed_trimBoth p cs).split
    rw [hnil, List.append_nil] at hsplit
    intro c hc
    rw [hsplit, List.mem_append] at hc
    rcases hc with hc | hc
    · exact hfront c hc
    · exact hback c hc
  · intro hall
    rw [trimBoth, List.dropWhile_eq_nil_iff.2 hall]
    rfl

end Redact.Text
