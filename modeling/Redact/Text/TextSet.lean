import Redact.Text.Raw

/-! # Sets of texts

A set of texts is a list in strictly ascending order of code points, so that equal sets are equal
lists and the members come out sorted. -/

namespace Redact

structure TextSet where
  members : List RawText := []
  ascending : members.Pairwise (· < ·) := by exact List.Pairwise.nil

namespace TextSet

/-- `s` put into an ascending list, once. -/
def insertInto (s : RawText) : List RawText → List RawText
  | [] => [s]
  | t :: rest => if s < t then s :: t :: rest else if s = t then t :: rest else t :: insertInto s rest

theorem mem_insertInto {s x : RawText} {ts : List RawText} :
    x ∈ insertInto s ts ↔ x = s ∨ x ∈ ts := by
  induction ts with
  | nil => simp [insertInto]
  | cons t rest ih =>
    by_cases h : s < t
    · simp [insertInto, h]
    · by_cases e : s = t
      · subst e
        rw [insertInto, if_neg h, if_pos rfl, List.mem_cons]
        simp
      · simp only [insertInto, h, e, if_false, List.mem_cons, ih]
        constructor
        · rintro (h | h | h) <;> simp [h]
        · rintro (h | h | h) <;> simp [h]

theorem lt_of_not_lt_of_ne {s t : RawText} (h : ¬ s < t) (hne : s ≠ t) : t < s :=
  Classical.byContradiction fun h' => hne (List.le_antisymm (List.not_lt.1 h') (List.not_lt.1 h))

theorem insertInto_ascending {s : RawText} {ts : List RawText} (h : ts.Pairwise (· < ·)) :
    (insertInto s ts).Pairwise (· < ·) := by
  induction ts with
  | nil => simp [insertInto]
  | cons t rest ih =>
    obtain ⟨ht, hr⟩ := List.pairwise_cons.1 h
    by_cases hs : s < t
    · simp only [insertInto, hs, if_true]
      refine List.pairwise_cons.2 ⟨fun x hx => ?_, h⟩
      rcases List.mem_cons.1 hx with rfl | hx
      · exact hs
      · exact List.lt_trans hs (ht x hx)
    · by_cases e : s = t
      · subst e
        rwa [insertInto, if_neg hs, if_pos rfl]
      · simp only [insertInto, hs, e, if_false]
        refine List.pairwise_cons.2 ⟨fun x hx => ?_, ih hr⟩
        rcases mem_insertInto.1 hx with rfl | hx
        · exact lt_of_not_lt_of_ne hs e
        · exact ht x hx

def empty : TextSet := {}

def insert (set : TextSet) (s : RawText) : TextSet :=
  ⟨insertInto s set.members, insertInto_ascending set.ascending⟩

def ofList (ss : List RawText) : TextSet := ss.foldl insert empty

def contains (set : TextSet) (s : RawText) : Bool := set.members.contains s

end TextSet

end Redact
