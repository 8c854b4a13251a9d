import Mathlib.Data.List.Pairwise

/-! # Stable sorts

A sort keeps the order of members of which none has to stand before another (`filter_mergeSort`). So which
member with a property comes first in the sorted list can be told from the list as it was given: none with
the property has to stand before it, and of those that are tied with it it is the first one
(`find?_mergeSort_eq_some`). -/

namespace Redact

variable {α : Type} {le : α → α → Bool}

section
variable (le) (p : α → Bool)

/-- A member of `xs` with the property before which no other one has to stand, the first one of those
that are tied. -/
def Foremost (xs : List α) (x : α) : Prop :=
  ∃ front back, xs = front ++ x :: back ∧ p x = true ∧
    (∀ y ∈ front, p y = true → le y x = false) ∧ ∀ y ∈ back, p y = true → le x y = true

/-- A member with the property that is tied with `x`. -/
def tied (x y : α) : Bool := p y && le y x && le x y

end

variable {p : α → Bool} {xs : List α} {x : α}

theorem tied_iff {y : α} : tied le p x y = true ↔ p y = true ∧ le y x = true ∧ le x y = true := by
  simp [tied, and_assoc]

theorem foremost_iff_of_sorted (hs : xs.Pairwise fun a b => le a b = true) :
    Foremost le p xs x ↔ xs.find? p = some x := by
  rw [List.find?_eq_some_iff_append]
  constructor
  · rintro ⟨front, back, rfl, hx, hfront, -⟩
    refine ⟨hx, front, back, rfl, ?_⟩
    intro y hy
    have hle : le y x = true := (List.pairwise_append.1 hs).2.2 y hy x (List.mem_cons_self ..)
    by_contra hy'
    have hpy : p y = true := by simpa using hy'
    rw [hfront y hy hpy] at hle
    exact Bool.false_ne_true hle
  · rintro ⟨hx, front, back, rfl, hfront⟩
    refine ⟨front, back, rfl, hx, ?_, ?_⟩
    · intro y hy hpy
      have hnot : p y = false := by simpa using hfront y hy
      rw [hnot] at hpy
      exact absurd hpy Bool.false_ne_true
    · intro y hy _
      exact (List.pairwise_cons.1 (List.pairwise_append.1 hs).2.1).1 y hy

section
variable (htotal : ∀ a b, (le a b || le b a) = true)
include htotal

theorem le_refl_of_total (a : α) : le a a = true := by simpa using htotal a a

theorem le_of_foremost (h : Foremost le p xs x) {y : α} (hy : y ∈ xs) (hpy : p y = true) :
    le x y = true := by
  obtain ⟨front, back, rfl, -, hfront, hback⟩ := h
  rcases List.mem_append.1 hy with hy | hy
  · simpa [hfront y hy hpy] using htotal x y
  · rcases List.mem_cons.1 hy with rfl | hy
    · exact le_refl_of_total htotal y
    · exact hback y hy hpy

theorem foremost_iff :
    Foremost le p xs x ↔
      xs.find? (tied le p x) = some x ∧ ∀ y ∈ xs, p y = true → le x y = true := by
  have hxx := le_refl_of_total htotal x
  rw [List.find?_eq_some_iff_append]
  constructor
  · intro h
    refine ⟨?_, fun y hy hpy => le_of_foremost htotal h hy hpy⟩
    obtain ⟨front, back, rfl, hx, hfront, -⟩ := h
    refine ⟨tied_iff.2 ⟨hx, hxx, hxx⟩, front, back, rfl, ?_⟩
    intro y hy
    by_cases hpy : p y = true
    · simp [tied, hfront y hy hpy]
    · simp [tied, hpy]
  · rintro ⟨⟨hx, front, back, rfl, hfront⟩, hle⟩
    refine ⟨front, back, rfl, (tied_iff.1 hx).1, ?_, ?_⟩
    · intro y hy hpy
      have hxy : le x y = true := hle y (List.mem_append_left _ hy) hpy
      simpa [tied, hpy, hxy] using hfront y hy
    · intro y hy hpy
      exact hle y (List.mem_append_right _ (List.mem_cons_of_mem x hy)) hpy

variable (htrans : ∀ a b c, le a b = true → le b c = true → le a c = true)
include htrans

/-- Members of which none has to stand before another keep their order in the sort. -/
theorem filter_mergeSort (hp : ∀ a b, p a = true → p b = true → le a b = true) (xs : List α) :
    (xs.mergeSort le).filter p = xs.filter p := by
  have hsorted : (xs.filter p).Pairwise fun a b => le a b = true := by
    refine List.pairwise_of_forall_mem_list ?_
    intro a ha b hb
    exact hp a b (List.mem_filter.1 ha).2 (List.mem_filter.1 hb).2
  have hpart := (List.sublist_mergeSort htrans htotal hsorted List.filter_sublist).filter p
  rw [List.filter_filter] at hpart
  simp only [Bool.and_self] at hpart
  exact (hpart.eq_of_length ((List.mergeSort_perm xs le).filter p).length_eq.symm).symm

theorem find?_tied_mergeSort :
    (xs.mergeSort le).find? (tied le p x) = xs.find? (tied le p x) := by
  have hp : ∀ a b, tied le p x a = true → tied le p x b = true → le a b = true :=
    fun a b ha hb => htrans a x b (tied_iff.1 ha).2.1 (tied_iff.1 hb).2.2
  rw [← List.head?_filter, ← List.head?_filter, filter_mergeSort htotal htrans hp]

/-- The first member with the property in the sorted list is the foremost one of the list that was given. -/
theorem find?_mergeSort_eq_some :
    (xs.mergeSort le).find? p = some x ↔ Foremost le p xs x := by
  rw [← foremost_iff_of_sorted (List.pairwise_mergeSort htrans htotal xs), foremost_iff htotal,
    foremost_iff htotal, find?_tied_mergeSort htotal htrans]
  simp only [List.mem_mergeSort]

end

end Redact
