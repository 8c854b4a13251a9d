import Mathlib.Data.List.Basic
import Redact.Value.Show

/-! # Values that have a written form

Two things keep a value from being written: a whole number of too many digits stands in it somewhere, or
values are nested deeper in it than there are levels (`Unwritable`). A value inside another one has the
levels that are left by those around it. Every other value has a written form (`exists_written_iff`). -/

namespace Redact.Value

variable {levels : Nat}

/-- With so many levels, the value cannot be written inside another one: it takes more levels than that, it
is a whole number of more than `Text.maxDigits` digits, or a value in it cannot be written with the levels
that are left. -/
inductive Unwritable : Nat → Value → Prop where
  | tooDeep {levels : Nat} {v : Value} (h : levels < v.frames) : Unwritable levels v
  | tooLong {levels : Nat} {i : Int} (h : Text.maxDigits < (digits i.natAbs).length) :
      Unwritable levels (.int i)
  | item {levels : Nat} {v item : Value} {items : List Value} (h : v.items? = some items)
      (hin : item ∈ items) (hitem : Unwritable (levels - v.frames) item) : Unwritable levels v
  | key {levels : Nat} {entries : Entries} {k v : Value} (h : (k, v) ∈ entries)
      (hk : Unwritable (levels - frames (.table entries)) k) : Unwritable levels (.table entries)
  | value {levels : Nat} {entries : Entries} {k v : Value} (h : (k, v) ∈ entries)
      (hv : Unwritable (levels - frames (.table entries)) v) : Unwritable levels (.table entries)

/-- The value has no written form of its own. -/
def Formless (levels : Nat) (v : Value) : Prop :=
  (∀ s, v ≠ .text s) ∧ (levels < v.ownFrames ∨ v.Unwritable levels)

/-! ### What makes a value unwritable -/

theorem unwritable_iff_of_items? {v : Value} {items : List Value} (h : v.items? = some items) :
    v.Unwritable levels ↔
      levels < v.frames ∨ ∃ item ∈ items, item.Unwritable (levels - v.frames) := by
  constructor
  · intro hv
    cases hv with
    | tooDeep hdeep => exact Or.inl hdeep
    | tooLong => cases h
    | item hitems hin hitem =>
      obtain rfl := Option.some.inj (h.symm.trans hitems)
      exact Or.inr ⟨_, hin, hitem⟩
    | key => cases h
    | value => cases h
  · rintro (hdeep | ⟨item, hin, hitem⟩)
    · exact .tooDeep hdeep
    · exact .item h hin hitem

theorem unwritable_table_iff {entries : Entries} :
    Unwritable levels (.table entries) ↔
      levels < frames (.table entries) ∨
        ∃ e ∈ entries, e.1.Unwritable (levels - frames (.table entries)) ∨
          e.2.Unwritable (levels - frames (.table entries)) := by
  constructor
  · intro h
    cases h with
    | tooDeep hdeep => exact Or.inl hdeep
    | item h => cases h
    | key h hk => exact Or.inr ⟨_, h, Or.inl hk⟩
    | value h hv => exact Or.inr ⟨_, h, Or.inr hv⟩
  · rintro (hdeep | ⟨⟨k, v⟩, h, hk | hv⟩)
    · exact .tooDeep hdeep
    · exact .key h hk
    · exact .value h hv

theorem unwritable_int_iff {i : Int} :
    Unwritable levels (.int i) ↔
      levels < frames (.int i) ∨ Text.maxDigits < (digits i.natAbs).length := by
  constructor
  · intro h
    cases h with
    | tooDeep hdeep => exact Or.inl hdeep
    | tooLong hlong => exact Or.inr hlong
    | item h => cases h
  · rintro (hdeep | hlong)
    · exact .tooDeep hdeep
    · exact .tooLong hlong

theorem unwritable_leaf_iff {v : Value} (hint : ∀ i, v ≠ .int i) (hitems : v.items? = none)
    (hentries : v.entries? = none) : v.Unwritable levels ↔ levels < v.frames := by
  refine ⟨fun h => ?_, .tooDeep⟩
  cases h with
  | tooDeep hdeep => exact hdeep
  | tooLong => exact absurd rfl (hint _)
  | item h => cases hitems.symm.trans h
  | key => cases hentries
  | value => cases hentries

/-! ### Written forms -/

theorem exists_showInt_iff {i : Int} :
    (∃ cs, showInt i = .ok cs) ↔ ¬ Text.maxDigits < (digits i.natAbs).length := by
  simp only [showInt]
  split <;> simp_all

theorem exists_map_iff {α β : Type} {f : α → β} {x : Except Unwritten α} :
    (∃ b, x.map f = .ok b) ↔ ∃ a, x = .ok a := by
  cases x <;> simp [Except.map]

theorem exists_ite_iff {α : Type} {p : Prop} [Decidable p] {x : Except Unwritten α} :
    (∃ a, (if p then .error .tooDeep else x) = .ok a) ↔ ¬ p ∧ ∃ a, x = .ok a := by
  by_cases h : p <;> simp [h]

mutual

theorem exists_showInner_iff (levels : Nat) :
    (v : Value) → ((∃ cs, showInner levels v = .ok cs) ↔ ¬ v.Unwritable levels)
  | list items | tuple items | set items => by
    rw [showInner, exists_ite_iff, exists_map_iff, exists_showAll_iff, unwritable_iff_of_items? rfl, not_or]
  | table entries => by
    rw [showInner, exists_ite_iff, exists_map_iff, exists_showEntries_iff, unwritable_table_iff, not_or]
  | int i => by
    rw [showInner, exists_ite_iff, showLeaf, exists_showInt_iff, unwritable_int_iff, not_or]
    all_goals nofun
  | null | bool _ | float _ | text _ | bytes _ | date _ | time _ | moment _ _ _ => by
    rw [showInner, exists_ite_iff, unwritable_leaf_iff (fun _ => Value.noConfusion) rfl rfl, and_iff_left]
    · exact ⟨_, rfl⟩
    all_goals nofun

theorem exists_showAll_iff (levels : Nat) : (vs : List Value) →
    ((∃ parts, showAll levels vs = .ok parts) ↔ ¬ ∃ v ∈ vs, v.Unwritable levels)
  | [] => by simp [showAll]
  | v :: rest => by
    have hv := exists_showInner_iff levels v
    have hrest := exists_showAll_iff levels rest
    rw [List.exists_mem_cons_iff, not_or, ← hv, ← hrest, showAll]
    cases showInner levels v <;> cases showAll levels rest <;> simp [bind, Except.bind, pure, Except.pure]

theorem exists_showEntries_iff (levels : Nat) : (entries : List (Value × Value)) →
    ((∃ parts, showEntries levels entries = .ok parts) ↔
      ¬ ∃ e ∈ entries, e.1.Unwritable levels ∨ e.2.Unwritable levels)
  | [] => by simp [showEntries]
  | (k, v) :: rest => by
    have hk := exists_showInner_iff levels k
    have hv := exists_showInner_iff levels v
    have hrest := exists_showEntries_iff levels rest
    rw [List.exists_mem_cons_iff, not_or, not_or, ← hk, ← hv, ← hrest, showEntries]
    cases showInner levels k <;> cases showInner levels v <;> cases showEntries levels rest <;>
      simp [bind, Except.bind, pure, Except.pure]

end

theorem frames_le_ownFrames {v : Value} (h : ∀ s, v ≠ .text s) : v.frames ≤ v.ownFrames := by
  cases v with
  | text s => exact absurd rfl (h s)
  | moment d t o =>
    cases o with
    | none => exact Nat.le_succ 1
    | some x =>
      simp only [frames, ownFrames]
      split <;> omega
  | date d => exact Nat.le_succ 1
  | time t => exact Nat.le_succ 1
  | _ => exact Nat.le_refl _

/-- A value has a written form exactly if it is a text, or can be written with the levels that there are. -/
theorem exists_written_iff {v : Value} :
    (∃ t, v.written levels = .ok t) ↔ ¬ v.Formless levels := by
  have hleaf : ∀ w : Value, (∀ s, w ≠ .text s) → (w.Unwritable levels ↔ levels < w.frames) →
      (w.Formless levels ↔ levels < w.ownFrames) := by
    intro w htext hw
    have hframes := frames_le_ownFrames htext
    rw [Formless, hw, and_iff_right htext, or_iff_left_of_imp]
    intro hlt
    omega
  unfold written
  rw [exists_ite_iff]
  cases v with
  | text s => simp [Formless, ownFrames]
  | date d | time t | moment d t o =>
    rw [hleaf _ (fun _ => Value.noConfusion)
      (unwritable_leaf_iff (fun _ => Value.noConfusion) rfl rfl), and_iff_left]
    exact ⟨_, rfl⟩
  | _ => simp [Formless, exists_map_iff, exists_showInner_iff]

end Redact.Value
