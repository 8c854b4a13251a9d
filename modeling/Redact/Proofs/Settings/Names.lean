import Redact.Proofs.Text.Raw
import Redact.Secret.Name

/-! # The sensitive names of settings

Which names are sensitive: the built-in ones and the folded form of each extra one that is not blank
(`mem_names`). The order of the extra names and their repetitions do not count, so more extra names
make no sensitive text insensitive (`isSensitive_mono`). -/

namespace Redact

namespace Settings

theorem foldName_eq_nil_iff {name : RawText} : foldName name = [] ↔ name.Blank := by
  rw [foldName, RawText.lower_eq_nil_iff, RawText.trim_eq_nil_iff]

/-- A name that is empty, built in or there already is passed over. -/
def Skipped (names : List RawText) (folded : RawText) : Prop :=
  folded = [] ∨ folded ∈ builtInNames ∨ folded ∈ names

instance (names : List RawText) (folded : RawText) : Decidable (Skipped names folded) :=
  inferInstanceAs (Decidable (_ ∨ _ ∨ _))

theorem addName_eq (names : List RawText) (name : RawText) :
    addName names name =
      if Skipped names (foldName name) then names else names ++ [foldName name] := by
  have hcond : ((foldName name).isEmpty || builtInNames.contains (foldName name) ||
      names.contains (foldName name)) = true ↔ Skipped names (foldName name) := by
    simp only [Skipped, Bool.or_eq_true, List.isEmpty_iff, List.contains_iff_mem, or_assoc]
  simp only [addName, hcond]

theorem mem_addName {names : List RawText} {name x : RawText} :
    x ∈ builtInNames ++ addName names name ↔
      x ∈ builtInNames ++ names ∨ (x ≠ [] ∧ foldName name = x) := by
  rw [addName_eq]
  split
  · rename_i hskip
    constructor
    · exact Or.inl
    · rintro (hx | ⟨hne, rfl⟩)
      · exact hx
      · rcases hskip with hempty | hin | hin
        · exact absurd hempty hne
        · exact List.mem_append_left _ hin
        · exact List.mem_append_right _ hin
  · rename_i hskip
    have hne : foldName name ≠ [] := fun h => hskip (Or.inl h)
    rw [← List.append_assoc, List.mem_append, List.mem_singleton]
    constructor
    · rintro (hx | rfl)
      · exact Or.inl hx
      · exact Or.inr ⟨hne, rfl⟩
    · rintro (hx | ⟨-, rfl⟩)
      · exact Or.inl hx
      · exact Or.inr rfl

theorem mem_foldl_addName {extra acc : List RawText} {x : RawText} :
    x ∈ builtInNames ++ extra.foldl addName acc ↔
      x ∈ builtInNames ++ acc ∨ ∃ name ∈ extra, x ≠ [] ∧ foldName name = x := by
  induction extra generalizing acc with
  | nil => simp
  | cons name rest ih =>
    rw [List.foldl_cons, ih, mem_addName, or_assoc]
    simp

/-- The sensitive names are the built-in ones and the folded extra ones that are not empty. -/
theorem mem_names {s : Settings} {x : RawText} :
    x ∈ s.names ↔ x ∈ builtInNames ∨ ∃ name ∈ s.extraNames, x ≠ [] ∧ foldName name = x := by
  rw [names, mem_foldl_addName, List.append_nil]

theorem names_subset {a b : Settings} (h : ∀ name ∈ a.extraNames, name ∈ b.extraNames) :
    a.names ⊆ b.names := by
  intro x hx
  rcases mem_names.1 hx with hx | ⟨name, hname, hfold⟩
  · exact mem_names.2 (Or.inl hx)
  · exact mem_names.2 (Or.inr ⟨name, h name hname, hfold⟩)

theorem ne_nil_of_mem_names {s : Settings} {x : RawText} (hx : x ∈ s.names) : x ≠ [] := by
  rcases mem_names.1 hx with hx | ⟨_, _, hne, _⟩
  · have hbuiltIn : ∀ name ∈ builtInNames, name ≠ [] := by decide
    exact hbuiltIn x hx
  · exact hne

end Settings

namespace Secret

/-- The empty text is not sensitive, as no name is empty. -/
theorem isSensitive_nil (s : Settings) : isSensitive s.names [] = false := by
  rw [isSensitive, List.any_eq_false]
  intro name hname
  have hne : name ≠ [] := Settings.ne_nil_of_mem_names hname
  simp [RawText.lower, RawText.lowerAfter, Text.hasPart, hne]

theorem isSensitive_mono {a b : List RawText} (h : a ⊆ b) {text : RawText}
    (hs : isSensitive a text = true) : isSensitive b text = true := by
  obtain ⟨name, hname, hpart⟩ := List.any_eq_true.1 hs
  exact List.any_eq_true.2 ⟨name, h hname, hpart⟩

end Secret

end Redact
