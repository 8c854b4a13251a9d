import Redact.Proofs.Settings.Names
import Redact.Proofs.Text.Search

/-! # Sensitive texts

A text is sensitive if its lowercase form has a built-in name in it or the folded form of an extra name
that is not blank. How often an extra name is given, in which case and with which blanks around it does
not count, and blank ones do nothing (`isSensitive_names_iff`). A name is found wherever it stands, as
only a capital sigma has a lowercase form that depends on its neighbours (`sensitive_iff_holds_name`). -/

namespace Redact.Secret

variable {s : Settings} {text : RawText}

/-- The text has `name` in its lowercase form. -/
def Holds (text name : RawText) : Prop := name <:+: text.lower

theorem isSensitive_iff {names : List RawText} :
    isSensitive names text = true ↔ ∃ name ∈ names, Holds text name := by
  simp only [isSensitive, List.any_eq_true, Text.hasPart_iff, Holds]

theorem isSensitive_names_iff :
    isSensitive s.names text = true ↔
      (∃ name ∈ builtInNames, Holds text name) ∨
        ∃ name ∈ s.extraNames, ¬ name.Blank ∧ Holds text (Settings.foldName name) := by
  rw [isSensitive_iff]
  constructor
  · rintro ⟨x, hx, hholds⟩
    rcases Settings.mem_names.1 hx with hbuiltIn | ⟨name, hname, hne, rfl⟩
    · exact Or.inl ⟨x, hbuiltIn, hholds⟩
    · rw [Ne, Settings.foldName_eq_nil_iff] at hne
      exact Or.inr ⟨name, hname, hne, hholds⟩
  · rintro (⟨x, hbuiltIn, hholds⟩ | ⟨name, hname, hblank, hholds⟩)
    · exact ⟨x, Settings.mem_names.2 (Or.inl hbuiltIn), hholds⟩
    · rw [← Settings.foldName_eq_nil_iff] at hblank
      exact ⟨_, Settings.mem_names.2 (Or.inr ⟨name, hname, hblank, rfl⟩), hholds⟩

/-- A part of a text without a capital sigma is looked at on its own. -/
theorem holds_of_lower_eq {front part back name : RawText} (hsigma : .char 'Σ' ∉ part)
    (h : part.lower = name) : Holds (front ++ part ++ back) name := by
  subst h
  exact RawText.lower_infix hsigma front back

/-- A text is sensitive exactly if its lowercase form has one of the names in it, built-in or extra; it is if
some part of it has the lowercase form of an extra name. -/
theorem sensitive_iff_holds_name (s : Settings) :
    (∀ text, isSensitive s.names text = true ↔
      (∃ name ∈ builtInNames, Holds text name) ∨
        ∃ name ∈ s.extraNames, ¬ name.Blank ∧ Holds text name.trim.lower) ∧
    ∀ name ∈ s.extraNames, ¬ name.Blank → ∀ front part back : RawText, .char 'Σ' ∉ part →
      part.lower = name.trim.lower →
        isSensitive s.names (front ++ part ++ back) = true := by
  constructor
  · intro text
    exact isSensitive_names_iff
  · intro name hname hblank front part back hsigma hlower
    have hholds : Holds (front ++ part ++ back) (Settings.foldName name) :=
      holds_of_lower_eq hsigma hlower
    exact isSensitive_names_iff.2 (Or.inr ⟨name, hname, hblank, hholds⟩)

/-- Extra names of which one is blank, and the other ends in a sigma. -/
def sigmaNames : Settings := { extraNames := ["  ", " ΟΔΟΣ\t"] }

/-- The sigma that ends the name is a final one there, and in the text it is written as such and followed
by another letter. -/
theorem sensitive_iff_holds_name_sigma :
    ((" ΟΔΟΣ\t" : RawText) ∈ sigmaNames.extraNames ∧ ¬ RawText.Blank " ΟΔΟΣ\t" ∧
      .char 'Σ' ∉ RawText.ofString "οδος" ∧
      RawText.lower "οδος" = (RawText.trim " ΟΔΟΣ\t").lower) ∧
      isSensitive sigmaNames.names (RawText.ofString "x" ++ .ofString "οδος" ++ .ofString "Σ") = true := by
  have hname : (" ΟΔΟΣ\t" : RawText) ∈ sigmaNames.extraNames := by decide
  have hblank : ¬ RawText.Blank " ΟΔΟΣ\t" := by decide
  have hsigma : .char 'Σ' ∉ RawText.ofString "οδος" := by decide
  have hlower : RawText.lower "οδος" = (RawText.trim " ΟΔΟΣ\t").lower := by decide +kernel
  exact ⟨⟨hname, hblank, hsigma, hlower⟩,
    (sensitive_iff_holds_name sigmaNames).2 _ hname hblank (.ofString "x") (.ofString "οδος")
      (.ofString "Σ") hsigma hlower⟩

end Redact.Secret
