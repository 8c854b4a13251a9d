import Redact.Proofs.Secret.Name
import Redact.Proofs.Settings.Normal
import Redact.Settings.Merge

/-! # Choices for one run

Merging reads the settings again as they were written. Those that a document brought are in normal form and
come back as they were, so merging keeps all of them but for the choices (`merge_eq`). Names are only added:
after the names of the settings come the new ones among those that were chosen, each where it is first given
(`foldl_appendName`). So merging the same choices again changes nothing, and what was sensitive stays so
(`merge_of_read`). -/

namespace Redact.Settings

/-! ### Names that are added -/

/-- The folded forms of the names between the commas of a text. -/
def foldedParts (text : RawText) : List RawText :=
  (text.splitOn (.char ',')).map foldName

/-- Those of `folded` that are not empty and not in `names`, each once and in order. -/
def newNames (names folded : List RawText) : List RawText :=
  (folded.filter fun name => name ≠ [] ∧ name ∉ names).eraseDups

theorem appendName_eq (names : List RawText) (name : RawText) :
    appendName names name =
      if foldName name = [] ∨ foldName name ∈ names then names else names ++ [foldName name] := by
  simp only [appendName, Bool.or_eq_true, List.isEmpty_iff, List.contains_iff_mem]

theorem newNames_cons_of_skipped {names folded : List RawText} {name : RawText}
    (h : name = [] ∨ name ∈ names) : newNames names (name :: folded) = newNames names folded := by
  have hdrop : ¬ (decide (name ≠ [] ∧ name ∉ names) = true) := by
    rw [decide_eq_true_eq]
    tauto
  rw [newNames, List.filter_cons, if_neg hdrop, newNames]

theorem newNames_cons_of_kept {names folded : List RawText} {name : RawText}
    (h : ¬ (name = [] ∨ name ∈ names)) :
    newNames names (name :: folded) = name :: newNames (names ++ [name]) folded := by
  have hkeep : decide (name ≠ [] ∧ name ∉ names) = true := by
    rw [decide_eq_true_eq]
    tauto
  -- what is not the name itself is not in the longer list either
  have hrest : ∀ x : RawText, (!x == name && decide (x ≠ [] ∧ x ∉ names)) =
      decide (x ≠ [] ∧ x ∉ names ++ [name]) := by
    intro x
    rw [Bool.eq_iff_iff]
    simp only [Bool.and_eq_true, Bool.not_eq_true', beq_eq_false_iff_ne, decide_eq_true_eq,
      List.mem_append, List.mem_singleton]
    tauto
  rw [newNames, List.filter_cons, if_pos hkeep, List.eraseDups_cons, List.filter_filter, newNames]
  simp only [hrest]

/-- The loop that looks up each name in the list it adds to brings the new names after the old ones. -/
theorem foldl_appendName (names given : List RawText) :
    given.foldl appendName names = names ++ newNames names (given.map foldName) := by
  induction given generalizing names with
  | nil => simp [newNames]
  | cons name rest ih =>
    rw [List.foldl_cons, ih, appendName_eq, List.map_cons]
    by_cases hskip : foldName name = [] ∨ foldName name ∈ names
    · rw [if_pos hskip, newNames_cons_of_skipped hskip]
    · rw [if_neg hskip, newNames_cons_of_kept hskip, List.append_assoc, List.singleton_append]

theorem mem_newNames {names folded : List RawText} {x : RawText} :
    x ∈ newNames names folded ↔ x ∈ folded ∧ x ≠ [] ∧ x ∉ names := by
  simp [newNames, List.mem_eraseDups]

theorem newNames_append_newNames (names folded : List RawText) :
    newNames (names ++ newNames names folded) folded = [] := by
  rw [List.eq_nil_iff_forall_not_mem]
  intro x hx
  obtain ⟨hin, hne, hnot⟩ := mem_newNames.1 hx
  rw [List.mem_append, not_or] at hnot
  exact hnot.2 (mem_newNames.2 ⟨hin, hne, hnot.1⟩)

/-! ### Merging -/

def addedNames (o : Overrides) (s : Settings) : List RawText :=
  newNames s.extraNames (foldedParts (o.extraNames.getD []))

/-- The settings with the choices for a run. -/
def withChoices (o : Overrides) (s : Settings) : Settings :=
  { s with
    enabled := s.enabled && !o.noRedact
    replacement := (o.replacement.filter (· ≠ [])).getD s.replacement
    extraNames := s.extraNames ++ addedNames o s }

theorem merge_eq {s : Settings} (h : s.Normal) (levels : Nat) (o : Overrides) :
    merge levels o s = .ok (withChoices o s) := by
  have hnames : (RawText.commaParts (o.extraNames.getD [])).foldl appendName s.extraNames =
      s.extraNames ++ addedNames o s := by
    rw [foldl_appendName, RawText.commaParts_eq]
    rfl
  rw [merge, read_toEntries_of_normal h]
  simp only [bind, Except.bind, pure, Except.pure, hnames, withChoices]
  cases o.replacement with
  | none => rfl
  | some r => by_cases hr : r = [] <;> simp [Option.filter_some, hr]

theorem withChoices_normal {s : Settings} (h : s.Normal) (o : Overrides) : (withChoices o s).Normal := by
  refine ⟨h.minLength, ?_, ?_⟩
  · rw [withChoices]
    cases hr : o.replacement.filter (· ≠ []) with
    | none => exact h.replacement
    | some r => simpa using (Option.filter_eq_some_iff.1 hr).2
  · intro name hname
    rcases List.mem_append.1 hname with hname | hname
    · exact h.names name hname
    · obtain ⟨hin, hne, -⟩ := mem_newNames.1 hname
      obtain ⟨part, -, rfl⟩ := List.mem_map.1 hin
      exact folded_foldName fun hblank => hne (foldName_eq_nil_iff.2 hblank)

theorem withChoices_withChoices (o : Overrides) (s : Settings) :
    withChoices o (withChoices o s) = withChoices o s := by
  have hnames : addedNames o (withChoices o s) = [] := newNames_append_newNames s.extraNames _
  rw [withChoices, hnames, withChoices]
  cases o.replacement.filter (· ≠ []) <;> simp

theorem withChoices_nothing (s : Settings) : withChoices {} s = s := by
  have hnames : addedNames {} s = [] := by
    have hparts : foldedParts [] = [[]] := by decide
    rw [addedNames, Option.getD_none, hparts, newNames_cons_of_skipped (Or.inl rfl)]
    rfl
  rw [withChoices, hnames]
  simp

theorem prefix_foldl_addName (names given : List RawText) : names <+: given.foldl addName names := by
  induction given generalizing names with
  | nil => exact List.prefix_refl names
  | cons name rest ih =>
    rw [List.foldl_cons, addName_eq]
    split
    · exact ih names
    · exact (List.prefix_append names [foldName name]).trans (ih _)

theorem names_prefix_withChoices (o : Overrides) (s : Settings) :
    s.names <+: (withChoices o s).names := by
  rw [withChoices, names, names, List.prefix_append_right_inj, List.foldl_append]
  exact prefix_foldl_addName _ _

/-- The settings of a document with the choices for a run: redaction is off if it was switched off, another
replacement counts if it is not empty, and the names chosen are added, each once, in order and unless
they are there. Without choices the settings stay, choices made twice count once, and no name is lost. -/
theorem merge_of_read {levels : Nat} {doc : Entries} {s : Settings} (h : read levels doc = .ok s)
    (left : Nat) (o : Overrides) :
    merge left o s = .ok { s with
      enabled := s.enabled && !o.noRedact
      replacement := (o.replacement.filter (· ≠ [])).getD s.replacement
      extraNames := s.extraNames ++
        (((o.extraNames.getD []).splitOn (.char ',')).map (fun part => (RawText.trim part).lower)
          |>.filter fun name => name ≠ [] ∧ name ∉ s.extraNames).eraseDups } ∧
    merge left {} s = .ok s ∧
    ∀ merged, merge left o s = .ok merged →
      merge left o merged = .ok merged ∧
      s.names <+: merged.names ∧
      ∀ text, Secret.isSensitive s.names text = true → Secret.isSensitive merged.names text = true := by
  have hnormal := normal_of_read h
  have hmerge := merge_eq hnormal left o
  refine ⟨hmerge, ?_, ?_⟩
  · rw [merge_eq hnormal, withChoices_nothing]
  · intro merged hmerged
    obtain rfl : withChoices o s = merged := Except.ok.inj (hmerge.symm.trans hmerged)
    have hprefix := names_prefix_withChoices o s
    refine ⟨?_, hprefix, fun _ => Secret.isSensitive_mono hprefix.subset⟩
    rw [merge_eq (withChoices_normal hnormal o), withChoices_withChoices]

/-- An empty replacement, and names of which one is there and another is given twice. -/
def spelledChoices : Overrides where
  noRedact := true
  replacement := some ""
  extraNames := some " pin,İD ,,Pin"

theorem merge_of_read_spelled :
    read 1 spelledDocument = .ok spelledSettings ∧
      merge 0 spelledChoices spelledSettings = .ok { spelledSettings with
        enabled := false
        extraNames := ["i\u0307d", "οδος", "pin"] } := by
  have h : read 1 spelledDocument = .ok spelledSettings := by decide +kernel
  exact ⟨h, (merge_of_read h 0 spelledChoices).1.trans (by decide +kernel)⟩

end Redact.Settings
