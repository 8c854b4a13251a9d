import Redact.Proofs.Settings.Merge

/-! # Names in any form of list

All sensitive names are what adding the extra names to the built-in ones brings (`names_eq`), so the extra
names count by their folded forms alone. Folding them before, leaving out blank ones and dropping
repetitions changes nothing then (`newNames_foldNames`, `newNames_newNames`). Names listed in a text or
one by one, in a document or for a run, are therefore the same sensitive names
(`names_of_any_listing`). -/

namespace Redact.Settings

/-! ### Extra names after the built-in ones -/

/-- A name is added unless it is empty or among all names up to then. -/
theorem builtInNames_append_addName (names : List RawText) (name : RawText) :
    builtInNames ++ addName names name = appendName (builtInNames ++ names) name := by
  have hskip : Skipped names (foldName name) ↔
      foldName name = [] ∨ foldName name ∈ builtInNames ++ names := by
    rw [Skipped, List.mem_append]
  rw [addName_eq, appendName_eq]
  simp only [← hskip]
  split
  · rfl
  · rw [List.append_assoc]

theorem names_eq (s : Settings) :
    s.names = builtInNames ++ newNames builtInNames (s.extraNames.map foldName) := by
  have hadd : s.extraNames.foldl appendName (builtInNames ++ []) =
      builtInNames ++ s.extraNames.foldl addName [] :=
    List.foldl_hom (builtInNames ++ ·) fun names name => (builtInNames_append_addName names name).symm
  rw [names, ← hadd, List.append_nil, foldl_appendName]

/-! ### Names folded before -/

/-- The names that are new after some of `names` have been kept are the same after all of them. -/
theorem newNames_newNames {earlier names : List RawText} (h : earlier ⊆ names) (folded : List RawText) :
    newNames names (newNames earlier folded) = newNames names folded := by
  induction folded generalizing earlier names with
  | nil => rfl
  | cons name rest ih =>
    by_cases hearlier : name = [] ∨ name ∈ earlier
    · have hskip : name = [] ∨ name ∈ names := hearlier.imp_right fun hin => h hin
      rw [newNames_cons_of_skipped hearlier, newNames_cons_of_skipped hskip, ih h]
    · rw [newNames_cons_of_kept hearlier]
      by_cases hskip : name = [] ∨ name ∈ names
      · have hin : name ∈ names := hskip.resolve_left fun hempty => hearlier (Or.inl hempty)
        have hsub : earlier ++ [name] ⊆ names :=
          List.append_subset.2 ⟨h, List.cons_subset.2 ⟨hin, List.nil_subset names⟩⟩
        rw [newNames_cons_of_skipped hskip, newNames_cons_of_skipped hskip, ih hsub]
      · have hsub : earlier ++ [name] ⊆ names ++ [name] :=
          List.append_subset.2 ⟨List.Subset.trans h (List.subset_append_left names [name]),
            List.subset_append_right names [name]⟩
        rw [newNames_cons_of_kept hskip, newNames_cons_of_kept hskip, ih hsub]

theorem foldNames_eq (ts : List RawText) : foldNames ts = (ts.map foldName).filter (· ≠ []) := by
  have hblank : ∀ t : RawText, (!t.trim.isEmpty) = decide (foldName t ≠ []) := by
    intro t
    rw [Bool.eq_iff_iff, Bool.not_eq_true', ← Bool.not_eq_true, List.isEmpty_iff,
      RawText.trim_eq_nil_iff, decide_eq_true_eq, Ne, foldName_eq_nil_iff]
  rw [foldNames, List.filter_map]
  simp only [hblank, Function.comp_def]

/-- Leaving out blank names before makes no difference, as no empty name is new. -/
theorem newNames_foldNames (names ts : List RawText) :
    newNames names (foldNames ts) = newNames names (ts.map foldName) := by
  have hkeep : ∀ name : RawText, (decide (name ≠ [] ∧ name ∉ names) && decide (name ≠ [])) =
      decide (name ≠ [] ∧ name ∉ names) := by
    intro name
    rw [Bool.eq_iff_iff, Bool.and_eq_true, decide_eq_true_eq, decide_eq_true_eq]
    tauto
  rw [newNames, foldNames_eq, List.filter_filter, newNames]
  simp only [hkeep]

theorem map_foldName_foldNames (ts : List RawText) : (foldNames ts).map foldName = foldNames ts :=
  map_foldName_eq_self fun _ hname => folded_of_mem_foldNames hname

theorem foldName_trim (name : RawText) : foldName name.trim = foldName name := by
  rw [foldName, RawText.trim_trim, foldName]

/-! ### Names of a document and of a run -/

variable {levels : Nat}

/-- The built-in names and then the names between the commas of a text: each trimmed and in lowercase,
without empty and built-in ones, and once. -/
def listedNames (text : RawText) : List RawText :=
  builtInNames ++ ((text.commaParts.map fun part => (RawText.trim part).lower).filter
    fun name => name ≠ [] ∧ name ∉ builtInNames).eraseDups

theorem listedNames_eq (text : RawText) :
    listedNames text = builtInNames ++ newNames builtInNames (text.commaParts.map foldName) := rfl

theorem names_of_document {doc : Entries} (ts : List RawText)
    (hnames : membersOf (namesValue doc) = ts.map .text) (hlimit : limitValue doc = .null)
    (hallowed : allowedIn doc = []) :
    (read levels doc).map names = .ok (builtInNames ++ newNames builtInNames (ts.map foldName)) := by
  have hread : read levels doc = .ok (settingsWith doc (foldNames ts) leastTokenLength []) := by
    refine read_eq_ok_iff.2 ⟨ts, ?_, leastTokenLength, ?_, [], ?_, rfl⟩
    · rw [hnames, written_texts]
    · rw [hlimit]
      rfl
    · rw [hallowed]
      rfl
  have hextra : (settingsWith doc (foldNames ts) leastTokenLength []).extraNames = foldNames ts := rfl
  rw [hread, Except.map, names_eq, hextra, map_foldName_foldNames, newNames_foldNames]

theorem names_of_list (levels : Nat) (ts : List RawText) :
    (read levels [(.text "extra_sensitive_names", .list (ts.map .text))]).map names =
      .ok (builtInNames ++ newNames builtInNames (ts.map foldName)) := by
  have hmembers : membersOf (namesValue [(.text "extra_sensitive_names", .list (ts.map .text))]) =
      ts.map .text := by
    cases ts <;> rfl
  exact names_of_document ts hmembers rfl rfl

theorem names_of_extra_text (text : RawText) :
    (read levels [(.text "extra_sensitive_names", .text text)]).map names = .ok (listedNames text) := by
  by_cases hempty : text = []
  · -- an empty text counts as no value, so it lists no name instead of an empty one
    subst hempty
    have hnone : listedNames [] = builtInNames ++ newNames builtInNames ([].map foldName) := by decide
    rw [hnone]
    exact names_of_document [] rfl rfl rfl
  · have htruthy : (Value.text text).truthy = true := by simp [Value.truthy, hempty]
    have hvalue : namesValue [(.text "extra_sensitive_names", .text text)] = .text text :=
      if_pos htruthy
    exact names_of_document text.commaParts (by rw [hvalue, membersOf]) rfl rfl

theorem names_of_text (text : RawText) :
    (read levels [(.text "sensitive_names", .text text)]).map names = .ok (listedNames text) :=
  names_of_document text.commaParts rfl rfl rfl

theorem names_of_merge (levels : Nat) (text : RawText) :
    (merge levels { extraNames := some text } {}).map names = .ok (listedNames text) := by
  have hnormal : ({} : Settings).Normal := ⟨by decide, by decide, by simp⟩
  have hadded : (withChoices { extraNames := some text } {}).extraNames =
      newNames [] (text.commaParts.map foldName) := by
    rw [withChoices, List.nil_append, addedNames, foldedParts, RawText.commaParts_eq]
    rfl
  have hfolded := map_foldName_eq_self (withChoices_normal hnormal { extraNames := some text }).names
  rw [merge_eq hnormal, Except.map, names_eq, hfolded, hadded,
    newNames_newNames (List.nil_subset builtInNames), listedNames_eq]

/-- The names in a text are the same sensitive names however they are given: as the text under either key
of a document, as the list of its parts with or without the blanks around them, as the extra names of
settings that no document was read for, or as a choice for one run. -/
theorem names_of_any_listing (levels : Nat) (text : RawText) :
    (read levels [(.text "extra_sensitive_names", .text text)]).map names = .ok (listedNames text) ∧
      (read levels [(.text "sensitive_names", .text text)]).map names = .ok (listedNames text) ∧
      (read levels [(.text "extra_sensitive_names", .list (text.commaParts.map .text))]).map names =
        .ok (listedNames text) ∧
      (read levels [(.text "extra_sensitive_names",
          .list (text.commaParts.map fun part => .text (RawText.trim part)))]).map names =
        .ok (listedNames text) ∧
      ({ extraNames := text.commaParts } : Settings).names = listedNames text ∧
      (merge levels { extraNames := some text } {}).map names = .ok (listedNames text) := by
  have htrimmed : (text.commaParts.map RawText.trim).map foldName =
      text.commaParts.map foldName := by
    rw [List.map_map]
    exact List.map_congr_left fun part _ => foldName_trim part
  have hlist := names_of_list levels (text.commaParts.map RawText.trim)
  rw [htrimmed, List.map_map] at hlist
  exact ⟨names_of_extra_text text, names_of_text text, names_of_list levels _, hlist, names_eq _,
    names_of_merge levels text⟩

end Redact.Settings
