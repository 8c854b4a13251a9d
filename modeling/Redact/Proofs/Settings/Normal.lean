import Redact.Proofs.Settings.Names
import Redact.Proofs.Settings.Read
import Redact.Settings.Write

/-! # Settings in normal form

Reading a document brings settings in normal form: folded names, a replacement that is not empty, a limit
that is not too low. What settings are written as is read as their normal form (`read_toEntries`), so
exactly the settings in normal form come back from a document as they went into it
(`read_toEntries_eq_self`). -/

namespace Redact

/-! ### Sets of texts -/

namespace TextSet

theorem mem_foldl_insert {ts : List RawText} {set : TextSet} {x : RawText} :
    x ∈ (ts.foldl insert set).members ↔ x ∈ ts ∨ x ∈ set.members := by
  induction ts generalizing set with
  | nil => simp
  | cons s rest ih =>
    rw [List.foldl_cons, ih, insert, mem_insertInto, List.mem_cons]
    tauto

theorem mem_ofList {ts : List RawText} {x : RawText} : x ∈ (ofList ts).members ↔ x ∈ ts := by
  rw [ofList, mem_foldl_insert]
  simp [empty]

theorem nodup_members (set : TextSet) : set.members.Nodup := by
  refine set.ascending.imp ?_
  rintro s t hlt rfl
  exact List.lt_irrefl s hlt

theorem eq_of_mem_iff {a b : TextSet} (h : ∀ x, x ∈ a.members ↔ x ∈ b.members) : a = b := by
  have hperm : a.members.Perm b.members :=
    (List.perm_ext_iff_of_nodup a.nodup_members b.nodup_members).2 h
  have hmembers : a.members = b.members :=
    hperm.eq_of_pairwise (fun s t _ _ hst hts => absurd (List.lt_trans hst hts) (List.lt_irrefl s))
      a.ascending b.ascending
  cases a
  cases b
  congr

theorem ofList_members (set : TextSet) : ofList set.members = set :=
  eq_of_mem_iff fun _ => mem_ofList

end TextSet

namespace Settings

/-! ### Folded names -/

/-- A name that is not empty, trimmed and in lowercase. -/
structure Folded (name : RawText) : Prop where
  ne_nil : name ≠ []
  trimmed : name.trim = name
  lower : name.lower = name

theorem folded_foldName {name : RawText} (h : ¬ name.Blank) : Folded (foldName name) where
  ne_nil := fun hnil => h (foldName_eq_nil_iff.1 hnil)
  trimmed := RawText.trim_lower_trim name
  lower := RawText.lower_lower name.trim

theorem Folded.foldName_eq {name : RawText} (h : Folded name) : foldName name = name := by
  rw [foldName, h.trimmed, h.lower]

theorem mem_foldNames {ts : List RawText} {x : RawText} :
    x ∈ foldNames ts ↔ ∃ name ∈ ts, ¬ name.Blank ∧ foldName name = x := by
  simp only [foldNames, List.mem_map, List.mem_filter, Bool.not_eq_true', ← Bool.not_eq_true,
    List.isEmpty_iff, RawText.trim_eq_nil_iff, and_assoc]

theorem folded_of_mem_foldNames {ts : List RawText} {x : RawText} (h : x ∈ foldNames ts) : Folded x := by
  obtain ⟨name, -, hblank, rfl⟩ := mem_foldNames.1 h
  exact folded_foldName hblank

theorem map_foldName_eq_self {ts : List RawText} (h : ∀ name ∈ ts, Folded name) :
    ts.map foldName = ts := by
  have hmap : ts.map foldName = ts.map id :=
    List.map_congr_left fun name hname => (h name hname).foldName_eq
  rw [hmap, List.map_id]

theorem foldNames_eq_self {ts : List RawText} (h : ∀ name ∈ ts, Folded name) : foldNames ts = ts := by
  have hfilter : (ts.filter fun t => !t.trim.isEmpty) = ts := by
    rw [List.filter_eq_self]
    intro name hname
    simp [(h name hname).trimmed, (h name hname).ne_nil]
  rw [foldNames, hfilter, map_foldName_eq_self h]

/-! ### The normal form -/

/-- Settings as a document brings them. -/
structure Normal (s : Settings) : Prop where
  minLength : 20 ≤ s.tokenMinLength
  replacement : s.replacement ≠ []
  names : ∀ name ∈ s.extraNames, Folded name

theorem le_of_limitOf {v : Value} {limit : Int} (h : limitOf leastTokenLength v = .ok limit) :
    leastTokenLength ≤ limit := by
  rw [limitOf] at h
  split at h
  · obtain rfl := Except.ok.inj h
    exact Int.le_max_left ..
  · cases h
  · obtain rfl := Except.ok.inj h
    exact Int.le_refl _

theorem settingsWith_normal (doc : Entries) (names : List RawText) {limit : Int}
    (h : leastTokenLength ≤ limit) (allowed : List RawText) :
    (settingsWith doc (foldNames names) limit allowed).Normal where
  minLength := h
  replacement := by
    have hplaceholder : placeholder ≠ [] := by decide
    simp only [settingsWith]
    split
    · split
      · exact hplaceholder
      · rename_i hempty
        rwa [List.isEmpty_iff] at hempty
    · exact hplaceholder
  names := fun _ hname => folded_of_mem_foldNames hname

theorem normal_of_read {levels : Nat} {doc : Entries} {s : Settings} (h : read levels doc = .ok s) :
    s.Normal := by
  obtain ⟨names, -, limit, hlimit, allowed, -, rfl⟩ := read_eq_ok_iff.1 h
  exact settingsWith_normal doc names (le_of_limitOf hlimit) allowed

/-- The settings with the names folded and without blank ones, the placeholder for an empty replacement,
and a limit that is not too low. -/
def normalize (s : Settings) : Settings :=
  { s with
    extraNames := foldNames s.extraNames
    replacement := if s.replacement.isEmpty then placeholder else s.replacement
    tokenMinLength := max leastTokenLength s.tokenMinLength }

theorem Normal.normalize_eq {s : Settings} (h : s.Normal) : s.normalize = s := by
  have hnames : foldNames s.extraNames = s.extraNames := foldNames_eq_self h.names
  have hreplacement : s.replacement.isEmpty = false := by
    simpa using h.replacement
  have hlimit : max leastTokenLength s.tokenMinLength = s.tokenMinLength := Int.max_eq_right h.minLength
  simp only [normalize, hnames, hreplacement, hlimit, Bool.false_eq_true, if_false]

/-! ### Settings as a document -/

theorem members_namesValue_toEntries (s : Settings) :
    membersOf (namesValue s.toEntries) = s.extraNames.map .text := by
  have hextra : Value.getD s.toEntries "extra_sensitive_names" = .list (s.extraNames.map .text) := rfl
  have hother : Value.getD s.toEntries "sensitive_names" = .null := rfl
  rw [namesValue, hextra, hother]
  cases s.extraNames <;> rfl

theorem allowedIn_toEntries (s : Settings) : allowedIn s.toEntries = s.allowlist.members.map .text := rfl

theorem limitValue_toEntries (s : Settings) : limitValue s.toEntries = .int s.tokenMinLength := rfl

theorem settingsWith_toEntries (s : Settings) :
    settingsWith s.toEntries (foldNames s.extraNames) (max leastTokenLength s.tokenMinLength)
      s.allowlist.members = s.normalize := by
  have hset : TextSet.ofList s.allowlist.members = s.allowlist := s.allowlist.ofList_members
  have htokens : (tokenSettings s.toEntries).1 = s.tokensEnabled := rfl
  simp only [settingsWith, hset, htokens]
  rfl

/-- What settings are written as is read as their normal form. -/
theorem read_toEntries (levels : Nat) (s : Settings) : read levels s.toEntries = .ok s.normalize := by
  refine read_eq_ok_iff.2 ⟨s.extraNames, ?_, max leastTokenLength s.tokenMinLength, ?_,
    s.allowlist.members, ?_, settingsWith_toEntries s⟩
  · rw [members_namesValue_toEntries, written_texts]
  · rw [limitValue_toEntries]
    rfl
  · rw [allowedIn_toEntries, written_texts]

theorem read_toEntries_of_normal {s : Settings} (h : s.Normal) (levels : Nat) :
    read levels s.toEntries = .ok s := by
  rw [read_toEntries, h.normalize_eq]

/-- The settings that a document brings are in normal form and are read back as they were written, and so are
exactly the settings in normal form. -/
theorem read_toEntries_eq_self (levels : Nat) (s : Settings) :
    (∀ doc, read levels doc = .ok s → s.Normal ∧ read levels s.toEntries = .ok s) ∧
      (s.Normal ↔ read levels s.toEntries = .ok s) := by
  constructor
  · intro doc h
    have hnormal := normal_of_read h
    exact ⟨hnormal, read_toEntries_of_normal hnormal levels⟩
  · exact ⟨fun h => read_toEntries_of_normal h levels, normal_of_read⟩

/-- A document with a text for the names and a table for the tokens, neither of which settings are
written with. -/
def spelledDocument : Entries :=
  [(.text "sensitive_names", .text " İD ,, ΟΔΟΣ"),
    (.text "opaque_tokens", .table [(.text "enabled", .int 0), (.text "min_length", .text " ٣_٠")]),
    (.text "allowlist_strings", .tuple [.text "b", .bool true, .text "a", .text "b"])]

def spelledSettings : Settings where
  extraNames := ["i\u0307d", "οδος"]
  tokensEnabled := false
  tokenMinLength := 30
  allowlist := .ofList ["True", "a", "b"]

deriving instance DecidableEq for TextSet, Settings

theorem read_toEntries_eq_self_spelled :
    read 1 spelledDocument = .ok spelledSettings ∧
      spelledSettings.Normal ∧ read 1 spelledSettings.toEntries = .ok spelledSettings := by
  have h : read 1 spelledDocument = .ok spelledSettings := by decide +kernel
  exact ⟨h, (read_toEntries_eq_self 1 spelledSettings).1 spelledDocument h⟩

end Settings

end Redact
