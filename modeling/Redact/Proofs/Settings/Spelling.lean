import Redact.Proofs.Settings.Normal
import Redact.Settings.Section

/-! # Spellings of a document

Settings may stand at four places of a document, and what else the document holds makes no difference
(`sectionOf_of_holds`). The settings of tokens stand under two keys or in a table, and both are read as
the same flag and the same limit as long as the flag is given. So all these documents are read alike,
or none is read and for the same reason (`read_of_any_spelling`). -/

namespace Redact.Settings

/-! ### Places of the settings -/

/-- Nothing is under the key, or something that is no table. -/
def NoTable (entries : Entries) (key : String) : Prop :=
  ∀ inner, Value.get? entries key ≠ some (.table inner)

/-- The document holds the settings `s`: it is nothing else, or they are in one of its two sections, or in
the inner one of both. -/
inductive Holds (s : Entries) : Entries → Prop where
  | top : Holds s s
  | asp {doc : Entries} (inside : Value.get? doc "asp" = some (.table s)) : Holds s doc
  | sanitizer {doc : Entries} (outside : NoTable doc "asp")
      (inside : Value.get? doc "sanitizer" = some (.table s)) : Holds s doc
  | both {doc outer : Entries} (around : Value.get? doc "asp" = some (.table outer))
      (inside : Value.get? outer "sanitizer" = some (.table s)) : Holds s doc

theorem descend_of_table {entries inner : Entries} {key : String}
    (h : Value.get? entries key = some (.table inner)) : descend key entries = inner := by
  simp only [descend, h]

theorem descend_of_noTable {entries : Entries} {key : String} (h : NoTable entries key) :
    descend key entries = entries := by
  unfold descend
  split
  · rename_i inner hinner
    exact absurd hinner (h inner)
  · rfl

theorem sectionOf_of_holds {s doc : Entries} (hasp : NoTable s "asp")
    (hsanitizer : NoTable s "sanitizer") (h : Holds s doc) : sectionOf (.table doc) = s := by
  rw [sectionOf]
  cases h with
  | top => rw [descend_of_noTable hasp, descend_of_noTable hsanitizer]
  | asp hinside => rw [descend_of_table hinside, descend_of_noTable hsanitizer]
  | sanitizer houtside hinside => rw [descend_of_noTable houtside, descend_of_table hinside]
  | both haround hinside => rw [descend_of_table haround, descend_of_table hinside]

/-! ### Settings of tokens -/

/-- The keys of the settings of tokens. -/
def tokenKeys : List String := ["opaque_tokens", "opaque_tokens_enabled", "opaque_min_length"]

/-- From the other keys of a document the reading takes no more than the values under them. -/
theorem read_congr (levels : Nat) {s t : Entries} (htokens : tokenSettings t = tokenSettings s)
    (h : ∀ key, key ∉ tokenKeys → Value.get? t key = Value.get? s key) : read levels t = read levels s := by
  have hvalue : ∀ key, key ∉ tokenKeys → Value.getD t key = Value.getD s key := by
    intro key hkey
    rw [Value.getD, h key hkey, Value.getD]
  have hnames : namesValue t = namesValue s := by
    rw [namesValue, hvalue "extra_sensitive_names" (by decide), hvalue "sensitive_names" (by decide),
      namesValue]
  have hlimit : limitValue t = limitValue s := by
    rw [limitValue, htokens, limitValue]
  have hallowed : allowedIn t = allowedIn s := by
    rw [allowedIn, hvalue "allowlist_strings" (by decide), allowedIn]
  have hrest : settingsWith t = settingsWith s := by
    funext names limit allowed
    simp only [settingsWith, htokens, h "enabled" (by decide), hvalue "replacement" (by decide)]
  simp only [read_eq, hnames, hlimit, hallowed, hrest]

/-- `t` has a table with the flag and the limit for tokens where `s` has two keys for them, and is like `s`
otherwise. -/
structure Regrouped (flag limit : Value) (s t : Entries) : Prop where
  flag_eq : Value.get? s "opaque_tokens_enabled" = some flag
  limit_eq : Value.get? s "opaque_min_length" = some limit
  no_table : Value.get? s "opaque_tokens" = none
  table : ∃ inner, Value.get? t "opaque_tokens" = some (.table inner) ∧
    Value.get? inner "enabled" = some flag ∧ Value.get? inner "min_length" = some limit
  others : ∀ key, key ∉ tokenKeys → Value.get? t key = Value.get? s key

namespace Regrouped

variable {flag limit : Value} {s t : Entries}

theorem tokenSettings_flat (h : Regrouped flag limit s t) (hflag : flag ≠ .null) :
    tokenSettings s = (flag.truthy, limit) := by
  -- a flag that is nothing would count as true here, and as false in a table
  simp only [tokenSettings, Value.getD, h.flag_eq, h.limit_eq, h.no_table, Option.getD_none,
    Option.getD_some]

theorem tokenSettings_table (h : Regrouped flag limit s t) :
    tokenSettings t = (flag.truthy, limit) := by
  obtain ⟨inner, htable, hflag, hlimit⟩ := h.table
  simp only [tokenSettings, Value.getD, htable, hflag, hlimit, Option.getD_some]

theorem read_eq (h : Regrouped flag limit s t) (hflag : flag ≠ .null) (levels : Nat) :
    read levels t = read levels s :=
  read_congr levels (h.tokenSettings_table.trans (h.tokenSettings_flat hflag).symm) h.others

theorem tokens_of_read (h : Regrouped flag limit s t) (hflag : flag ≠ .null)
    {levels : Nat} {r : Settings}
    (hr : read levels s = .ok r) :
    r.tokensEnabled = flag.truthy ∧ limitOf leastTokenLength limit = .ok r.tokenMinLength := by
  have htokens := h.tokenSettings_flat hflag
  obtain ⟨names, -, n, hn, allowed, -, rfl⟩ := read_eq_ok_iff.1 hr
  rw [limitValue, htokens] at hn
  exact ⟨by rw [settingsWith, htokens], hn⟩

theorem noTable (h : Regrouped flag limit s t) {key : String} (hkey : key ∉ tokenKeys)
    (hs : NoTable s key) : NoTable t key := by
  intro inner
  rw [h.others key hkey]
  exact hs inner

end Regrouped

/-- Settings without sections of their own are read alike wherever they stand in a document. With a table for
the settings of tokens in the place of two keys they are too, and either brings the flag and the limit that
were given. -/
theorem read_of_any_spelling (levels : Nat) {s : Entries} (hasp : NoTable s "asp")
    (hsanitizer : NoTable s "sanitizer") :
    (∀ doc, Holds s doc → read levels (sectionOf (.table doc)) = read levels s) ∧
      ∀ flag limit t, flag ≠ .null → Regrouped flag limit s t →
        (∀ doc, Holds t doc → read levels (sectionOf (.table doc)) = read levels s) ∧
          ∀ r, read levels s = .ok r → r.tokensEnabled = flag.truthy ∧
            limitOf leastTokenLength limit = .ok r.tokenMinLength := by
  constructor
  · intro doc h
    rw [sectionOf_of_holds hasp hsanitizer h]
  · intro flag limit t hflag hregrouped
    have hasp' := hregrouped.noTable (by decide) hasp
    have hsanitizer' := hregrouped.noTable (by decide) hsanitizer
    refine ⟨fun doc h => ?_, fun r hr => hregrouped.tokens_of_read hflag hr⟩
    rw [sectionOf_of_holds hasp' hsanitizer' h, hregrouped.read_eq hflag]

/-- A text under the name of a section, and the settings of tokens under their two keys. -/
def flatDocument : Entries :=
  [(.text "asp", .text "x"), (.text "opaque_tokens_enabled", .int 0),
    (.text "sensitive_names", .text "Pin,"), (.text "opaque_min_length", .text " 30")]

def groupedDocument : Entries :=
  [(.text "sensitive_names", .text "Pin,"), (.text "asp", .text "x"),
    (.text "opaque_tokens", .table [(.text "min_length", .text " 30"), (.text "enabled", .int 0)])]

/-- The grouped document in the inner section, with other settings at all places that do not count. -/
def nestedDocument : Entries :=
  [(.text "enabled", .bool false), (.text "sanitizer", .table [(.text "sensitive_names", .text "key")]),
    (.text "asp", .table [(.text "replacement", .text "x"), (.text "sanitizer", .table groupedDocument)])]

theorem read_of_any_spelling_nested :
    NoTable flatDocument "asp" ∧ NoTable flatDocument "sanitizer" ∧ Value.int 0 ≠ .null ∧
      Regrouped (.int 0) (.text " 30") flatDocument groupedDocument ∧
      Holds groupedDocument nestedDocument ∧
      read 0 (sectionOf (.table nestedDocument)) = read 0 flatDocument ∧
      read 0 flatDocument = .ok { extraNames := ["pin"], tokensEnabled := false, tokenMinLength := 30 } := by
  have hasp : NoTable flatDocument "asp" := by
    intro inner h
    cases h
  have hsanitizer : NoTable flatDocument "sanitizer" := by
    intro inner h
    cases h
  have hflag : Value.int 0 ≠ .null := Value.noConfusion
  have hregrouped : Regrouped (.int 0) (.text " 30") flatDocument groupedDocument := by
    refine ⟨rfl, rfl, rfl, ⟨_, rfl, rfl, rfl⟩, ?_⟩
    intro key hkey
    simp only [tokenKeys, List.mem_cons, List.not_mem_nil, or_false, not_or] at hkey
    obtain ⟨htable, hflag, hlimit⟩ := hkey
    rw [groupedDocument, flatDocument]
    simp only [Value.get?_text_cons, if_neg (Ne.symm htable), if_neg (Ne.symm hflag),
      if_neg (Ne.symm hlimit)]
    by_cases hnames : "sensitive_names" = key
    · subst hnames
      rfl
    · rw [if_neg hnames, if_neg hnames]
  have hholds : Holds groupedDocument nestedDocument := .both rfl rfl
  exact ⟨hasp, hsanitizer, hflag, hregrouped, hholds,
    ((read_of_any_spelling 0 hasp hsanitizer).2 _ _ _ hflag hregrouped).1 _ hholds, by decide +kernel⟩

end Redact.Settings
