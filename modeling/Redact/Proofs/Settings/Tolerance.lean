import Redact.Proofs.Settings.Normal
import Redact.Settings.Load

/-! # Documents that cannot be read

A value that is of no use leaves its setting at the default, but two things stop the reading: a length limit
that is infinite, and a member of the list of names or of allowed strings that has no written form, as a
number in it has too many digits or its values are nested too deep. No other document stops it, and no file
stops the loading of settings but by such a document (`read_keeps_defaults_iff`). -/

namespace Redact.Settings

/-! ### What stops the reading -/

/-- The document has an infinite length limit, or a member without a written form among its names or its
allowed strings. -/
def Stops (levels : Nat) (doc : Entries) : Prop :=
  (∃ negative, limitValue doc = .float (.infinity negative)) ∨
    (∃ v ∈ membersOf (namesValue doc), v.Formless levels) ∨ ∃ v ∈ allowedIn doc, v.Formless levels

theorem usable_ne_infinite (n : Option Int) : Value.usable n ≠ .error .infinite := by
  cases n <;> simp [Value.usable]

theorem toWhole_eq_infinite_iff {v : Value} :
    v.toWhole = .error .infinite ↔ ∃ negative, v = .float (.infinity negative) := by
  constructor
  · intro h
    unfold Value.toWhole at h
    split at h
    · cases h
    · cases h
    · exact ⟨_, rfl⟩
    · exact absurd h (usable_ne_infinite _)
    · exact absurd h (usable_ne_infinite _)
    · split at h
      · exact absurd h (usable_ne_infinite _)
      · cases h
    · cases h
  · rintro ⟨negative, rfl⟩
    rfl

theorem exists_limitOf_iff {default : Int} {v : Value} :
    (∃ n, limitOf default v = .ok n) ↔ ¬ ∃ negative, v = .float (.infinity negative) := by
  rw [← toWhole_eq_infinite_iff, limitOf]
  cases v.toWhole with
  | ok n => simp
  | error cause => cases cause <;> simp

theorem exists_read_iff_not_stops {levels : Nat} {doc : Entries} :
    (∃ s, read levels doc = .ok s) ↔ ¬ Stops levels doc := by
  rw [Stops, not_or, not_or, ← @exists_limitOf_iff leastTokenLength, ← exists_written_iff,
    ← exists_written_iff]
  constructor
  · rintro ⟨s, h⟩
    obtain ⟨names, hn, limit, hl, allowed, ha, -⟩ := read_eq_ok_iff.1 h
    exact ⟨⟨limit, hl⟩, ⟨names, hn⟩, ⟨allowed, ha⟩⟩
  · rintro ⟨⟨limit, hl⟩, ⟨names, hn⟩, ⟨allowed, ha⟩⟩
    exact ⟨_, read_eq_ok_iff.2 ⟨names, hn, limit, hl, allowed, ha, rfl⟩⟩

theorem exists_read_error_iff_stops {levels : Nat} {doc : Entries} :
    (∃ e, read levels doc = .error e) ↔ Stops levels doc := by
  rw [← not_iff_not, ← exists_read_iff_not_stops]
  cases read levels doc <;> simp

/-! ### Values of no use -/

/-- Each setting for which the document has no value of use is at its default. -/
structure KeepsDefaults (doc : Entries) (s : Settings) : Prop where
  enabled : Value.get? doc "enabled" = none → s.enabled = true
  names : (∀ text, namesValue doc ≠ .text text) → (namesValue doc).items? = none → s.extraNames = []
  replacement : (∀ text, Value.getD doc "replacement" = .text text → text = []) →
    s.replacement = "\"<REDACTED>\""
  tokens : Value.getD doc "opaque_tokens" = .null → Value.getD doc "opaque_tokens_enabled" = .null →
    s.tokensEnabled = true
  tokenTable : ∀ entries, Value.getD doc "opaque_tokens" = .table entries →
    Value.get? entries "enabled" = none → s.tokensEnabled = true
  minLength : (∀ n, (limitValue doc).toWhole ≠ .ok n) → s.tokenMinLength = 20
  allowlist : (Value.getD doc "allowlist_strings").items? = none → s.allowlist = .empty

theorem limitOf_of_unusable {default limit : Int} {v : Value} (h : limitOf default v = .ok limit)
    (hv : ∀ n, v.toWhole ≠ .ok n) : limit = default := by
  rw [limitOf] at h
  cases hw : v.toWhole with
  | ok n => exact absurd hw (hv n)
  | error cause =>
    rw [hw] at h
    cases cause with
    | infinite => cases h
    | unusable => exact (Except.ok.inj h).symm

theorem keepsDefaults_of_read {levels : Nat} {doc : Entries} {s : Settings}
    (h : read levels doc = .ok s) : KeepsDefaults doc s := by
  obtain ⟨names, hnames, limit, hlimit, allowed, hallowed, rfl⟩ := read_eq_ok_iff.1 h
  refine ⟨?_, ?_, ?_, ?_, ?_, ?_, ?_⟩
  · intro hnone
    simp only [settingsWith, hnone]
  · intro htext hitems
    have hmembers : membersOf (namesValue doc) = [] := by
      unfold membersOf
      split
      · rename_i text hvalue
        exact absurd hvalue (htext text)
      · rw [hitems, Option.getD_none]
    rw [hmembers] at hnames
    obtain rfl := Except.ok.inj hnames
    rfl
  · intro htext
    simp only [settingsWith]
    split
    · rename_i text hvalue
      rw [htext text hvalue]
      rfl
    · rfl
  · intro htable hflag
    simp only [settingsWith, tokenSettings, htable, hflag]
  · intro entries htable hflag
    simp only [settingsWith, tokenSettings, htable, hflag]
    rfl
  · exact limitOf_of_unusable hlimit
  · intro hitems
    rw [allowedIn, hitems] at hallowed
    obtain rfl := Except.ok.inj hallowed
    rfl

/-! ### Settings files -/

/-- The file that was named, or else the settings file of the current folder, is well-formed and holds the
document. -/
inductive Provides (l : Loader) (t : FileTree) (file : Option Path) (doc : Value) : Prop where
  | intro {p : Path} {bytes : List UInt8} {f : Format}
      (chosen : file.or ((findFile? t).map fun name => ⟨"", [name]⟩) = some p)
      (found : t.find p = .ok (.file bytes)) (format : Format.ofSuffix? p.suffix = some f)
      (parsed : l.parse? f bytes = some doc)

variable {l : Loader}

theorem loadContent_eq_error_iff {f : Format} {c : Content} {e : ReadError} :
    (loadContent l f c).1 = .error (.content e) ↔
      ∃ bytes doc, c = .file bytes ∧ l.parse? f bytes = some doc ∧
        read l.levels (sectionOf doc) = .error e := by
  cases c with
  | folder => simp [loadContent]
  | file bytes =>
    cases hdoc : l.parse? f bytes with
    | none => simp [loadContent, hdoc]
    | some doc =>
      cases hread : read l.levels (sectionOf doc) <;> simp [loadContent, hdoc, hread, Except.mapError]

theorem load_eq_error_iff {t : FileTree} {file : Option Path} {e : ReadError} :
    (load l t file).1 = .error (.content e) ↔
      ∃ doc, Provides l t file doc ∧ read l.levels (sectionOf doc) = .error e := by
  constructor
  · intro h
    unfold load at h
    split at h
    · cases h
    · rename_i p hp
      unfold loadFile at h
      split at h
      · cases h
      · cases h
      · rename_i c hfind
        split at h
        · cases h
        · rename_i f hf
          obtain ⟨bytes, doc, rfl, hparse, hread⟩ := loadContent_eq_error_iff.1 h
          exact ⟨doc, .intro hp hfind hf hparse, hread⟩
  · rintro ⟨doc, ⟨hp, hfind, hf, hparse⟩, hread⟩
    simp only [load, hp, loadFile, hfind, hf]
    exact loadContent_eq_error_iff.2 ⟨_, doc, rfl, hparse, hread⟩

/-- A document is read, with the default for each setting that it has no value of use for, exactly if it has
no infinite limit and no member without a written form among its names and its allowed strings. The loading
of settings is stopped by what is in a file exactly if that is a document that cannot be read. -/
theorem read_keeps_defaults_iff (levels : Nat) (doc : Entries) (l : Loader) (t : FileTree)
    (file : Option Path) :
    ((∃ s, read levels doc = .ok s ∧ KeepsDefaults doc s) ↔ ¬ Stops levels doc) ∧
      ((∃ e, (load l t file).1 = .error (.content e)) ↔
        ∃ found, Provides l t file found ∧ Stops l.levels (sectionOf found)) := by
  constructor
  · rw [← exists_read_iff_not_stops]
    constructor
    · rintro ⟨s, h, -⟩
      exact ⟨s, h⟩
    · rintro ⟨s, h⟩
      exact ⟨s, h, keepsDefaults_of_read h⟩
  · constructor
    · rintro ⟨e, h⟩
      obtain ⟨found, hfound, hread⟩ := load_eq_error_iff.1 h
      exact ⟨found, hfound, exists_read_error_iff_stops.1 ⟨e, hread⟩⟩
    · rintro ⟨found, hfound, hstops⟩
      obtain ⟨e, hread⟩ := exists_read_error_iff_stops.2 hstops
      exact ⟨e, load_eq_error_iff.2 ⟨found, hfound, hread⟩⟩

/-- A folder whose settings file asks for tokens of endless length. -/
def endlessTree : FileTree where
  files := [(["asp.toml"], Text.Utf8.encode "opaque_min_length = inf\n".toList)]

/-- An infinite limit is a bad value that is not ignored, in a document and in a file. -/
theorem not_read_endless :
    read 950 [(.text "opaque_min_length", .float (.infinity false))] = .error .infiniteLength ∧
      (load .standard endlessTree none).1 = .error (.content .infiniteLength) ∧
      ¬ ∀ doc, ∃ s, read 950 doc = .ok s := by
  have hread : read 950 [(.text "opaque_min_length", .float (.infinity false))] =
      .error .infiniteLength := by decide +kernel
  refine ⟨hread, by decide +kernel, ?_⟩
  intro hall
  obtain ⟨s, hs⟩ := hall [(.text "opaque_min_length", .float (.infinity false))]
  rw [hread] at hs
  cases hs

end Redact.Settings
