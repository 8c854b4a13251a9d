import Redact.Proofs.Value.Show
import Redact.Settings.Read

/-! # The stages of reading settings

Three things in a document can stop the reading: the list of names, the length limit and the list of allowed
strings. Lists stop it by a member without a written form, the limit by being infinite. Everything else
has a value whatever the document holds (`read_eq`). -/

namespace Redact.Settings

variable {levels : Nat}

/-! ### Lists -/

/-- The written forms of the members of a list. -/
def written (levels : Nat) (vs : List Value) : Except ReadError (List RawText) :=
  vs.mapM (memberOf levels)

theorem exists_memberOf_iff {v : Value} :
    (∃ t, memberOf levels v = .ok t) ↔ ¬ v.Formless levels := by
  rw [← Value.exists_written_iff, memberOf]
  cases v.written levels <;> simp [Except.mapError]

theorem exists_written_iff {vs : List Value} :
    (∃ ts, written levels vs = .ok ts) ↔ ¬ ∃ v ∈ vs, v.Formless levels := by
  induction vs with
  | nil => simp [written, pure, Except.pure]
  | cons v rest ih =>
    rw [List.exists_mem_cons_iff, not_or, ← exists_memberOf_iff, ← ih, written, written, List.mapM_cons]
    cases memberOf levels v <;> cases rest.mapM (memberOf levels) <;>
      simp [bind, Except.bind, pure, Except.pure]

theorem written_texts (levels : Nat) (ts : List RawText) : written levels (ts.map .text) = .ok ts := by
  have hmember : ∀ t : RawText, memberOf levels (.text t) = .ok t := fun _ => rfl
  induction ts with
  | nil => rfl
  | cons t rest ih =>
    rw [written] at ih
    rw [List.map_cons, written, List.mapM_cons, hmember, ih]
    rfl

/-- A reading of single values that only asks for their written form. -/
theorem mapM_eq_map_written {α : Type} {f : Value → Except ReadError α} {g : RawText → α}
    (hf : ∀ v, f v = (memberOf levels v).map g) (vs : List Value) :
    vs.mapM f = (written levels vs).map (List.map g) := by
  induction vs with
  | nil => rfl
  | cons v rest ih =>
    rw [written] at ih
    rw [List.mapM_cons, ih, hf, written, List.mapM_cons]
    cases memberOf levels v with
    | error e => rfl
    | ok t =>
      cases rest.mapM (memberOf levels) with
      | error e => rfl
      | ok ts => rfl

/-- The folded forms of the names that are not blank. -/
def foldNames (ts : List RawText) : List RawText :=
  (ts.filter fun t => !t.trim.isEmpty).map foldName

/-- The members of a list of names: the items of a collection, or the parts of a text. -/
def membersOf : Value → List Value
  | .text s => s.commaParts.map .text
  | v => v.items?.getD []

theorem namesOf_eq (levels : Nat) (v : Value) :
    namesOf levels v = (written levels (membersOf v)).map foldNames := by
  have hmap := mapM_eq_map_written (f := nameOf levels)
    (g := fun t => if t.trim.isEmpty then none else some (foldName t)) (fun _ => rfl) (membersOf v)
  have hfold : ∀ ts : List RawText,
      (ts.map fun t => if t.trim.isEmpty then none else some (foldName t)).filterMap id =
        foldNames ts := by
    intro ts
    induction ts with
    | nil => rfl
    | cons t rest ih => by_cases ht : t.trim.isEmpty <;> simp_all [foldNames]
  have hnames : namesOf levels v = ((membersOf v).mapM (nameOf levels)).map (·.filterMap id) := by
    cases v <;> rfl
  rw [hnames, hmap]
  cases written levels (membersOf v) with
  | error e => rfl
  | ok ts => exact congrArg Except.ok (hfold ts)

/-! ### The stages -/

/-- The value under the key of the list of names that counts. -/
def namesValue (doc : Entries) : Value :=
  if (Value.getD doc "extra_sensitive_names").truthy then Value.getD doc "extra_sensitive_names"
  else Value.getD doc "sensitive_names"

def allowedIn (doc : Entries) : List Value :=
  (Value.getD doc "allowlist_strings").items?.getD []

def limitValue (doc : Entries) : Value := (tokenSettings doc).2

/-- The settings of a document with the names, the limit and the allowed strings that were read from
it. -/
def settingsWith (doc : Entries) (names : List RawText) (limit : Int) (allowed : List RawText) :
    Settings where
  enabled := match Value.get? doc "enabled" with
    | some v => v.truthy
    | none => true
  extraNames := names
  replacement := match Value.getD doc "replacement" with
    | .text s => if s.isEmpty then placeholder else s
    | _ => placeholder
  tokensEnabled := (tokenSettings doc).1
  tokenMinLength := limit
  allowlist := .ofList allowed

theorem read_eq (levels : Nat) (doc : Entries) :
    read levels doc = do
      let names ← written levels (membersOf (namesValue doc))
      let limit ← limitOf leastTokenLength (limitValue doc)
      let allowed ← written levels (allowedIn doc)
      return settingsWith doc (foldNames names) limit allowed := by
  have hread : read levels doc = do
      let names ← namesOf levels (namesValue doc)
      let limit ← limitOf leastTokenLength (limitValue doc)
      let allowed ← written levels (allowedIn doc)
      return settingsWith doc names limit allowed := by
    unfold read settingsWith limitValue written
    generalize tokenSettings doc = tokens
    obtain ⟨flag, limit⟩ := tokens
    -- no value for the limit counts as one that is of no use
    cases limit <;> rfl
  rw [hread, namesOf_eq]
  cases written levels (membersOf (namesValue doc)) <;> rfl

theorem bind_eq_ok_iff {α β : Type} {x : Except ReadError α} {f : α → Except ReadError β} {b : β} :
    x >>= f = .ok b ↔ ∃ a, x = .ok a ∧ f a = .ok b := by
  cases x <;> simp [bind, Except.bind]

theorem read_eq_ok_iff {doc : Entries} {s : Settings} :
    read levels doc = .ok s ↔ ∃ names, written levels (membersOf (namesValue doc)) = .ok names ∧
      ∃ limit, limitOf leastTokenLength (limitValue doc) = .ok limit ∧
        ∃ allowed, written levels (allowedIn doc) = .ok allowed ∧
          settingsWith doc (foldNames names) limit allowed = s := by
  simp only [read_eq, bind_eq_ok_iff, pure, Except.pure, Except.ok.injEq]

end Redact.Settings
