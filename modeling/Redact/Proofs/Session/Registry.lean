import Mathlib.Data.List.Forall2
import Mathlib.Data.List.Induction
import Mathlib.Logic.Relation
import Redact.Session.Registry

/-! # Runs of a registry

Grammars are asked for, looked for and dropped, in any order and by any spelling of their languages.
Asking for a key can do three things (`resolveKey_cases`): bring what is kept, bring nothing for want
of a source, or load once. What is kept for a key is therefore what a load since the last drop brought
(`kept_run_iff`), and from this follows all that the registry does next (`run_serves`). -/

namespace Redact

namespace FaultKind

/-- A kind is of another if it is that one or comes somewhere below it. -/
def IsA : FaultKind → FaultKind → Prop := Relation.ReflTransGen fun k above => k.parent? = some above

def Tolerable (k : FaultKind) : Prop := ∃ t ∈ tolerated, k.IsA t

theorem parent?_of_parent? {k above : FaultKind} (h : k.parent? = some above) :
    above.parent? = none := by
  cases k <;> simp [parent?] at h <;> subst h <;> rfl

theorem isTolerated_iff {k : FaultKind} : k.isTolerated = true ↔ k.Tolerable := by
  rw [isTolerated, Bool.or_eq_true, List.contains_iff_mem]
  constructor
  · rintro (hmem | hparent)
    · exact ⟨k, hmem, .refl⟩
    · obtain ⟨above, habove, hmem⟩ := (Option.any_eq_true _ _).mp hparent
      exact ⟨above, List.contains_iff_mem.mp hmem, .single habove⟩
  · rintro ⟨t, hmem, hisA⟩
    rcases hisA.cases_head with rfl | ⟨above, habove, hrest⟩
    · exact Or.inl hmem
    -- Nothing stands above a parent, so the chain ends there.
    · rcases hrest.cases_head with rfl | ⟨higher, hhigher, -⟩
      · rw [habove]
        exact Or.inr (List.contains_iff_mem.mpr hmem)
      · simp [parent?_of_parent? habove] at hhigher

end FaultKind

theorem lookup_putEntry {α : Type} (key k : String) (value : α) (entries : List (String × α)) :
    (putEntry key value entries).lookup k = if k = key then some value else entries.lookup k := by
  induction entries with
  | nil =>
    by_cases hk : k = key
    · simp [putEntry, hk]
    · simp [putEntry, List.lookup_cons, beq_eq_false_iff_ne.mpr hk, hk]
  | cons entry rest ih =>
    obtain ⟨name, old⟩ := entry
    rw [putEntry]
    by_cases hname : name = key
    · subst hname
      by_cases hk : k = name
      · simp [hk]
      · simp [List.lookup_cons, beq_eq_false_iff_ne.mpr hk, hk]
    · rw [if_neg (by simpa using hname), List.lookup_cons, List.lookup_cons, ih]
      by_cases hk : k = name
      · have hne : k ≠ key := fun h => hname (hk.symm.trans h)
        simp [hk, hname]
      · simp [beq_eq_false_iff_ne.mpr hk]

namespace Registry

variable {G : Type}

inductive Step where
  | resolve (language : String)
  | isLoaded (language : String)
  | clear
  deriving DecidableEq, Repr

/-- What a step brings. -/
inductive Answer (G : Type) where
  | grammar (outcome : Outcome G) (warnings : List String)
  | loaded (yes : Bool)
  | done

def perform (r : Registry G) : Step → Answer G × Registry G
  | .resolve language =>
    let (outcome, r, warnings) := r.resolve language
    (.grammar outcome warnings, r)
  | .isLoaded language => (.loaded (r.isLoaded language), r)
  | .clear => (.done, r.clear)

def after (r : Registry G) (step : Step) : Registry G := (r.perform step).2

def run (r : Registry G) (steps : List Step) : Registry G := steps.foldl after r

def answers (r : Registry G) : List Step → List (Answer G)
  | [] => []
  | step :: rest => (r.perform step).1 :: (r.after step).answers rest

/-- The steps are the same but for the spelling of a language. -/
def Step.Alike : Step → Step → Prop
  | .resolve l, .resolve l' | .isLoaded l, .isLoaded l' => Language.fold l = Language.fold l'
  | .clear, .clear => True
  | _, _ => False

/-- A load is never without a grammar unless it fails. -/
def NeverNull (r : Registry G) : Prop :=
  ∀ key source, r.sources.lookup key = some source → ∀ count, source.load count ≠ .ok none

/-- Of the loads of a key that came between two states of a registry, one had this outcome. -/
def Brought (r r' : Registry G) (key : String) (outcome : Outcome G) : Prop :=
  ∃ source count, r.sources.lookup key = some source ∧
    r.loadCount key < count ∧ count ≤ r'.loadCount key ∧ source.load count = outcome

def LoadedSinceClear (r : Registry G) (steps : List Step) (key : String) (g : G) : Prop :=
  ∃ before rest, steps = before ++ rest ∧ .clear ∉ rest ∧
    (r.run before).Brought (r.run steps) key (.ok (some g))

def Kept (r : Registry G) (key : String) (g : G) : Prop := r.cache.lookup key = some (some g)

/-- What a registry does where exactly these grammars are loaded. -/
structure Serves (r : Registry G) (loaded : String → G → Prop) : Prop where
  isLoaded_iff : ∀ language, r.isLoaded language = true ↔ ∃ g, loaded (Language.fold language) g
  keeps : ∀ language g, loaded (Language.fold language) g → r.resolve language = (.ok (some g), r, [])
  unknown : ∀ language, r.sources.lookup (Language.fold language) = none →
    r.resolve language = (.ok none, r, [])
  loads : ∀ language source, (∀ g, ¬ loaded (Language.fold language) g) →
    r.sources.lookup (Language.fold language) = some source →
      (r.resolve language).2.1.loadCount (Language.fold language) =
          r.loadCount (Language.fold language) + 1 ∧
        ∀ g, source.load (r.loadCount (Language.fold language) + 1) = .ok (some g) →
          (r.resolve language).1 = .ok (some g) ∧ (r.resolve language).2.2 = []
  fails : ∀ language source fault, (∀ g, ¬ loaded (Language.fold language) g) →
    r.sources.lookup (Language.fold language) = some source →
      source.load (r.loadCount (Language.fold language) + 1) = .error fault →
        (r.resolve language).2.1.cache = r.cache ∧
          (fault.kind.Tolerable → (r.resolve language).1 = .ok none ∧
            (r.resolve language).2.2 = [loadWarning (Language.fold language) fault]) ∧
          (¬ fault.kind.Tolerable → (r.resolve language).1 = .error fault ∧
            (r.resolve language).2.2 = []) ∧
          ∀ again, Language.fold again = Language.fold language →
            ((r.resolve language).2.1.resolve again).2.1.loadCount (Language.fold language) =
              r.loadCount (Language.fold language) + 2
  frame : ∀ language key, key ≠ Language.fold language →
    (r.resolve language).2.1.cache.lookup key = r.cache.lookup key ∧
      (r.resolve language).2.1.loadCount key = r.loadCount key

structure Sound (r : Registry G) : Prop where
  neverNull : r.NeverNull
  lookup_ne_null : ∀ key, r.cache.lookup key ≠ some none
  source_of_kept : ∀ key g, r.Kept key g → r.sources.lookup key ≠ none

/-! ### One load -/

theorem loadKey_ok {r : Registry G} {key : String} {source : GrammarSource G} {g? : Option G}
    (h : source.load (r.loadCount key + 1) = .ok g?) :
    r.loadKey key source =
      (.ok g?,
        { r with
          cache := putEntry key g? r.cache
          loads := putEntry key (r.loadCount key + 1) r.loads },
        []) := by
  simp only [loadKey, h]

theorem loadKey_error {r : Registry G} {key : String} {source : GrammarSource G} {fault : Fault}
    (h : source.load (r.loadCount key + 1) = .error fault) :
    r.loadKey key source =
      (if fault.kind.isTolerated then .ok none else .error fault,
        { r with loads := putEntry key (r.loadCount key + 1) r.loads },
        if fault.kind.isTolerated then [loadWarning key fault] else []) := by
  simp only [loadKey, h]
  split <;> rfl

theorem sources_loadKey (r : Registry G) (key : String) (source : GrammarSource G) :
    (r.loadKey key source).2.1.sources = r.sources := by
  cases h : source.load (r.loadCount key + 1) with
  | ok g? => rw [loadKey_ok h]
  | error fault => rw [loadKey_error h]

theorem loadCount_loadKey (r : Registry G) (key : String) (source : GrammarSource G) (k : String) :
    (r.loadKey key source).2.1.loadCount k =
      if k = key then r.loadCount key + 1 else r.loadCount k := by
  have hloads : (r.loadKey key source).2.1.loads =
      putEntry key (r.loadCount key + 1) r.loads := by
    cases h : source.load (r.loadCount key + 1) with
    | ok g? => rw [loadKey_ok h]
    | error fault => rw [loadKey_error h]
  rw [loadCount, hloads, lookup_putEntry]
  split
  · rfl
  · rfl

theorem lookup_cache_loadKey_of_ne (r : Registry G) {key k : String} (source : GrammarSource G)
    (hk : k ≠ key) : (r.loadKey key source).2.1.cache.lookup k = r.cache.lookup k := by
  cases h : source.load (r.loadCount key + 1) with
  | ok g? => rw [loadKey_ok h, lookup_putEntry, if_neg hk]
  | error fault => rw [loadKey_error h]

/-- After a load of a key, a grammar is kept for it exactly if the load brought it or it was kept. -/
theorem kept_loadKey_iff {r : Registry G} {key : String} {source : GrammarSource G} {g : G}
    (hno : ∀ g, ¬ r.Kept key g) :
    (r.loadKey key source).2.1.Kept key g ↔ source.load (r.loadCount key + 1) = .ok (some g) := by
  cases h : source.load (r.loadCount key + 1) with
  | ok g? => simp [loadKey_ok h, Kept, lookup_putEntry]
  | error fault =>
    rw [loadKey_error h]
    simpa [Kept] using hno g

theorem not_brought_self (r : Registry G) (key : String) (outcome : Outcome G) :
    ¬ r.Brought r key outcome := by
  rintro ⟨-, count, -, hlt, hle, -⟩
  exact absurd (Nat.lt_of_lt_of_le hlt hle) (Nat.lt_irrefl _)

/-- A load of a key brings its own outcome, and nothing for other keys. -/
theorem brought_loadKey_iff {r : Registry G} {k : String} {source : GrammarSource G}
    (hs : r.sources.lookup k = some source) {key : String} {outcome : Outcome G} :
    r.Brought (r.loadKey k source).2.1 key outcome ↔
      key = k ∧ source.load (r.loadCount k + 1) = outcome := by
  constructor
  · rintro ⟨source', count, hs', hlt, hle, hload⟩
    rw [loadCount_loadKey] at hle
    by_cases hk : key = k
    · subst hk
      rw [if_pos rfl] at hle
      obtain rfl : source = source' := Option.some.inj (hs.symm.trans hs')
      obtain rfl : count = r.loadCount key + 1 := by omega
      exact ⟨rfl, hload⟩
    · rw [if_neg hk] at hle
      omega
  · rintro ⟨rfl, hload⟩
    exact ⟨source, _, hs, Nat.lt_succ_self _, by simp [loadCount_loadKey], hload⟩

/-! ### One step -/

/-- All that asking for a key can do. -/
theorem resolveKey_cases (r : Registry G) (key : String) :
    (∃ g, r.Kept key g ∧ r.resolveKey key = (.ok (some g), r, [])) ∨
      (∀ g, ¬ r.Kept key g) ∧
        (r.sources.lookup key = none ∧ r.resolveKey key = (.ok none, r, []) ∨
          ∃ source, r.sources.lookup key = some source ∧
            r.resolveKey key = r.loadKey key source) := by
  rw [resolveKey]
  cases hc : r.cache.lookup key with
  | some g? =>
    cases g? with
    | some g => exact Or.inl ⟨g, hc, rfl⟩
    | none =>
      refine Or.inr ⟨by simp [Kept, hc], ?_⟩
      cases hs : r.sources.lookup key <;> simp
  | none =>
    refine Or.inr ⟨by simp [Kept, hc], ?_⟩
    cases hs : r.sources.lookup key <;> simp

theorem resolveKey_of_kept {r : Registry G} {key : String} {g : G} (h : r.Kept key g) :
    r.resolveKey key = (.ok (some g), r, []) := by
  rw [Kept] at h
  rw [resolveKey, h]

theorem resolveKey_of_source {r : Registry G} {key : String} {source : GrammarSource G}
    (hno : ∀ g, ¬ r.Kept key g) (hs : r.sources.lookup key = some source) :
    r.resolveKey key = r.loadKey key source := by
  rcases r.resolveKey_cases key with ⟨g, hg, -⟩ | ⟨-, ⟨hnone, -⟩ | ⟨source', hs', h⟩⟩
  · exact absurd hg (hno g)
  · simp [hs] at hnone
  · rw [h, Option.some.inj (hs.symm.trans hs')]

/-- A step changes nothing, drops everything, or loads a key for which nothing is kept. -/
theorem after_cases (r : Registry G) (step : Step) :
    r.after step = r ∨ (step = .clear ∧ r.after step = r.clear) ∨
      ∃ key source, (∀ g, ¬ r.Kept key g) ∧ r.sources.lookup key = some source ∧
        r.after step = (r.loadKey key source).2.1 := by
  cases step with
  | resolve language =>
    have hafter : r.after (.resolve language) = (r.resolveKey (Language.fold language)).2.1 := rfl
    rw [hafter]
    rcases r.resolveKey_cases (Language.fold language) with
      ⟨g, -, hg⟩ | ⟨hno, ⟨-, hnone⟩ | ⟨source, hs, hload⟩⟩
    · exact Or.inl (by rw [hg])
    · exact Or.inl (by rw [hnone])
    · exact Or.inr (Or.inr ⟨_, source, hno, hs, by rw [hload]⟩)
  | isLoaded language => exact Or.inl rfl
  | clear => exact Or.inr (Or.inl ⟨rfl, rfl⟩)

theorem sources_after (r : Registry G) (step : Step) : (r.after step).sources = r.sources := by
  rcases r.after_cases step with h | ⟨-, h⟩ | ⟨key, source, -, -, h⟩
  · rw [h]
  · rw [h, clear]
  · rw [h, sources_loadKey]

theorem loadCount_le_after (r : Registry G) (step : Step) (key : String) :
    r.loadCount key ≤ (r.after step).loadCount key := by
  rcases r.after_cases step with h | ⟨-, h⟩ | ⟨k, source, -, -, h⟩
  · exact Nat.le_of_eq (by rw [h])
  · exact Nat.le_of_eq (by rw [h]; rfl)
  · rw [h, loadCount_loadKey]
    split
    · rename_i hk
      rw [hk]
      omega
    · exact Nat.le_refl _

/-- Where nothing is dropped, a step leaves a grammar kept exactly if it was kept or is brought. -/
theorem kept_after_iff {r : Registry G} {step : Step} (hstep : step ≠ .clear) {key : String} {g : G} :
    (r.after step).Kept key g ↔ r.Kept key g ∨ r.Brought (r.after step) key (.ok (some g)) := by
  rcases r.after_cases step with h | ⟨hclear, -⟩ | ⟨k, source, hno, hs, h⟩
  · rw [h]
    exact (or_iff_left (r.not_brought_self key _)).symm
  · exact absurd hclear hstep
  · rw [h, brought_loadKey_iff hs]
    by_cases hk : key = k
    · subst hk
      rw [kept_loadKey_iff hno]
      simp [hno g]
    · rw [Kept, lookup_cache_loadKey_of_ne r source hk]
      simp [Kept, hk]

/-! ### Runs -/

theorem run_append (r : Registry G) (xs ys : List Step) : r.run (xs ++ ys) = (r.run xs).run ys :=
  List.foldl_append

theorem run_snoc (r : Registry G) (steps : List Step) (step : Step) :
    r.run (steps ++ [step]) = (r.run steps).after step := r.run_append steps [step]

theorem sources_run (r : Registry G) (steps : List Step) : (r.run steps).sources = r.sources := by
  induction steps generalizing r with
  | nil => rfl
  | cons step rest ih => exact (ih (r.after step)).trans (r.sources_after step)

theorem loadCount_le_run (r : Registry G) (steps : List Step) (key : String) :
    r.loadCount key ≤ (r.run steps).loadCount key := by
  induction steps generalizing r with
  | nil => exact Nat.le_refl _
  | cons step rest ih => exact Nat.le_trans (r.loadCount_le_after step key) (ih (r.after step))

/-- What a run and one more step brought, the run or the step brought. -/
theorem brought_snoc_iff (r : Registry G) (steps : List Step) (step : Step) {key : String}
    {outcome : Outcome G} :
    r.Brought (r.run (steps ++ [step])) key outcome ↔
      r.Brought (r.run steps) key outcome ∨
        (r.run steps).Brought (r.run (steps ++ [step])) key outcome := by
  have hle := r.loadCount_le_run steps key
  have hle' := (r.run steps).loadCount_le_after step key
  rw [run_snoc]
  simp only [Brought, sources_run]
  constructor
  · rintro ⟨source, count, hs, hlt, hcount, hload⟩
    rcases Nat.lt_or_ge ((r.run steps).loadCount key) count with hmid | hmid
    · exact Or.inr ⟨source, count, hs, hmid, hcount, hload⟩
    · exact Or.inl ⟨source, count, hs, hlt, hmid, hload⟩
  · rintro (⟨source, count, hs, hlt, hcount, hload⟩ | ⟨source, count, hs, hlt, hcount, hload⟩)
    · exact ⟨source, count, hs, hlt, Nat.le_trans hcount hle', hload⟩
    · exact ⟨source, count, hs, Nat.lt_of_le_of_lt hle hlt, hcount, hload⟩

/-- Where nothing is dropped, a run leaves a grammar kept exactly if it was kept or was brought. -/
theorem kept_run_iff_of_notMem (r : Registry G) {steps : List Step} (hsteps : .clear ∉ steps)
    {key : String} {g : G} :
    (r.run steps).Kept key g ↔ r.Kept key g ∨ r.Brought (r.run steps) key (.ok (some g)) := by
  induction steps using List.reverseRecOn with
  | nil => exact (or_iff_left (r.not_brought_self key _)).symm
  | append_singleton steps step ih =>
    have hstep : step ≠ .clear := fun h => hsteps (by simp [h])
    have hbefore : .clear ∉ steps := fun h => hsteps (List.mem_append_left _ h)
    rw [brought_snoc_iff, run_snoc, kept_after_iff hstep, ih hbefore, or_assoc]

/-- After the last drop, or at the start, nothing is kept. -/
theorem exists_last_clear {r : Registry G} (hcache : r.cache = []) (steps : List Step) :
    ∃ before rest, steps = before ++ rest ∧ .clear ∉ rest ∧ (r.run before).cache = [] := by
  induction steps using List.reverseRecOn with
  | nil => exact ⟨[], [], rfl, List.not_mem_nil, hcache⟩
  | append_singleton steps step ih =>
    by_cases hstep : step = .clear
    · subst hstep
      refine ⟨steps ++ [.clear], [], (List.append_nil _).symm, List.not_mem_nil, ?_⟩
      rw [run_snoc]
      rfl
    · obtain ⟨before, rest, rfl, hrest, hempty⟩ := ih
      refine ⟨before, rest ++ [step], List.append_assoc _ _ _, ?_, hempty⟩
      simpa [hrest] using fun h => hstep h.symm

/-- What is kept is what was loaded since the last drop. -/
theorem kept_run_iff {r : Registry G} (hcache : r.cache = []) {steps : List Step} {key : String}
    {g : G} : (r.run steps).Kept key g ↔ r.LoadedSinceClear steps key g := by
  constructor
  · intro hkept
    -- Nothing was kept at the last drop, so a load brought it after that.
    obtain ⟨before, rest, rfl, hrest, hempty⟩ := exists_last_clear hcache steps
    refine ⟨before, rest, rfl, hrest, ?_⟩
    rw [run_append, kept_run_iff_of_notMem _ hrest] at hkept
    rw [run_append]
    refine hkept.resolve_left ?_
    simp [Kept, hempty]
  · rintro ⟨before, rest, rfl, hrest, hbrought⟩
    rw [run_append] at hbrought ⊢
    exact (kept_run_iff_of_notMem _ hrest).mpr (Or.inr hbrought)

theorem sound_after {r : Registry G} (hr : r.Sound) (step : Step) : (r.after step).Sound := by
  rcases r.after_cases step with h | ⟨-, h⟩ | ⟨key, source, hno, hs, h⟩
  · rwa [h]
  · rw [h]
    exact ⟨hr.neverNull, by simp [clear], by simp [Kept, clear]⟩
  · rw [h]
    constructor
    · rw [NeverNull, sources_loadKey]
      exact hr.neverNull
    · intro k
      by_cases hk : k = key
      · subst hk
        cases hload : source.load (r.loadCount k + 1) with
        | ok g? =>
          rw [loadKey_ok hload, lookup_putEntry, if_pos rfl]
          intro hnull
          exact hr.neverNull k source hs _ (hload.trans (by rw [Option.some.inj hnull]))
        | error fault =>
          rw [loadKey_error hload]
          exact hr.lookup_ne_null k
      · rw [lookup_cache_loadKey_of_ne r source hk]
        exact hr.lookup_ne_null k
    · intro k g hkept
      rw [sources_loadKey]
      by_cases hk : k = key
      · simp [hk, hs]
      · rw [Kept, lookup_cache_loadKey_of_ne r source hk] at hkept
        exact hr.source_of_kept k g hkept

theorem sound_run {r : Registry G} (hr : r.Sound) (steps : List Step) : (r.run steps).Sound := by
  induction steps generalizing r with
  | nil => exact hr
  | cons step rest ih => exact ih (sound_after hr step)

/-- A key without a source is never loaded. -/
theorem loadCount_run_of_unknown {r : Registry G} {key : String} (hs : r.sources.lookup key = none)
    (steps : List Step) : (r.run steps).loadCount key = r.loadCount key := by
  induction steps generalizing r with
  | nil => rfl
  | cons step rest ih =>
    have hstep : (r.after step).loadCount key = r.loadCount key := by
      rcases r.after_cases step with h | ⟨-, h⟩ | ⟨k, source, -, hk, h⟩
      · rw [h]
      · rw [h]
        rfl
      · have hne : key ≠ k := by
          rintro rfl
          simp [hs] at hk
        rw [h, loadCount_loadKey, if_neg hne]
    exact (ih (by rwa [sources_after])).trans hstep

theorem perform_alike (r : Registry G) {step step' : Step} (h : step.Alike step') :
    r.perform step = r.perform step' := by
  cases step with
  | resolve l =>
    cases step' with
    | resolve l' =>
      have hfold : Language.fold l = Language.fold l' := h
      simp only [perform, resolve, hfold]
    | isLoaded l' => exact absurd h id
    | clear => exact absurd h id
  | isLoaded l =>
    cases step' with
    | resolve l' => exact absurd h id
    | isLoaded l' =>
      have hfold : Language.fold l = Language.fold l' := h
      simp only [perform, isLoaded, hfold]
    | clear => exact absurd h id
  | clear =>
    cases step' with
    | resolve l' => exact absurd h id
    | isLoaded l' => exact absurd h id
    | clear => rfl

/-- How the languages are spelled makes no difference. -/
theorem answers_alike (r : Registry G) {steps steps' : List Step}
    (h : List.Forall₂ Step.Alike steps steps') :
    r.answers steps' = r.answers steps ∧ r.run steps' = r.run steps := by
  induction h generalizing r with
  | nil => exact ⟨rfl, rfl⟩
  | @cons step step' rest rest' hstep _ ih =>
    have hperform := r.perform_alike hstep
    obtain ⟨hanswers, hrun⟩ := ih (r.after step)
    constructor
    · rw [answers, answers, after, ← hperform]
      exact congrArg _ hanswers
    · change (r.after step').run rest' = (r.after step).run rest
      rw [after, ← hperform]
      exact hrun

/-! ### What comes next -/

theorem isLoaded_iff_kept {r : Registry G} (hr : r.Sound) (language : String) :
    r.isLoaded language = true ↔ ∃ g, r.Kept (Language.fold language) g := by
  have hnull := hr.lookup_ne_null (Language.fold language)
  rw [isLoaded, isLoadedKey]
  cases hc : r.cache.lookup (Language.fold language) with
  | none => simp [Kept, hc]
  | some g? =>
    cases g? with
    | none => exact absurd hc hnull
    | some g => simp [Kept, hc]

theorem frame_resolveKey (r : Registry G) {key k : String} (hk : k ≠ key) :
    (r.resolveKey key).2.1.cache.lookup k = r.cache.lookup k ∧
      (r.resolveKey key).2.1.loadCount k = r.loadCount k := by
  rcases r.resolveKey_cases key with ⟨g, -, h⟩ | ⟨-, ⟨-, h⟩ | ⟨source, -, h⟩⟩
  · rw [h]
    exact ⟨rfl, rfl⟩
  · rw [h]
    exact ⟨rfl, rfl⟩
  · rw [h, loadCount_loadKey, if_neg hk]
    exact ⟨lookup_cache_loadKey_of_ne r source hk, rfl⟩

/-- A failed load leaves nothing behind that keeps the next call from loading. -/
theorem loadCount_resolveKey_twice {r : Registry G} {key : String} {source : GrammarSource G}
    {fault : Fault} (hno : ∀ g, ¬ r.Kept key g) (hs : r.sources.lookup key = some source)
    (hload : source.load (r.loadCount key + 1) = .error fault) :
    ((r.resolveKey key).2.1.resolveKey key).2.1.loadCount key = r.loadCount key + 2 := by
  have hkey : r.resolveKey key = r.loadKey key source := resolveKey_of_source hno hs
  have hcount : (r.resolveKey key).2.1.loadCount key = r.loadCount key + 1 := by
    rw [hkey, loadCount_loadKey, if_pos rfl]
  have hsources : (r.resolveKey key).2.1.sources.lookup key = some source := by
    rw [hkey, sources_loadKey, hs]
  have hno' : ∀ g, ¬ (r.resolveKey key).2.1.Kept key g := by
    rw [hkey, loadKey_error hload]
    exact hno
  rw [resolveKey_of_source hno' hsources, loadCount_loadKey, if_pos rfl, hcount]

theorem serves_kept {r : Registry G} (hr : r.Sound) : r.Serves r.Kept where
  isLoaded_iff := isLoaded_iff_kept hr
  keeps := fun _ _ hkept => resolveKey_of_kept hkept
  unknown := by
    intro language hs
    rcases r.resolveKey_cases (Language.fold language) with
      ⟨g, hg, -⟩ | ⟨-, ⟨-, h⟩ | ⟨source, hs', -⟩⟩
    · exact absurd hs (hr.source_of_kept _ g hg)
    · exact h
    · simp [hs] at hs'
  loads := by
    intro language source hno hs
    rw [resolve, resolveKey_of_source hno hs, loadCount_loadKey, if_pos rfl]
    refine ⟨rfl, ?_⟩
    intro g hload
    rw [loadKey_ok hload]
    exact ⟨rfl, rfl⟩
  fails := by
    intro language source fault hno hs hload
    have hkey := resolveKey_of_source hno hs
    rw [resolve, hkey, loadKey_error hload]
    refine ⟨rfl, ?_, ?_, ?_⟩
    · intro htolerable
      simp [FaultKind.isTolerated_iff.mpr htolerable]
    · intro hnot
      have hfalse : ¬ fault.kind.isTolerated = true := fun h => hnot (FaultKind.isTolerated_iff.mp h)
      simp [hfalse]
    · intro again hagain
      have htwice := loadCount_resolveKey_twice hno hs hload
      rw [hkey, loadKey_error hload] at htwice
      rw [resolve, hagain]
      exact htwice
  frame := fun _ _ hk => r.frame_resolveKey hk

/-- A registry in which nothing is kept yet, whose loads bring a grammar or fail: after each run it
serves what was loaded since the last drop. Keys without a source are not loaded, and the spellings of
languages make no difference to what the run brings. -/
theorem run_serves {r : Registry G} (hcache : r.cache = []) (hnull : r.NeverNull)
    (steps : List Step) :
    (r.run steps).Serves (r.LoadedSinceClear steps) ∧ (r.run steps).sources = r.sources ∧
      (∀ key, r.sources.lookup key = none → (r.run steps).loadCount key = r.loadCount key) ∧
      ∀ steps', List.Forall₂ Step.Alike steps steps' →
        r.answers steps' = r.answers steps ∧ r.run steps' = r.run steps := by
  have hstart : r.Sound := ⟨hnull, by simp [hcache], by simp [Kept, hcache]⟩
  have hkept : (r.run steps).Kept = r.LoadedSinceClear steps := by
    funext key g
    exact propext (kept_run_iff hcache)
  refine ⟨?_, r.sources_run steps, fun key hs => loadCount_run_of_unknown hs steps, ?_⟩
  · rw [← hkept]
    exact serves_kept (sound_run hstart steps)
  · exact fun steps' halike => r.answers_alike halike

/-- A source that fails the first time for want of a module. -/
def lateSource (grammar : Nat → G) : GrammarSource G :=
  ⟨fun count =>
    if count = 1 then .error ⟨.missingModule, "missing"⟩ else .ok (some (grammar count))⟩

def lateRegistry : Registry Nat where
  sources := [("python", lateSource id)]

theorem neverNull_lateRegistry : lateRegistry.NeverNull := by
  intro key source hs count
  have hsource : source = lateSource id := by
    cases hkey : key == "python" <;> simp_all [lateRegistry, List.lookup_cons]
  rw [hsource, lateSource]
  by_cases h1 : count = 1 <;> simp [h1]

theorem run_serves_late :
    lateRegistry.cache = [] ∧ lateRegistry.NeverNull ∧
      (lateRegistry.resolve " Python").1 = .ok none ∧
      (lateRegistry.resolve " Python").2.2 = ["Failed to load python grammar: missing"] ∧
      (lateRegistry.run [.resolve " Python", .resolve "python"]).resolve "PYTHON" =
        (.ok (some 2), lateRegistry.run [.resolve " Python", .resolve "python"], []) := by
  have hserves := fun steps => (run_serves rfl neverNull_lateRegistry steps).1
  have hpython : Language.fold " Python" = "python" := by decide +kernel
  have hno : ∀ g, ¬ lateRegistry.LoadedSinceClear [] (Language.fold " Python") g := by
    intro g hloaded
    rw [← kept_run_iff rfl] at hloaded
    exact nomatch hloaded
  have htolerable : FaultKind.missingModule.Tolerable :=
    ⟨.missingImport, by decide, .single rfl⟩
  obtain ⟨-, hwarned, -⟩ := (hserves []).fails " Python" (lateSource id) ⟨.missingModule, "missing"⟩
    hno (by rw [hpython]; rfl) (by rw [hpython]; rfl)
  obtain ⟨hnone, hwarning⟩ := hwarned htolerable
  refine ⟨rfl, neverNull_lateRegistry, hnone, ?_, ?_⟩
  · rw [hpython] at hwarning
    exact hwarning
  · have hspelling : Language.fold "PYTHON" = "python" := by decide +kernel
    apply (hserves _).keeps "PYTHON" 2
    rw [hspelling]
    exact ⟨[], _, rfl, by simp, lateSource id, 2, rfl, by decide +kernel, by decide +kernel, rfl⟩

end Registry

end Redact
