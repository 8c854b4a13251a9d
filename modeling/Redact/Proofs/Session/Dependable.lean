import Redact.Proofs.Session.Registry

/-! # Registries that can be relied on

Sources that fail for a while and then bring the real grammar of their key. Whatever is asked for, such
a registry stays one (`dependable_run`), and asking it brings the real grammar unless a load fails
(`resolveKey_of_dependable`). -/

namespace Redact

theorem lookup_map_key {α β : Type} (key : String) (f : String → β) (entries : List (String × α)) :
    (entries.map fun entry => (entry.1, f entry.1)).lookup key =
      (entries.lookup key).map fun _ => f key := by
  induction entries with
  | nil => rfl
  | cons entry rest ih =>
    rw [List.map_cons, List.lookup_cons, List.lookup_cons, ih]
    cases hkey : key == entry.1 with
    | false => rfl
    | true =>
      rw [eq_of_beq hkey]
      rfl

namespace Registry

variable {G : Type}

/-- The sources fail some times with faults that are tolerated and bring the real grammar of their key
from then on, and nothing else is kept. -/
structure Dependable (r : Registry G) (real : String → G) : Prop where
  loads : ∀ key source, r.sources.lookup key = some source →
    ∃ failures, (∀ count, 1 ≤ count → count ≤ failures →
        ∃ fault, fault.kind.Tolerable ∧ source.load count = .error fault) ∧
      ∀ count, failures < count → source.load count = .ok (some (real key))
  kept : ∀ key g?, r.cache.lookup key = some g? →
    g? = some (real key) ∧ r.sources.lookup key ≠ none

theorem Dependable.load_cases {r : Registry G} {real : String → G} (hr : r.Dependable real)
    {key : String} {source : GrammarSource G} (hs : r.sources.lookup key = some source)
    (count : Nat) :
    (∃ fault, fault.kind.Tolerable ∧ source.load (count + 1) = .error fault) ∨
      source.load (count + 1) = .ok (some (real key)) := by
  obtain ⟨failures, hfails, hloads⟩ := hr.loads key source hs
  rcases Nat.lt_or_ge failures (count + 1) with hlt | hge
  · exact Or.inr (hloads _ hlt)
  · exact Or.inl (hfails _ (Nat.le_add_left 1 count) hge)

theorem dependable_after {r : Registry G} {real : String → G} (hr : r.Dependable real)
    (step : Step) : (r.after step).Dependable real := by
  rcases r.after_cases step with h | ⟨-, h⟩ | ⟨key, source, -, hs, h⟩
  · rwa [h]
  · rw [h]
    exact ⟨hr.loads, by simp [clear]⟩
  · rw [h]
    constructor
    · rw [sources_loadKey]
      exact hr.loads
    · intro k g? hk
      rw [sources_loadKey]
      by_cases hkey : k = key
      · subst hkey
        refine ⟨?_, by simp [hs]⟩
        rcases hr.load_cases hs (r.loadCount k) with ⟨fault, -, hload⟩ | hload
        · rw [loadKey_error hload] at hk
          exact (hr.kept k g? hk).1
        · rw [loadKey_ok hload, lookup_putEntry, if_pos rfl] at hk
          exact (Option.some.inj hk).symm
      · rw [lookup_cache_loadKey_of_ne r source hkey] at hk
        exact hr.kept k g? hk

theorem dependable_run {r : Registry G} {real : String → G} (hr : r.Dependable real)
    (steps : List Step) : (r.run steps).Dependable real := by
  induction steps generalizing r with
  | nil => exact hr
  | cons step rest ih => exact ih (dependable_after hr step)

/-- A load fails and nothing is brought, or the real grammar is, if the key has a source. -/
theorem resolveKey_of_dependable {r : Registry G} {real : String → G} (hr : r.Dependable real)
    (key : String) :
    (∃ fault, r.Brought (r.resolveKey key).2.1 key (.error fault)) ∧
        (r.resolveKey key).1 = .ok none ∨
      (∀ fault, ¬ r.Brought (r.resolveKey key).2.1 key (.error fault)) ∧
        (r.resolveKey key).1 = .ok ((r.sources.lookup key).map fun _ => real key) := by
  rcases r.resolveKey_cases key with ⟨g, hg, h⟩ | ⟨hno, ⟨hs, h⟩ | ⟨source, hs, h⟩⟩
  · obtain ⟨hreal, hsource⟩ := hr.kept key (some g) hg
    obtain ⟨source, hs⟩ := Option.ne_none_iff_exists'.mp hsource
    rw [h]
    refine Or.inr ⟨fun fault => r.not_brought_self key _, ?_⟩
    rw [hs, Option.some.inj hreal]
    rfl
  · rw [h, hs]
    exact Or.inr ⟨fun fault => r.not_brought_self key _, rfl⟩
  · rw [h, hs]
    rcases hr.load_cases hs (r.loadCount key) with ⟨fault, htolerable, hload⟩ | hload
    · refine Or.inl ⟨⟨fault, (brought_loadKey_iff hs).mpr ⟨rfl, hload⟩⟩, ?_⟩
      rw [loadKey_error hload, if_pos (FaultKind.isTolerated_iff.mpr htolerable)]
    · refine Or.inr ⟨?_, ?_⟩
      · intro fault hbrought
        obtain ⟨-, herror⟩ := (brought_loadKey_iff hs).mp hbrought
        simp [hload] at herror
      · rw [loadKey_ok hload]
        rfl

/-- The registry with the real grammars of its sources loaded, and never asked before. -/
def preloaded (r : Registry G) (real : String → G) : Registry G where
  sources := r.sources
  cache := r.sources.map fun entry => (entry.1, some (real entry.1))

/-- The preloaded registry brings the real grammar of each key that has a source. -/
theorem resolveKey_preloaded (r : Registry G) (real : String → G) (key : String) :
    ((r.preloaded real).resolveKey key).1 = .ok ((r.sources.lookup key).map fun _ => real key) := by
  have hcache : (r.preloaded real).cache.lookup key =
      (r.sources.lookup key).map fun _ => some (real key) :=
    lookup_map_key key (fun k => some (real k)) r.sources
  cases hs : r.sources.lookup key with
  | some source =>
    have hkept : (r.preloaded real).Kept key (real key) := by
      rw [Kept, hcache, hs]
      rfl
    rw [resolveKey_of_kept hkept]
    rfl
  | none =>
    have hsources : (r.preloaded real).sources.lookup key = none := hs
    rw [hs] at hcache
    simp only [resolveKey, hcache, hsources, Option.map_none]

end Registry

end Redact
