import Redact.Proofs.Secret.Placement
import Redact.Proofs.Session.Counts

/-! # Calls that fail

A call can fail in three ways: it lacks an engine, a load that it starts raises, or a text without bytes
comes up in it, which is the source or the replacement (`ends_reply`). Nothing else can fail: the grammars
that the sources bring are accepted, and where the trees of the parser cover whole characters, a plan whose
replacement has bytes can be spliced into the text (`redactWith_of_placed`). A call that lacks an engine or
a grammar leaves the counts and the grammars that are kept as they were, and nothing that would make it fail
again once the cause is gone. A replacement without bytes comes up after the edits were counted
(`course_resilient`). -/

namespace Redact

/-- The grammar is one that the parser can work with. -/
def Parser.Accepts {G : Type} (parser : Parser G) (g : G) : Prop := parser.takes g = true

/-- The nodes of the trees cover whole characters of the text. -/
def Parser.Places {G : Type} (parser : Parser G) : Prop :=
  ∀ g (code : List Char) root, parser.outcome g (Text.Utf8.encode code) = .tree root →
    Secret.Placed code root

variable {G : Type}

namespace Sanitizer

/-- A text without bytes comes up: the source, or the replacement where the plan has edits. -/
def Byteless (settings : Settings) (code : RawText) (edits : List Edit) : Prop :=
  code.isPlain = false ∨ settings.replacement.isPlain = false ∧ edits ≠ []

theorem redactTree_of_placed {shape : Shape} (hr : shape.Regular) (s : Sanitizer G) {code : List Char}
    {root : Node} (h : Secret.Placed code root) :
    Byteless s.settings (.ofList code) (Secret.plan shape s.settings (Text.Utf8.encode code) root) ∧
        (s.redactTree shape (.ofList code) (Text.Utf8.encode code) root).1 = .error .unencodable ∨
      ¬ Byteless s.settings (.ofList code)
          (Secret.plan shape s.settings (Text.Utf8.encode code) root) ∧
        ∃ text, (s.redactTree shape (.ofList code) (Text.Utf8.encode code) root).1 = .ok text := by
  simp only [Byteless, RawText.isPlain_ofList, Bool.true_eq_false, false_or, redactTree, List.isEmpty_iff]
  by_cases hnil : Secret.plan shape s.settings (Text.Utf8.encode code) root = []
  · rw [if_pos hnil]
    exact Or.inr ⟨fun h => h.2 hnil, _, rfl⟩
  · rw [if_neg hnil]
    cases hplain : s.settings.replacement.isPlain with
    | true =>
      obtain ⟨cs, hcs⟩ := Secret.apply_plan_of_placed hr h hplain
      refine Or.inr ⟨fun h => Bool.noConfusion h.1, .ofList cs, ?_⟩
      simp only [spliceText, hcs, Text.Utf8.decode?_encode]
    | false =>
      have hinside := fun e he =>
        (@Secret.cuts_of_mem_plan shape s.settings hr code root h e he).inside
      refine Or.inl ⟨⟨rfl, hnil⟩, ?_⟩
      simp only [spliceText, Secret.apply_plan_eq_unencodable hr hinside hplain hnil]

/-- With an accepted grammar and a placed tree, or none, the redaction fails exactly if a text without bytes
comes up. -/
theorem redactWith_of_placed {parser : Parser G} {g : G} (ha : parser.Accepts g)
    (hp : parser.Places) (s : Sanitizer G) (language : String) (code : RawText) :
    Byteless s.settings code ((planWith? s.settings parser g language code).getD []) ∧
        (s.redactWith parser g language code).1 = .error .unencodable ∨
      ¬ Byteless s.settings code ((planWith? s.settings parser g language code).getD []) ∧
        ∃ text, (s.redactWith parser g language code).1 = .ok text := by
  cases hcode : code.encode? with
  | none =>
    have hlone := RawText.encode?_eq_none_iff.1 hcode
    rw [redactWith_of_unencodable hlone]
    exact Or.inl ⟨Or.inl hlone, rfl⟩
  | some source =>
    obtain ⟨cs, rfl, rfl⟩ := RawText.exists_of_encode? hcode
    have hnone : ¬ Byteless s.settings (.ofList cs) [] := by
      simp [Byteless, RawText.isPlain_ofList]
    rw [redactWith_ofList, planWith?, hcode, Option.bind_some]
    unfold redactParsed planOf?
    cases hparsed : parser.outcome g (Text.Utf8.encode cs) with
    | nothing => exact Or.inr ⟨hnone, _, rfl⟩
    | badGrammar => exact absurd hparsed (Parser.outcome_ne_badGrammar ha _)
    | tree root =>
      cases Language.ofName? language with
      | none => exact Or.inr ⟨hnone, _, rfl⟩
      | some l => exact s.redactTree_of_placed (Shape.ofLanguage_regular l) (hp g cs root hparsed)

end Sanitizer

namespace Registry

/-- Asking for the key now starts a load, and that load raises. -/
structure Raises (r : Registry G) (key : String) (fault : Fault) : Prop where
  not_kept : ∀ g, ¬ r.Kept key g
  load : ∃ source, r.sources.lookup key = some source ∧
    source.load (r.loadCount key + 1) = .error fault
  not_tolerable : ¬ fault.kind.Tolerable

/-- All grammars that are kept or can be loaded are real ones. -/
structure Offers (r : Registry G) (real : G → Prop) : Prop where
  loads : ∀ key source, r.sources.lookup key = some source →
    ∀ count g, source.load count = .ok (some g) → real g
  kept : ∀ key g, r.Kept key g → real g

theorem loadKey_eq_error_iff {r : Registry G} {key : String} {source : GrammarSource G}
    {fault : Fault} :
    (r.loadKey key source).1 = .error fault ↔
      source.load (r.loadCount key + 1) = .error fault ∧ ¬ fault.kind.Tolerable := by
  rw [← FaultKind.isTolerated_iff]
  cases hload : source.load (r.loadCount key + 1) with
  | ok g? => simp [loadKey_ok hload]
  | error raised =>
    rw [loadKey_error hload]
    by_cases ht : raised.kind.isTolerated = true
    · simp only [ht, if_true, reduceCtorEq, Except.error.injEq, false_iff, not_and]
      rintro rfl
      exact not_not_intro ht
    · simp only [ht, Except.error.injEq]
      constructor
      · rintro ⟨⟩
        exact ⟨rfl, ht⟩
      · rintro ⟨rfl, -⟩
        rfl

theorem resolveKey_eq_error_iff {r : Registry G} {key : String} {fault : Fault} :
    (r.resolveKey key).1 = .error fault ↔ r.Raises key fault := by
  rcases r.resolveKey_cases key with ⟨g, hg, h⟩ | ⟨hno, ⟨hs, h⟩ | ⟨source, hs, h⟩⟩
  · rw [h]
    exact ⟨nofun, fun hraises => absurd hg (hraises.not_kept g)⟩
  · rw [h]
    refine ⟨nofun, fun hraises => ?_⟩
    obtain ⟨source, hs', -⟩ := hraises.load
    simp [hs] at hs'
  · rw [h, loadKey_eq_error_iff]
    constructor
    · rintro ⟨hload, hnot⟩
      exact ⟨hno, ⟨source, hs, hload⟩, hnot⟩
    · rintro ⟨-, ⟨source', hs', hload⟩, hnot⟩
      obtain rfl : source = source' := Option.some.inj (hs.symm.trans hs')
      exact ⟨hload, hnot⟩

theorem Raises.fault_unique {r : Registry G} {key : String} {fault fault' : Fault}
    (h : r.Raises key fault) (h' : r.Raises key fault') : fault = fault' := by
  rw [← resolveKey_eq_error_iff] at h h'
  exact Except.error.inj (h.symm.trans h')

theorem resolveKey_of_raises {r : Registry G} {key : String} {fault : Fault}
    (h : r.Raises key fault) :
    r.Brought (r.resolveKey key).2.1 key (.error fault) ∧
      (r.resolveKey key).2.1.cache = r.cache := by
  obtain ⟨hno, ⟨source, hs, hload⟩, -⟩ := h
  rw [resolveKey_of_source hno hs]
  refine ⟨(brought_loadKey_iff hs).2 ⟨rfl, hload⟩, ?_⟩
  rw [loadKey_error hload]

theorem real_of_resolveKey {r : Registry G} {real : G → Prop} (hr : r.Offers real) {key : String}
    {g : G} (h : (r.resolveKey key).1 = .ok (some g)) : real g := by
  rcases r.resolveKey_cases key with ⟨g', hg, hkey⟩ | ⟨-, ⟨-, hkey⟩ | ⟨source, hs, hkey⟩⟩
  · rw [hkey] at h
    obtain rfl : g' = g := Option.some.inj (Except.ok.inj h)
    exact hr.kept key g' hg
  · rw [hkey] at h
    cases h
  · rw [hkey] at h
    cases hload : source.load (r.loadCount key + 1) with
    | ok g? =>
      rw [loadKey_ok hload] at h
      rw [Except.ok.inj h] at hload
      exact hr.loads key source hs _ g hload
    | error fault =>
      rw [loadKey_error hload] at h
      split at h <;> cases h

theorem offers_after {r : Registry G} {real : G → Prop} (hr : r.Offers real) (step : Step) :
    (r.after step).Offers real := by
  constructor
  · rw [sources_after]
    exact hr.loads
  · rcases r.after_cases step with h | ⟨-, h⟩ | ⟨key, source, hno, hs, h⟩
    · rw [h]
      exact hr.kept
    · rw [h]
      simp [clear, Kept]
    · intro k g hkept
      rw [h] at hkept
      by_cases hk : k = key
      · subst hk
        exact hr.loads k source hs _ g ((kept_loadKey_iff hno).1 hkept)
      · rw [Kept, lookup_cache_loadKey_of_ne r source hk] at hkept
        exact hr.kept k g hkept

end Registry

namespace Session

/-- Something stands in the way of a call: it lacks an engine, or the load that it would start raises. -/
def Impeded (σ : Session G) (language : String) : Prop :=
  σ.sanitizer.settings.enabled = true ∧
    ((∃ cause, σ.Lacks cause) ∨ ∃ fault, σ.registry.Raises (Language.fold language) fault)

/-- The call gets an engine and a grammar, and then a text without bytes comes up in it. -/
structure Unencodable (σ : Session G) (code : RawText) (language : String) : Prop where
  enabled : σ.sanitizer.settings.enabled = true
  able : ∀ cause, ¬ σ.Lacks cause
  grammar : ∃ g, (σ.registry.resolve language).1 = .ok (some g)
  byteless : Sanitizer.Byteless σ.sanitizer.settings code ((σ.plan? code language).getD [])

theorem not_unencodable_of_plain {σ : Session G} {code : RawText} (hcode : code.isPlain = true)
    (hreplacement : σ.sanitizer.settings.replacement.isPlain = true) (language : String) :
    ¬ σ.Unencodable code language := by
  rintro ⟨-, -, -, hlone | ⟨hlone, -⟩⟩
  · cases hlone.symm.trans hcode
  · cases hlone.symm.trans hreplacement

/-- When a call fails, what it leaves behind, and what becomes of it later. -/
structure Resilient (σ : Session G) (code : RawText) (language : String) : Prop where
  unavailable_iff : ∀ e, (σ.reply code language).outcome = .error (.unavailable e) ↔
    σ.sanitizer.settings.enabled = true ∧ σ.Lacks e.cause
  load_iff : ∀ fault, (σ.reply code language).outcome = .error (.load fault) ↔
    σ.sanitizer.settings.enabled = true ∧ (∀ cause, ¬ σ.Lacks cause) ∧
      σ.registry.Raises (Language.fold language) fault
  unencodable_iff : (σ.reply code language).outcome = .error .unencodable ↔
    σ.Unencodable code language
  returns_iff : (∃ text, (σ.reply code language).outcome = .ok text) ↔
    ¬ σ.Impeded language ∧ ¬ σ.Unencodable code language
  keeps : ∀ failure, (σ.reply code language).outcome = .error failure → failure ≠ .unencodable →
    (σ.happen (.sanitize code language)).sanitizer.counts = σ.sanitizer.counts ∧
      (σ.happen (.sanitize code language)).registry.cache = σ.registry.cache
  tallies : (σ.reply code language).outcome = .error .unencodable →
    (σ.happen (.sanitize code language)).sanitizer.counts =
        σ.sanitizer.counts.tally ((σ.plan? code language).getD []) ∧
      (σ.happen (.sanitize code language)).registry = (σ.registry.resolve language).2.1
  loads_nothing : ∀ e, (σ.reply code language).outcome = .error (.unavailable e) →
    (σ.happen (.sanitize code language)).registry = σ.registry
  loads_in_call : ∀ fault, (σ.reply code language).outcome = .error (.load fault) →
    σ.registry.Brought (σ.happen (.sanitize code language)).registry (Language.fold language)
      (.error fault)
  heals : ∀ e, (σ.reply code language).outcome = .error (.unavailable e) →
    (∀ fault, ¬ σ.registry.Raises (Language.fold language) fault) →
    ¬ (σ.course [.sanitize code language, .host (.probe none)]).Unencodable code language →
      ∃ text, ((σ.course [.sanitize code language, .host (.probe none)]).reply code
        language).outcome = .ok text
  reloads : ∀ fault, (σ.reply code language).outcome = .error (.load fault) →
    (∀ again, ¬ (σ.happen (.sanitize code language)).registry.Raises (Language.fold language) again) →
    ¬ (σ.happen (.sanitize code language)).Unencodable code language →
      ∃ text, ((σ.happen (.sanitize code language)).reply code language).outcome = .ok text
  recovers : ∀ later, ¬ (σ.course (.sanitize code language :: later)).Impeded language →
    ¬ (σ.course (.sanitize code language :: later)).Unencodable code language →
      ∃ text, ((σ.course (.sanitize code language :: later)).reply code language).outcome = .ok text
  disabled : σ.sanitizer.settings.enabled = false →
    (σ.reply code language).outcome = .ok code ∧ σ.happen (.sanitize code language) = σ
  holds : σ.sanitizer.engine ≠ none → ∀ later code' language' e,
    ((σ.course later).reply code' language').outcome ≠ .error (.unavailable e)

/-- What a session needs for no call to fail in any other way. -/
structure Honest (σ : Session G) : Prop where
  offers : σ.registry.Offers σ.parser.Accepts
  places : σ.parser.Places

theorem honest_happen {σ : Session G} (h : σ.Honest) (event : Event) : (σ.happen event).Honest := by
  refine ⟨?_, ?_⟩
  · rw [parser_happen]
    rcases σ.registry_happen event with hsame | ⟨step, hstep⟩
    · rw [hsame]
      exact h.offers
    · rw [hstep]
      exact Registry.offers_after h.offers step
  · rw [parser_happen]
    exact h.places

theorem honest_course {σ : Session G} (h : σ.Honest) (events : List Event) :
    (σ.course events).Honest := by
  induction events generalizing σ with
  | nil => exact h
  | cons event rest ih => exact ih (honest_happen h event)

theorem Lacks.cause_unique {σ : Session G} {cause cause' : String} (h : σ.Lacks cause)
    (h' : σ.Lacks cause') : cause = cause' :=
  Option.some.inj (h.2.2.symm.trans h'.2.2)

/-! ### The ends of a call -/

theorem Unencodable.not_raises {σ : Session G} {code : RawText} {language : String}
    (h : σ.Unencodable code language) (fault : Fault) :
    ¬ σ.registry.Raises (Language.fold language) fault := by
  intro hraises
  obtain ⟨g, hg⟩ := h.grammar
  cases hg.symm.trans (Registry.resolveKey_eq_error_iff.2 hraises)

theorem not_impeded_of_grammar {σ : Session G} {language : String} {g? : Option G}
    (ha : ∀ cause, ¬ σ.Lacks cause) (hanswer : (σ.registry.resolve language).1 = .ok g?) :
    ¬ σ.Impeded language := by
  rintro ⟨-, ⟨cause, hlacks⟩ | ⟨fault, hraises⟩⟩
  · exact ha cause hlacks
  · cases hanswer.symm.trans (Registry.resolveKey_eq_error_iff.2 hraises)

/-- The ends that a call can come to, each with the state in which it does. -/
inductive Ends (σ : Session G) (code : RawText) (language : String) : Except Failure RawText → Prop where
  | lacked {cause : String} (he : σ.sanitizer.settings.enabled = true) (hlacks : σ.Lacks cause) :
      Ends σ code language (.error (.unavailable ⟨cause⟩))
  | raised {fault : Fault} (he : σ.sanitizer.settings.enabled = true) (ha : ∀ cause, ¬ σ.Lacks cause)
      (hraises : σ.registry.Raises (Language.fold language) fault) :
      Ends σ code language (.error (.load fault))
  | byteless (h : σ.Unencodable code language) : Ends σ code language (.error .unencodable)
  | returned {text : RawText} (hno : ¬ σ.Impeded language) (hbytes : ¬ σ.Unencodable code language) :
      Ends σ code language (.ok text)

theorem ends_reply {σ : Session G} (h : σ.Honest) (code : RawText) (language : String) :
    σ.Ends code language (σ.reply code language).outcome := by
  rcases σ.call_cases with he | ⟨he, ⟨cause, hlacks⟩ | ha⟩
  · have hoff : σ.sanitizer.settings.enabled ≠ true := by simp [he]
    rw [(sanitize_of_disabled he code language).1]
    exact .returned (fun himpeded => hoff himpeded.1) fun hbytes => hoff hbytes.enabled
  · rw [(sanitize_of_lacks hlacks he code language).1]
    exact .lacked he hlacks
  · rw [(sanitize_of_able ha he code language).1]
    cases hanswer : (σ.registry.resolve language).1 with
    | error fault => exact .raised he ha (Registry.resolveKey_eq_error_iff.1 hanswer)
    | ok g? =>
      have hno := not_impeded_of_grammar ha hanswer
      cases g? with
      | none =>
        refine .returned hno fun hbytes => ?_
        obtain ⟨g, hg⟩ := hbytes.grammar
        cases hg.symm.trans hanswer
      | some g =>
        have hplan := plan?_of_able ha he hanswer code
        -- the grammar is a real one, so nothing can go wrong but the bytes of the texts
        have hreal := Registry.real_of_resolveKey h.offers hanswer
        rcases Sanitizer.redactWith_of_placed hreal h.places σ.sanitizer language code with
          ⟨hbyteless, hfails⟩ | ⟨hfree, text, htext⟩
        · rw [outcomeOf, hfails]
          exact .byteless ⟨he, ha, ⟨g, hanswer⟩, by rwa [hplan]⟩
        · rw [outcomeOf, htext]
          exact .returned hno fun hbytes => hfree (by rw [← hplan]; exact hbytes.byteless)

theorem returns_iff_not_impeded {σ : Session G} (h : σ.Honest) (code : RawText) (language : String) :
    (∃ text, (σ.reply code language).outcome = .ok text) ↔
      ¬ σ.Impeded language ∧ ¬ σ.Unencodable code language := by
  have hends := ends_reply h code language
  generalize (σ.reply code language).outcome = outcome at hends ⊢
  cases hends with
  | lacked he hlacks => exact iff_of_false nofun fun hno => hno.1 ⟨he, Or.inl ⟨_, hlacks⟩⟩
  | raised he ha hraises => exact iff_of_false nofun fun hno => hno.1 ⟨he, Or.inr ⟨_, hraises⟩⟩
  | byteless hbytes => exact iff_of_false nofun fun hno => hno.2 hbytes
  | returned hno hbytes => exact iff_of_true ⟨_, rfl⟩ ⟨hno, hbytes⟩

theorem unencodable_iff {σ : Session G} (h : σ.Honest) (code : RawText) (language : String) :
    (σ.reply code language).outcome = .error .unencodable ↔ σ.Unencodable code language := by
  have hends := ends_reply h code language
  generalize (σ.reply code language).outcome = outcome at hends ⊢
  cases hends with
  | lacked he hlacks => exact iff_of_false nofun fun hbytes => hbytes.able _ hlacks
  | raised he ha hraises => exact iff_of_false nofun fun hbytes => hbytes.not_raises _ hraises
  | byteless hbytes => exact iff_of_true rfl hbytes
  | returned hno hbytes => exact iff_of_false nofun hbytes

theorem unavailable_iff_lacks {σ : Session G} (h : σ.Honest) (code : RawText) (language : String)
    (e : Unavailable) :
    (σ.reply code language).outcome = .error (.unavailable e) ↔
      σ.sanitizer.settings.enabled = true ∧ σ.Lacks e.cause := by
  have hends := ends_reply h code language
  generalize (σ.reply code language).outcome = outcome at hends ⊢
  cases hends with
  | lacked he hlacks =>
    constructor
    · rintro ⟨⟩
      exact ⟨he, hlacks⟩
    · rintro ⟨-, hlacks'⟩
      rw [hlacks.cause_unique hlacks']
  | raised he ha hraises => exact iff_of_false nofun fun hlacks => ha _ hlacks.2
  | byteless hbytes => exact iff_of_false nofun fun hlacks => hbytes.able _ hlacks.2
  | returned hno hbytes => exact iff_of_false nofun fun hlacks => hno ⟨hlacks.1, Or.inl ⟨_, hlacks.2⟩⟩

theorem load_iff_raises {σ : Session G} (h : σ.Honest) (code : RawText) (language : String) (fault : Fault) :
    (σ.reply code language).outcome = .error (.load fault) ↔
      σ.sanitizer.settings.enabled = true ∧ (∀ cause, ¬ σ.Lacks cause) ∧
        σ.registry.Raises (Language.fold language) fault := by
  have hends := ends_reply h code language
  generalize (σ.reply code language).outcome = outcome at hends ⊢
  cases hends with
  | lacked he hlacks => exact iff_of_false nofun fun hload => hload.2.1 _ hlacks
  | raised he ha hraises =>
    constructor
    · rintro ⟨⟩
      exact ⟨he, ha, hraises⟩
    · rintro ⟨-, -, hraises'⟩
      rw [hraises.fault_unique hraises']
  | byteless hbytes => exact iff_of_false nofun fun hload => hbytes.not_raises _ hload.2.2
  | returned hno hbytes => exact iff_of_false nofun fun hload => hno ⟨hload.1, Or.inr ⟨_, hload.2.2⟩⟩

theorem kept_of_failure {σ : Session G} (h : σ.Honest) {code : RawText} {language : String}
    {failure : Failure} (hfails : (σ.reply code language).outcome = .error failure)
    (hne : failure ≠ .unencodable) :
    (σ.happen (.sanitize code language)).sanitizer.counts = σ.sanitizer.counts ∧
      (σ.happen (.sanitize code language)).registry.cache = σ.registry.cache := by
  have hends := ends_reply h code language
  rw [hfails] at hends
  rw [happen]
  cases hends with
  | lacked he hlacks =>
    rw [(sanitize_of_lacks hlacks he code language).2]
    exact ⟨rfl, rfl⟩
  | raised he ha hraises =>
    obtain ⟨-, hregistry, -, -, hcounts⟩ := sanitize_of_able ha he code language
    rw [hregistry]
    exact ⟨hcounts _ (Registry.resolveKey_eq_error_iff.2 hraises),
      (Registry.resolveKey_of_raises hraises).2⟩
  | byteless => exact absurd rfl hne

theorem tallied_of_unencodable {σ : Session G} {code : RawText} {language : String}
    (h : σ.Unencodable code language) :
    (σ.happen (.sanitize code language)).sanitizer.counts =
        σ.sanitizer.counts.tally ((σ.plan? code language).getD []) ∧
      (σ.happen (.sanitize code language)).registry = (σ.registry.resolve language).2.1 :=
  ⟨σ.counts_sanitize code language, (sanitize_of_able h.able h.enabled code language).2.1⟩

/-! ### All calls of a session -/

theorem resilient_of_honest {σ : Session G} (h : σ.Honest) (code : RawText) (language : String) :
    σ.Resilient code language where
  unavailable_iff := unavailable_iff_lacks h code language
  load_iff := load_iff_raises h code language
  unencodable_iff := unencodable_iff h code language
  returns_iff := returns_iff_not_impeded h code language
  keeps := fun _ hfails hne => kept_of_failure h hfails hne
  tallies := fun hfails => tallied_of_unencodable ((unencodable_iff h code language).1 hfails)
  loads_nothing := by
    intro e hfails
    obtain ⟨he, hlacks⟩ := (unavailable_iff_lacks h code language e).1 hfails
    rw [happen, (sanitize_of_lacks hlacks he code language).2]
    rfl
  loads_in_call := by
    intro fault hfails
    obtain ⟨he, hable, hraises⟩ := (load_iff_raises h code language fault).1 hfails
    rw [happen, (sanitize_of_able hable he code language).2.1]
    exact (Registry.resolveKey_of_raises hraises).1
  heals := by
    intro e hfails hno hbytes
    obtain ⟨he, hlacks⟩ := (unavailable_iff_lacks h code language e).1 hfails
    refine (returns_iff_not_impeded (honest_course h _) code language).2 ⟨?_, hbytes⟩
    have hafter : σ.course [.sanitize code language, .host (.probe none)] =
        σ.withHost { σ.environment.host with phase := .failed, defect := none } := by
      rw [course, List.foldl_cons, happen, (sanitize_of_lacks hlacks he code language).2]
      rfl
    rw [hafter]
    rintro ⟨-, ⟨cause, hcause⟩ | ⟨fault, hraises⟩⟩
    · exact not_lacks_of_works rfl cause hcause
    · exact hno fault hraises
  reloads := by
    intro fault hfails hno hbytes
    obtain ⟨he, hable, -⟩ := (load_iff_raises h code language fault).1 hfails
    refine (returns_iff_not_impeded (honest_happen h _) code language).2 ⟨?_, hbytes⟩
    rintro ⟨-, ⟨cause, hlacks⟩ | ⟨again, hraises⟩⟩
    -- The call that failed got an engine, which the sanitizer still holds.
    · exact (sanitize_of_able hable he code language).2.2.2.1 hlacks.1
    · exact hno again hraises
  recovers := fun later hno hbytes =>
    (returns_iff_not_impeded (honest_course h _) code language).2 ⟨hno, hbytes⟩
  disabled := fun he => sanitize_of_disabled he code language
  holds := by
    intro hheld later code' language' e hfails
    obtain ⟨-, hlacks⟩ := (unavailable_iff_lacks (honest_course h later) code' language' e).1 hfails
    exact engine_course hheld later hlacks.1

/-- In each state that a session can reach, a call fails exactly for want of an engine, because of a load that
it starts, or for a text without bytes. In the first two cases it leaves the counts and the kept grammars
alone, in the third one it has counted its edits, and it succeeds once the cause is gone. -/
theorem course_resilient {start : Session G} (hoffers : start.registry.Offers start.parser.Accepts)
    (hplaces : start.parser.Places) (events : List Event) (code : RawText) (language : String) :
    (start.course events).Resilient code language :=
  resilient_of_honest (honest_course ⟨hoffers, hplaces⟩ events) code language

/-- A source that raises the first time. -/
def brittleSource : GrammarSource Unit :=
  ⟨fun count => if count = 1 then .error ⟨.runtime, "raised"⟩ else .ok (some ())⟩

/-- A session without a runtime, whose only source raises the first time. -/
def brokenSession : Session Unit where
  sanitizer := {}
  environment := {
    host := { defect := some "no runtime" }
    registry := { sources := [("javascript", brittleSource)] }
    parser := lateSession.parser }

theorem source_of_brokenSession {key : String} {source : GrammarSource Unit}
    (hs : brokenSession.registry.sources.lookup key = some source) : source = brittleSource := by
  cases hkey : key == "javascript" <;> simp_all [brokenSession, registry, List.lookup_cons]

theorem accepts_brokenSession : brokenSession.parser.Accepts () := regular_lateSession.accepts ""

theorem places_brokenSession : brokenSession.parser.Places := by
  intro g code root hroot
  obtain ⟨hnested, hbounds⟩ := regular_lateSession.wellNested .javascript code root hroot
  exact ⟨fun n hn => (hnested.nested.of_mem hn).placed.start_le_stop, hbounds⟩

/-- First there is no runtime, then the load raises, then the call succeeds. -/
theorem course_resilient_broken :
    (brokenSession.registry.Offers brokenSession.parser.Accepts ∧ brokenSession.parser.Places) ∧
      (brokenSession.reply (Secret.sampleCode "clé_key") "javascript").outcome =
        .error (.unavailable ⟨"no runtime"⟩) ∧
      ((brokenSession.course [.sanitize (Secret.sampleCode "clé_key") "javascript",
        .host (.probe none)]).reply (Secret.sampleCode "clé_key") "javascript").outcome =
        .error (.load ⟨.runtime, "raised"⟩) ∧
      ∃ text, (((brokenSession.course [.sanitize (Secret.sampleCode "clé_key") "javascript",
        .host (.probe none)]).happen (.sanitize (Secret.sampleCode "clé_key") "javascript")).reply
          (Secret.sampleCode "clé_key") "javascript").outcome = .ok text := by
  have hoffers : brokenSession.registry.Offers brokenSession.parser.Accepts :=
    ⟨fun _ _ _ _ _ _ => accepts_brokenSession, fun _ _ _ => accepts_brokenSession⟩
  have hfold : Language.fold "javascript" = "javascript" := by decide +kernel
  have hfault : ¬ FaultKind.runtime.Tolerable := by
    rw [← FaultKind.isTolerated_iff]
    decide
  have hruns := fun events => course_resilient hoffers places_brokenSession events
    (Secret.sampleCode "clé_key") "javascript"
  have hhealed := hruns [.sanitize (Secret.sampleCode "clé_key") "javascript", .host (.probe none)]
  have hno : ∀ g, ¬ (brokenSession.course [.sanitize (Secret.sampleCode "clé_key") "javascript",
      .host (.probe none)]).registry.Kept "javascript" g := by
    intro g hkept
    cases hkept
  have hraised := (hhealed.load_iff ⟨.runtime, "raised"⟩).2
    ⟨rfl, not_lacks_of_works rfl, by rw [hfold]; exact ⟨hno, ⟨brittleSource, rfl, rfl⟩, hfault⟩⟩
  refine ⟨⟨hoffers, places_brokenSession⟩, ?_, hraised, ?_⟩
  · exact ((hruns []).unavailable_iff ⟨"no runtime"⟩).2 ⟨rfl, rfl, by decide, rfl⟩
  · refine hhealed.reloads _ hraised ?_ (not_unencodable_of_plain (RawText.isPlain_ofList _) rfl _)
    rw [happen, (sanitize_of_able (not_lacks_of_works rfl) rfl _ _).2.1, Registry.resolve, hfold,
      Registry.resolveKey_of_source hno rfl]
    rintro again ⟨-, ⟨source, hs, hload⟩, -⟩
    rw [Registry.sources_loadKey] at hs
    rw [source_of_brokenSession hs] at hload
    cases hload

/-- A session that has an engine and a grammar at hand. -/
def readySession (settings : Settings) : Session Unit where
  sanitizer := { settings }
  environment := {
    registry := { sources := [("javascript", ⟨fun _ => .ok (some ())⟩)] }
    parser := lateSession.parser }

theorem honest_readySession (settings : Settings) : (readySession settings).Honest where
  offers := ⟨fun _ _ _ _ _ _ => accepts_brokenSession, fun _ _ _ => accepts_brokenSession⟩
  places := places_brokenSession

theorem resolve_readySession (settings : Settings) :
    ((readySession settings).registry.resolve "javascript").1 = .ok (some ()) := by
  have hfold : Language.fold "javascript" = "javascript" := by decide +kernel
  rw [Registry.resolve, hfold]
  rfl

theorem plan?_readySession :
    (readySession Sanitizer.loneReplacement).plan? (Secret.sampleCode "clé_key") "javascript" =
      some [⟨11, 40, [.lone .first], .sensitiveAssignment⟩] := by
  have hcandidates : Secret.candidates (Shape.ofLanguage .javascript) Sanitizer.loneReplacement
      (Secret.sampleSource "clé_key") Secret.sampleTree =
        [⟨11, 40, [.lone .first], .sensitiveAssignment⟩, ⟨14, 39, [.lone .first], .secretToken⟩] := by
    decide +kernel
  have hplan : (readySession Sanitizer.loneReplacement).plan? (Secret.sampleCode "clé_key")
      "javascript" = some (Secret.plan (Shape.ofLanguage .javascript) Sanitizer.loneReplacement
        (Secret.sampleSource "clé_key") Secret.sampleTree) := rfl
  rw [hplan, Secret.plan, hcandidates, Plan.resolve, List.mergeSort_of_pairwise (by decide)]
  rfl

/-- Nothing stands in the way of two calls, and yet one fails for a text that is a lone surrogate, and the
other one for its replacement, which is one, when its edit has been counted. -/
theorem not_returns_lone :
    (∀ settings, (readySession settings).registry.Offers (readySession settings).parser.Accepts ∧
        (readySession settings).parser.Places ∧ ¬ (readySession settings).Impeded "javascript") ∧
      ((readySession {}).reply [.lone .first] "javascript").outcome = .error .unencodable ∧
      ((readySession Sanitizer.loneReplacement).reply (Secret.sampleCode "clé_key") "javascript").outcome =
        .error .unencodable ∧
      ((readySession Sanitizer.loneReplacement).happen (.sanitize (Secret.sampleCode "clé_key")
        "javascript")).sanitizer.counts = [(.sensitiveAssignment, 1)] := by
  have hable : ∀ settings cause, ¬ (readySession settings).Lacks cause :=
    fun _ => not_lacks_of_works rfl
  have hcode : (readySession {}).Unencodable [.lone .first] "javascript" :=
    ⟨rfl, hable _, ⟨(), resolve_readySession _⟩, Or.inl rfl⟩
  have hreplacement : (readySession Sanitizer.loneReplacement).Unencodable (Secret.sampleCode "clé_key")
      "javascript" := by
    refine ⟨rfl, hable _, ⟨(), resolve_readySession _⟩, Or.inr ⟨rfl, ?_⟩⟩
    rw [plan?_readySession]
    exact List.cons_ne_nil _ _
  refine ⟨fun settings => ⟨(honest_readySession settings).offers, (honest_readySession settings).places,
    not_impeded_of_grammar (hable settings) (resolve_readySession settings)⟩, ?_, ?_, ?_⟩
  · exact (unencodable_iff (honest_readySession _) _ _).2 hcode
  · exact (unencodable_iff (honest_readySession _) _ _).2 hreplacement
  · rw [(tallied_of_unencodable hreplacement).1, plan?_readySession]
    rfl

end Session

end Redact
