import Redact.Proofs.Session.Dependable
import Redact.Proofs.Session.Engine
import Redact.Proofs.Session.Redaction

/-! # Runs of a session

A sanitizer at work in its process: sources are redacted, the settings and the counts change, the
engine of the process is reset, the grammars are dropped, in any order. The text of a call depends on the
settings, the parser and the answer of the registry alone (`sanitize_of_enabled`); no step changes the
parser, and the registry goes through steps of its own (`run_continues`). So a call brings what a new
sanitizer would bring, unless a load fails in it (`run_reply`). -/

namespace Redact

/-- A sanitizer and its process. -/
structure Session (G : Type) where
  sanitizer : Sanitizer G
  environment : Environment G

/-- Real grammars are accepted, and the trees of the known languages are well nested with their nodes
between characters. -/
structure Parser.Regular {G : Type} (parser : Parser G) (real : String → G) : Prop where
  accepts : ∀ key, parser.takes (real key) = true
  wellNested : ∀ (l : Language) (code : List Char) root,
    parser.outcome (real l.name) (Text.Utf8.encode code) = .tree root →
      WellNested (Shape.ofLanguage l) (Text.Utf8.encode code) root ∧ Secret.OnBoundaries code root

theorem Parser.outcome_ne_badGrammar {G : Type} {parser : Parser G} {g : G}
    (h : parser.takes g = true) (source : List UInt8) : parser.outcome g source ≠ .badGrammar := by
  rw [outcome, parse, if_pos h]
  dsimp only
  cases parser.yield (some g) source <;> simp [usable]

theorem Language.name_of_ofName? {language : String} {l : Language}
    (h : Language.ofName? language = some l) : l.name = Language.fold language := by
  have hname := List.find?_some h
  exact eq_of_beq hname

namespace Session

variable {G : Type}

inductive Step where
  | sanitize (code : RawText) (language : String)
  | configure (settings : Settings)
  | resetStats
  | resetEngine
  | clearRegistry

/-- The registry that the sanitizer works with. -/
def registry (σ : Session G) : Registry G := σ.sanitizer.registry.getD σ.environment.registry

def withRegistry (σ : Session G) (r : Registry G) : Session G :=
  match σ.sanitizer.registry with
  | some _ => { σ with sanitizer := { σ.sanitizer with registry := some r } }
  | none => { σ with environment := { σ.environment with registry := r } }

/-- The parser of the engine that the sanitizer holds or would get. -/
def parser (σ : Session G) : Parser G :=
  match σ.sanitizer.engine with
  | some engine => engine.parserIn σ.environment
  | none => σ.environment.parser

def reply (σ : Session G) (code : RawText) (language : String) : Sanitizer.Reply G :=
  σ.sanitizer.sanitize σ.environment code language

def after (σ : Session G) : Step → Session G
  | .sanitize code language =>
    ⟨(σ.reply code language).sanitizer, (σ.reply code language).environment⟩
  | .configure settings => { σ with sanitizer := { σ.sanitizer with settings } }
  | .resetStats => { σ with sanitizer := σ.sanitizer.resetStats }
  | .resetEngine => { σ with environment := { σ.environment with host := σ.environment.host.reset } }
  | .clearRegistry => σ.withRegistry σ.registry.clear

def run (σ : Session G) (steps : List Step) : Session G := steps.foldl after σ

/-- The settings after the steps: those that were set last. -/
def configured (settings : Settings) : List Step → Settings
  | [] => settings
  | .configure new :: rest => configured new rest
  | _ :: rest => configured settings rest

/-- In the next call, a load of the language fails. -/
def LoadFails (σ : Session G) (code : RawText) (language : String) : Prop :=
  ∃ fault, σ.registry.Brought (σ.after (.sanitize code language)).registry
    (Language.fold language) (.error fault)

/-- A new sanitizer with these settings and the engine that the old one was given, in a new process,
where all grammars are loaded. -/
def anew (start : Session G) (real : String → G) (settings : Settings) : Session G where
  sanitizer := { settings, engine := start.sanitizer.engine }
  environment := {
    registry := start.registry.preloaded real
    parser := start.environment.parser }

/-! ### The registry of a session -/

theorem registry_withRegistry (σ : Session G) (r : Registry G) : (σ.withRegistry r).registry = r := by
  unfold withRegistry registry
  cases h : σ.sanitizer.registry with
  | none => simp [h]
  | some own => rfl

theorem parser_withRegistry (σ : Session G) (r : Registry G) :
    (σ.withRegistry r).parser = σ.parser := by
  unfold withRegistry parser
  cases σ.sanitizer.registry with
  | some own => cases σ.sanitizer.engine <;> rfl
  | none =>
    cases σ.sanitizer.engine with
    | none => rfl
    | some engine => cases engine <;> rfl

theorem settings_withRegistry (σ : Session G) (r : Registry G) :
    (σ.withRegistry r).sanitizer.settings = σ.sanitizer.settings := by
  unfold withRegistry
  cases σ.sanitizer.registry <;> rfl

theorem host_withRegistry (σ : Session G) (r : Registry G) :
    (σ.withRegistry r).environment.host = σ.environment.host := by
  unfold withRegistry
  cases σ.sanitizer.registry <;> rfl

theorem engine_withRegistry (σ : Session G) (r : Registry G) :
    (σ.withRegistry r).sanitizer.engine = σ.sanitizer.engine := by
  unfold withRegistry
  cases σ.sanitizer.registry <;> rfl

theorem counts_withRegistry (σ : Session G) (r : Registry G) :
    (σ.withRegistry r).sanitizer.counts = σ.sanitizer.counts := by
  unfold withRegistry
  cases σ.sanitizer.registry <;> rfl

theorem grammar_eq (σ : Session G) (language : String) :
    σ.sanitizer.grammar σ.environment language =
      ((σ.registry.resolve language).1,
        (σ.withRegistry (σ.registry.resolve language).2.1).sanitizer,
        (σ.withRegistry (σ.registry.resolve language).2.1).environment,
        (σ.registry.resolve language).2.2) := by
  unfold Sanitizer.grammar withRegistry registry
  cases σ.sanitizer.registry <;> rfl

/-! ### One call -/

/-- What no step but a change of the settings touches. -/
structure Agrees (σ τ : Session G) : Prop where
  parser : τ.parser = σ.parser
  settings : τ.sanitizer.settings = σ.sanitizer.settings
  defect : τ.environment.host.defect = σ.environment.host.defect

theorem Agrees.trans {σ τ υ : Session G} (h : σ.Agrees τ) (h' : τ.Agrees υ) : σ.Agrees υ where
  parser := h'.parser.trans h.parser
  settings := h'.settings.trans h.settings
  defect := h'.defect.trans h.defect

theorem agrees_withRegistry (σ : Session G) (r : Registry G) : σ.Agrees (σ.withRegistry r) where
  parser := parser_withRegistry σ r
  settings := settings_withRegistry σ r
  defect := by rw [host_withRegistry]

/-- The sanitizer cannot get an engine: it holds none, and the set-up that is to be done fails. -/
def Lacks (σ : Session G) (cause : String) : Prop :=
  σ.sanitizer.engine = none ∧ σ.environment.host.phase ≠ .ready ∧
    σ.environment.host.defect = some cause

theorem not_lacks_of_works {σ : Session G} (hd : σ.environment.host.defect = none) (cause : String) :
    ¬ σ.Lacks cause := by
  rintro ⟨-, -, hcause⟩
  simp [hd] at hcause

theorem withEngine_of_able {σ : Session G} (ha : ∀ cause, ¬ σ.Lacks cause) :
    ∃ (engine : Engine G) (τ : Session G),
      σ.sanitizer.withEngine σ.environment = (.ok engine, τ.sanitizer, τ.environment) ∧
        σ.Agrees τ ∧ τ.registry = σ.registry ∧ τ.sanitizer.engine = some engine ∧
          τ.sanitizer.counts = σ.sanitizer.counts := by
  unfold Sanitizer.withEngine
  cases he : σ.sanitizer.engine with
  | some engine => exact ⟨engine, σ, rfl, ⟨rfl, rfl, rfl⟩, rfl, he, rfl⟩
  | none =>
    have hable : σ.environment.host.phase = .ready ∨ σ.environment.host.defect = none := by
      rw [Option.eq_none_iff_forall_ne_some, or_iff_not_imp_left]
      exact fun hr cause hd => ha cause ⟨he, hr, hd⟩
    obtain ⟨n, hobtain, hdefect⟩ := Host.obtain_of_able hable
    refine ⟨.shared n, ⟨{ σ.sanitizer with engine := some (.shared n) },
      { σ.environment with host := σ.environment.host.obtain.2 }⟩, by rw [hobtain], ⟨?_, rfl, hdefect⟩,
      rfl, rfl, rfl⟩
    simp [parser, he, Engine.parserIn]

theorem parserIn_withRegistry {σ : Session G} {engine : Engine G}
    (he : σ.sanitizer.engine = some engine) (r : Registry G) :
    engine.parserIn (σ.withRegistry r).environment = σ.parser := by
  rw [← parser_withRegistry σ r, parser, engine_withRegistry, he]

/-- What a call brings with the answer of the registry. -/
def outcomeOf (σ : Session G) (code : RawText) (language : String) :
    Registry.Outcome G → Except Failure RawText
  | .error fault => .error (.load fault)
  | .ok none => .ok code
  | .ok (some g) => (σ.sanitizer.redactWith σ.parser g language code).1

theorem outcomeOf_congr {σ τ : Session G} (hparser : τ.parser = σ.parser)
    (hsettings : τ.sanitizer.settings = σ.sanitizer.settings) (code : RawText) (language : String) :
    τ.outcomeOf code language = σ.outcomeOf code language := by
  funext answer
  cases answer with
  | error fault => rfl
  | ok g? =>
    cases g? with
    | none => rfl
    | some g => simp only [outcomeOf, hparser, Sanitizer.redactWith_fst_congr hsettings]

theorem sanitize_of_disabled {σ : Session G} (he : σ.sanitizer.settings.enabled = false)
    (code : RawText) (language : String) :
    (σ.reply code language).outcome = .ok code ∧ σ.after (.sanitize code language) = σ := by
  constructor
  · simp [reply, Sanitizer.sanitize, he]
  · simp [after, reply, Sanitizer.sanitize, he]

/-- An enabled call that gets an engine asks the registry once, and its answer, the settings and the
parser make the text. Of the rest only the engine, the registry and the counts change, the counts only
where a grammar was brought. -/
theorem sanitize_of_able {σ : Session G} (ha : ∀ cause, ¬ σ.Lacks cause)
    (he : σ.sanitizer.settings.enabled = true) (code : RawText) (language : String) :
    (σ.reply code language).outcome =
        σ.outcomeOf code language (σ.registry.resolve language).1 ∧
      (σ.after (.sanitize code language)).registry = (σ.registry.resolve language).2.1 ∧
      σ.Agrees (σ.after (.sanitize code language)) ∧
      (σ.after (.sanitize code language)).sanitizer.engine ≠ none ∧
      ∀ fault, (σ.registry.resolve language).1 = .error fault →
        (σ.after (.sanitize code language)).sanitizer.counts = σ.sanitizer.counts := by
  obtain ⟨engine, τ, hengine, hagrees, hregistry, hτ, hcounted⟩ := withEngine_of_able ha
  rw [← hregistry]
  rcases hresolve : τ.registry.resolve language with ⟨answer, r, warnings⟩
  have hgrammar : τ.sanitizer.grammar τ.environment language =
      (answer, (τ.withRegistry r).sanitizer, (τ.withRegistry r).environment, warnings) := by
    rw [grammar_eq, hresolve]
  have hparser : engine.parserIn (τ.withRegistry r).environment = τ.parser := parserIn_withRegistry hτ r
  have hafter : σ.Agrees (τ.withRegistry r) := hagrees.trans (agrees_withRegistry τ r)
  have hr : (τ.withRegistry r).registry = r := registry_withRegistry τ r
  have hheld : (τ.withRegistry r).sanitizer.engine ≠ none := by
    rw [engine_withRegistry, hτ]
    exact Option.some_ne_none engine
  cases answer with
  | error fault =>
    have hreply : σ.reply code language = ⟨.error (.load fault), (τ.withRegistry r).sanitizer,
        (τ.withRegistry r).environment, warnings⟩ := by
      simp [reply, Sanitizer.sanitize, he, hengine, hgrammar]
    simp only [after, hreply]
    exact ⟨rfl, hr, hafter, hheld, fun _ _ => (counts_withRegistry τ r).trans hcounted⟩
  | ok g? =>
    cases g? with
    | none =>
      have hreply : σ.reply code language = ⟨.ok code, (τ.withRegistry r).sanitizer,
          (τ.withRegistry r).environment, warnings⟩ := by
        simp [reply, Sanitizer.sanitize, he, hengine, hgrammar]
      simp only [after, hreply]
      exact ⟨rfl, hr, hafter, hheld, fun fault h => by simp at h⟩
    | some g =>
      -- Only here is anything parsed. The grammar that is set in the engine and the counts are new, and no
      -- later text depends on them.
      obtain ⟨engine', active, hreply, hset⟩ :=
        Sanitizer.sanitize_of_grammar he hengine hgrammar code
      obtain ⟨counts, hcounts⟩ :=
        (τ.withRegistry r).sanitizer.redactWith_snd τ.parser g language code
      rw [hparser, hcounts] at hreply
      have hafter' : σ.after (.sanitize code language) =
          ⟨{ (τ.withRegistry r).sanitizer with counts, engine := some engine' },
            { (τ.withRegistry r).environment with active }⟩ := by
        rw [after, reply, hreply]
      have hsame : (σ.after (.sanitize code language)).parser = τ.parser := by
        rw [hafter']
        exact (hset _).trans hparser
      rw [reply, hreply, hafter']
      refine ⟨?_, hr, ⟨?_, hafter.settings, hafter.defect⟩, Option.some_ne_none engine',
        fun fault h => by simp at h⟩
      · rw [outcomeOf, ← hagrees.parser, Sanitizer.redactWith_fst_congr hafter.settings]
      · rw [← hafter', hsame, hagrees.parser]

theorem sanitize_of_enabled {σ : Session G} (hd : σ.environment.host.defect = none)
    (he : σ.sanitizer.settings.enabled = true) (code : RawText) (language : String) :
    (σ.reply code language).outcome =
        σ.outcomeOf code language (σ.registry.resolve language).1 ∧
      (σ.after (.sanitize code language)).registry = (σ.registry.resolve language).2.1 ∧
      σ.Agrees (σ.after (.sanitize code language)) := by
  obtain ⟨houtcome, hregistry, hagrees, -⟩ :=
    sanitize_of_able (not_lacks_of_works hd) he code language
  exact ⟨houtcome, hregistry, hagrees⟩

/-! ### Steps and runs -/

/-- What the second session owes to the first after these steps. Its registry went through steps of its
own, and dropped its grammars only if the session did. -/
structure Continues (σ τ : Session G) (steps : List Step) : Prop where
  parser : τ.parser = σ.parser
  works : τ.environment.host.defect = none
  settings : τ.sanitizer.settings = configured σ.sanitizer.settings steps
  registry : ∃ calls, τ.registry = σ.registry.run calls ∧
    (.clearRegistry ∉ steps → .clear ∉ calls)

theorem after_continues {σ : Session G} (hd : σ.environment.host.defect = none) (step : Step) :
    σ.Continues (σ.after step) [step] := by
  cases step with
  | sanitize code language =>
    cases he : σ.sanitizer.settings.enabled with
    | false =>
      rw [(sanitize_of_disabled he code language).2]
      exact ⟨rfl, hd, rfl, [], rfl, fun _ => List.not_mem_nil⟩
    | true =>
      obtain ⟨-, hregistry, hagrees⟩ := sanitize_of_enabled hd he code language
      exact ⟨hagrees.parser, hagrees.defect.trans hd, hagrees.settings, [.resolve language],
        hregistry, fun _ => by simp⟩
  | configure settings => exact ⟨rfl, hd, rfl, [], rfl, fun _ => List.not_mem_nil⟩
  | resetStats => exact ⟨rfl, hd, rfl, [], rfl, fun _ => List.not_mem_nil⟩
  | resetEngine =>
    refine ⟨?_, hd, rfl, [], rfl, fun _ => List.not_mem_nil⟩
    unfold parser
    cases he : σ.sanitizer.engine with
    | none => simp [after, he]
    | some engine => cases engine <;> simp [after, he, Engine.parserIn]
  | clearRegistry =>
    have hagrees := σ.agrees_withRegistry σ.registry.clear
    exact ⟨hagrees.parser, hagrees.defect.trans hd, hagrees.settings, [.clear],
      σ.registry_withRegistry _, fun h => absurd (List.mem_singleton_self _) h⟩

theorem configured_cons (settings : Settings) (step : Step) (rest : List Step) :
    configured settings (step :: rest) = configured (configured settings [step]) rest := by
  cases step <;> rfl

theorem run_continues {σ : Session G} (hd : σ.environment.host.defect = none) (steps : List Step) :
    σ.Continues (σ.run steps) steps := by
  induction steps generalizing σ with
  | nil => exact ⟨rfl, hd, rfl, [], rfl, fun _ => List.not_mem_nil⟩
  | cons step rest ih =>
    have hstep := after_continues hd step
    have hrest := ih hstep.works
    obtain ⟨calls, hcalls, hclear⟩ := hstep.registry
    obtain ⟨calls', hcalls', hclear'⟩ := hrest.registry
    refine ⟨hrest.parser.trans hstep.parser, hrest.works, ?_, calls ++ calls', ?_, ?_⟩
    · rw [configured_cons, ← hstep.settings]
      exact hrest.settings
    · rw [Registry.run_append, ← hcalls]
      exact hcalls'
    · intro hno
      rw [← List.singleton_append, List.mem_append, not_or] at hno
      rw [List.mem_append, not_or]
      exact ⟨hclear hno.1, hclear' hno.2⟩

theorem run_append (σ : Session G) (xs ys : List Step) : σ.run (xs ++ ys) = (σ.run xs).run ys :=
  List.foldl_append

/-- A call with a registry that can be relied on fails to load or brings the text of the real
grammar. -/
theorem reply_of_dependable {σ : Session G} (hd : σ.environment.host.defect = none)
    {real : String → G} (hr : σ.registry.Dependable real) (code : RawText) (language : String) :
    (σ.LoadFails code language ∧ (σ.reply code language).outcome = .ok code) ∨
      ¬ σ.LoadFails code language ∧ (σ.reply code language).outcome =
        if σ.sanitizer.settings.enabled then
          σ.outcomeOf code language (.ok ((σ.registry.sources.lookup (Language.fold language)).map
            fun _ => real (Language.fold language)))
        else .ok code := by
  cases he : σ.sanitizer.settings.enabled with
  | false =>
    obtain ⟨hreply, hafter⟩ := sanitize_of_disabled he code language
    refine Or.inr ⟨?_, hreply⟩
    rintro ⟨fault, hbrought⟩
    rw [hafter] at hbrought
    exact σ.registry.not_brought_self _ _ hbrought
  | true =>
    obtain ⟨hreply, hregistry, -⟩ := sanitize_of_enabled hd he code language
    rw [LoadFails, hregistry, hreply]
    rcases Registry.resolveKey_of_dependable hr (Language.fold language) with
      ⟨hfails, hnone⟩ | ⟨hfails, hsome⟩
    · refine Or.inl ⟨hfails, ?_⟩
      rw [Registry.resolve, hnone]
      rfl
    · refine Or.inr ⟨not_exists.mpr hfails, ?_⟩
      rw [Registry.resolve, hsome]
      rfl

theorem reply_anew {start : Session G} {real : String → G} (settings : Settings)
    (code : RawText) (language : String) :
    ((start.anew real settings).reply code language).outcome =
      if settings.enabled then
        (start.anew real settings).outcomeOf code language
          (.ok ((start.registry.sources.lookup (Language.fold language)).map fun _ =>
            real (Language.fold language)))
      else .ok code := by
  cases he : settings.enabled with
  | false => exact (sanitize_of_disabled he code language).1
  | true =>
    have hreply := (sanitize_of_enabled (σ := start.anew real settings) rfl he code language).1
    rw [hreply, Registry.resolve]
    exact congrArg _ (start.registry.resolveKey_preloaded real (Language.fold language))

theorem parser_anew (start : Session G) (real : String → G) (settings : Settings) :
    (start.anew real settings).parser = start.parser := by
  unfold parser
  cases he : start.sanitizer.engine with
  | none => simp [anew, he]
  | some engine => cases engine <;> simp [anew, he, Engine.parserIn]

/-- Where a load for a language has succeeded and nothing was dropped since, none fails. -/
theorem not_loadFails_of_brought {σ : Session G} (hd : σ.environment.host.defect = none)
    {steps : List Step} (hclear : .clearRegistry ∉ steps) {code : RawText} {language : String} {g : G}
    (hbrought : σ.registry.Brought (σ.run steps).registry (Language.fold language) (.ok (some g))) :
    ¬ (σ.run steps).LoadFails code language := by
  have hrun := run_continues hd steps
  obtain ⟨calls, hcalls, hno⟩ := hrun.registry
  have hkept : (σ.run steps).registry.Kept (Language.fold language) g := by
    rw [hcalls] at hbrought ⊢
    exact (Registry.kept_run_iff_of_notMem _ (hno hclear)).mpr (Or.inr hbrought)
  have hafter :
      ((σ.run steps).after (.sanitize code language)).registry = (σ.run steps).registry := by
    cases he : (σ.run steps).sanitizer.settings.enabled with
    | false => rw [(sanitize_of_disabled he code language).2]
    | true =>
      rw [(sanitize_of_enabled hrun.works he code language).2.1, Registry.resolve,
        Registry.resolveKey_of_kept hkept]
  rintro ⟨fault, hfault⟩
  rw [hafter] at hfault
  exact (σ.run steps).registry.not_brought_self _ _ hfault

/-- With the real grammar the redaction succeeds, unless there is a text without bytes. -/
theorem redactWith_of_regular {parser : Parser G} {real : String → G} (hp : parser.Regular real)
    (s : Sanitizer G) (language : String) (code : RawText) :
    (∃ text, (s.redactWith parser (real (Language.fold language)) language code).1 = .ok text) ∨
      (s.redactWith parser (real (Language.fold language)) language code).1 = .error .unencodable ∧
        (code.isPlain = false ∨ s.settings.replacement.isPlain = false) := by
  cases hcode : code.encode? with
  | none =>
    have hlone := RawText.encode?_eq_none_iff.1 hcode
    rw [Sanitizer.redactWith_of_unencodable hlone]
    exact Or.inr ⟨rfl, Or.inl hlone⟩
  | some source =>
    obtain ⟨cs, rfl, rfl⟩ := RawText.exists_of_encode? hcode
    rw [Sanitizer.redactWith_ofList]
    unfold Sanitizer.redactParsed
    cases hparsed : parser.outcome (real (Language.fold language)) (Text.Utf8.encode cs) with
    | nothing => exact Or.inl ⟨_, rfl⟩
    | badGrammar => exact absurd hparsed (Parser.outcome_ne_badGrammar (hp.accepts _) _)
    | tree root =>
      cases hl : Language.ofName? language with
      | none => exact Or.inl ⟨_, rfl⟩
      | some l =>
        rw [← Language.name_of_ofName? hl] at hparsed
        obtain ⟨hnested, hbounds⟩ := hp.wellNested l cs root hparsed
        dsimp only
        rw [Sanitizer.redactTree_eq_rewrite (Shape.ofLanguage_regular l) s hnested hbounds]
        split
        · exact Or.inl ⟨_, rfl⟩
        · rename_i hrefused
          refine Or.inr ⟨rfl, Or.inr ?_⟩
          simpa using (not_or.1 hrefused).1

/-- Whatever came before, a call brings the text itself if a load fails in it, and else what a new
sanitizer brings with the same settings and all grammars loaded. After a load for the language that
succeeded, and until the grammars are dropped, no load for it fails. A call fails only for a source or a
replacement without bytes. -/
theorem run_reply {start : Session G} {real : String → G}
    (hworks : start.environment.host.defect = none) (hregistry : start.registry.Dependable real)
    (steps : List Step) (code : RawText) (language : String) :
    ((start.run steps).LoadFails code language →
        ((start.run steps).reply code language).outcome = .ok code) ∧
      (¬ (start.run steps).LoadFails code language →
        ((start.run steps).reply code language).outcome =
          ((start.anew real (configured start.sanitizer.settings steps)).reply code
            language).outcome) ∧
      (∀ before rest g, steps = before ++ rest → .clearRegistry ∉ rest →
        (start.run before).registry.Brought (start.run steps).registry (Language.fold language)
            (.ok (some g)) →
          ¬ (start.run steps).LoadFails code language) ∧
      (start.parser.Regular real →
        (∃ text, ((start.run steps).reply code language).outcome = .ok text) ∨
          ((start.run steps).reply code language).outcome = .error .unencodable ∧
            (code.isPlain = false ∨
              (configured start.sanitizer.settings steps).replacement.isPlain = false)) := by
  have hrun := run_continues hworks steps
  obtain ⟨calls, hcalls, -⟩ := hrun.registry
  have hdependable : (start.run steps).registry.Dependable real := by
    rw [hcalls]
    exact Registry.dependable_run hregistry calls
  have hsources : (start.run steps).registry.sources = start.registry.sources := by
    rw [hcalls, Registry.sources_run]
  have hanew : (start.run steps).outcomeOf code language =
      (start.anew real (configured start.sanitizer.settings steps)).outcomeOf code language :=
    outcomeOf_congr (hrun.parser.trans (parser_anew start real _).symm) hrun.settings code language
  have hreply := reply_of_dependable hrun.works hdependable code language
  refine ⟨?_, ?_, ?_, ?_⟩
  · intro hfails
    rcases hreply with ⟨-, hcode⟩ | ⟨hno, -⟩
    · exact hcode
    · exact absurd hfails hno
  · intro hno
    rcases hreply with ⟨hfails, -⟩ | ⟨-, htext⟩
    · exact absurd hfails hno
    · rw [htext, reply_anew, hrun.settings, hsources, hanew]
  · rintro before rest g rfl hrest hbrought
    rw [run_append] at hbrought ⊢
    exact not_loadFails_of_brought (run_continues hworks before).works hrest hbrought
  · intro hregular
    rcases hreply with ⟨-, hcode⟩ | ⟨-, htext⟩
    · exact Or.inl ⟨code, hcode⟩
    · rw [htext, hsources, ← hrun.settings]
      split
      · cases start.registry.sources.lookup (Language.fold language) with
        | none => exact Or.inl ⟨code, rfl⟩
        | some source =>
          have hregular' : (start.run steps).parser.Regular real := by rwa [hrun.parser]
          exact redactWith_of_regular hregular' _ language code
      · exact Or.inl ⟨code, rfl⟩

/-- A session whose only source fails the first time, and whose parser knows one text. -/
def lateSession : Session Unit where
  sanitizer := {}
  environment := {
    registry := { sources := [("javascript", Registry.lateSource fun _ => ())] }
    parser := {
      takes := fun _ => true
      yield := fun _ source =>
        if source = Secret.sampleSource "clé_key" then .rooted Secret.sampleTree else .nothing } }

theorem dependable_lateSession : lateSession.registry.Dependable fun _ => () where
  loads := by
    intro key source hs
    have hsource : source = Registry.lateSource fun _ => () := by
      cases hkey : key == "javascript" <;>
        simp_all [lateSession, registry, List.lookup_cons]
    rw [hsource]
    refine ⟨1, ?_, ?_⟩
    · intro count hpos hle
      obtain rfl : count = 1 := Nat.le_antisymm hle hpos
      exact ⟨⟨.missingModule, "missing"⟩, ⟨.missingImport, by decide, .single rfl⟩, rfl⟩
    · intro count hlt
      have hne : count ≠ 1 := by omega
      simp [Registry.lateSource, hne]
  kept := by simp [lateSession, registry]

theorem outcome_lateSession (source : List UInt8) :
    lateSession.parser.outcome () source =
      if source = Secret.sampleSource "clé_key" then .tree Secret.sampleTree else .nothing := by
  have hyield : lateSession.parser.yield (some ()) source =
      if source = Secret.sampleSource "clé_key" then .rooted Secret.sampleTree else .nothing := rfl
  have htakes : lateSession.parser.takes () = true := rfl
  rw [Parser.outcome, Parser.parse, if_pos htakes]
  dsimp only
  rw [hyield]
  split <;> rfl

theorem regular_lateSession : lateSession.parser.Regular fun _ => () where
  accepts _ := rfl
  wellNested := by
    intro l code root hroot
    rw [outcome_lateSession] at hroot
    split at hroot
    · rename_i hsource
      obtain rfl : Secret.sampleTree = root := by simpa using hroot
      have hcode : code = (Secret.sampleCode "clé_key").toList := by
        have hdecode := congrArg Text.Utf8.decode? hsource
        simpa [Secret.sampleSource, Text.Utf8.decode?_encode] using hdecode
      rw [hcode]
      cases l <;> decide +kernel
    · simp at hroot

/-- The first call fails to load. After it and a reset of the engine, the string is replaced. -/
theorem run_reply_late :
    (lateSession.environment.host.defect = none ∧ (lateSession.registry.Dependable fun _ => ()) ∧
        lateSession.parser.Regular fun _ => ()) ∧
      (lateSession.reply (Secret.sampleCode "clé_key") " JavaScript").outcome =
        .ok (Secret.sampleCode "clé_key") ∧
      ((lateSession.run [.sanitize "" " JavaScript", .resetEngine]).reply
        (Secret.sampleCode "clé_key") " JavaScript").outcome = .ok "clé_key = \x22<REDACTED>\x22" := by
  have hl : Language.ofName? " JavaScript" = some .javascript := by decide +kernel
  have hfold : Language.fold " JavaScript" = "javascript" := (Language.name_of_ofName? hl).symm
  have hfirst : lateSession.LoadFails (Secret.sampleCode "clé_key") " JavaScript" := by
    have hregistry := (sanitize_of_enabled (σ := lateSession) rfl rfl
      (Secret.sampleCode "clé_key") " JavaScript").2.1
    have hno : ∀ g, ¬ lateSession.registry.Kept "javascript" g := by
      simp [Registry.Kept, lateSession, registry]
    refine ⟨⟨.missingModule, "missing"⟩, ?_⟩
    rw [hregistry, Registry.resolve, hfold, Registry.resolveKey_of_source hno rfl]
    exact (Registry.brought_loadKey_iff rfl).mpr ⟨rfl, rfl⟩
  have hsecond : ¬ (lateSession.run [.sanitize "" " JavaScript", .resetEngine]).LoadFails
      (Secret.sampleCode "clé_key") " JavaScript" := by
    have hregistry := (sanitize_of_enabled
      (σ := lateSession.run [.sanitize "" " JavaScript", .resetEngine]) rfl rfl
      (Secret.sampleCode "clé_key") " JavaScript").2.1
    have hcache :
        (lateSession.run [.sanitize "" " JavaScript", .resetEngine]).registry.cache = [] := rfl
    have hno : ∀ g, ¬ (lateSession.run [.sanitize "" " JavaScript", .resetEngine]).registry.Kept
        "javascript" g := by
      simp [Registry.Kept, hcache]
    have hload : (Registry.lateSource fun _ => ()).load
        ((lateSession.run [.sanitize "" " JavaScript", .resetEngine]).registry.loadCount
          "javascript" + 1) = .ok (some ()) := rfl
    rw [LoadFails, hregistry, Registry.resolve, hfold, Registry.resolveKey_of_source hno rfl]
    intro hfails
    obtain ⟨fault, hfault⟩ := hfails
    have herror := ((Registry.brought_loadKey_iff rfl).mp hfault).2
    cases hload.symm.trans herror
  have hnew : ((lateSession.anew (fun _ => ()) {}).reply (Secret.sampleCode "clé_key")
      " JavaScript").outcome = .ok "clé_key = \x22<REDACTED>\x22" := by
    have hparsed : lateSession.parser.outcome ()
        (Text.Utf8.encode (Secret.sampleCode "clé_key").toList) = .tree Secret.sampleTree := by
      rw [outcome_lateSession]
      exact if_pos rfl
    obtain ⟨hnested, hbounds⟩ := regular_lateSession.wellNested .javascript _ _ hparsed
    have hrewrite : Secret.rewrite (Shape.ofLanguage .javascript) {}
        (Secret.sampleCode "clé_key").toList Secret.sampleTree =
          "clé_key = \x22<REDACTED>\x22" := by decide +kernel
    rw [reply_anew, if_pos rfl, hfold]
    change (Sanitizer.redactWith _ lateSession.parser () _
      (.ofList (Secret.sampleCode "clé_key").toList)).1 = _
    rw [Sanitizer.redactWith_ofList, hparsed]
    simp only [Sanitizer.redactParsed, hl]
    rw [Sanitizer.redactTree_eq_rewrite (Shape.ofLanguage_regular .javascript) _ hnested hbounds,
      if_pos (Or.inl (by decide))]
    exact congrArg _ hrewrite
  have hruns := @run_reply Unit lateSession (fun _ => ()) rfl dependable_lateSession
  obtain ⟨hfails, -⟩ := hruns [] (Secret.sampleCode "clé_key") " JavaScript"
  obtain ⟨-, hsame, -⟩ := hruns [.sanitize "" " JavaScript", .resetEngine]
    (Secret.sampleCode "clé_key") " JavaScript"
  exact ⟨⟨rfl, dependable_lateSession, regular_lateSession⟩, hfails hfirst,
    (hsame hsecond).trans hnew⟩

end Session

end Redact
