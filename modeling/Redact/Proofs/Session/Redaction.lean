import Redact.Proofs.Secret.Rewriting
import Redact.Session.Sanitizer

/-! # What a sanitizer returns

A call that gets as far as a tree returns the text of the tree rewritten from the top, with each hit
that is met first replaced and all else kept. Neither a bad span nor broken text can come up on the
way: the spans of the plan lie inside the source, and what they leave of it is whole characters. What
can come up is a text without bytes: the source, or the replacement if there is a hit
(`sanitize_eq_rewrite`). -/

namespace Redact

variable {G : Type}

/-! ### The parser of an engine -/

/-- The parser that an engine has in a process. -/
def Engine.parserIn (p : Environment G) : Engine G → Parser G
  | .shared _ => p.parser
  | .own parser _ => parser

namespace Environment

/-- What comes of a parse does not depend on the grammar that was set in the engine before. -/
theorem parse_fst (p : Environment G) (engine : Engine G) (g : G) (source : List UInt8) :
    (p.parse engine g source).1 = (engine.parserIn p).outcome g source := by
  cases engine with
  | shared n => exact p.parser.parse_fst (p.active n) g source
  | own parser active => exact parser.parse_fst active g source

/-- A parse leaves a grammar set in its engine and changes nothing else. -/
theorem parse_snd (p : Environment G) (engine : Engine G) (g : G) (source : List UInt8) :
    ∃ engine' active, (p.parse engine g source).2 = (engine', { p with active }) ∧
      ∀ q : Environment G, engine'.parserIn q = engine.parserIn q := by
  cases engine with
  | shared n => exact ⟨_, _, rfl, fun _ => rfl⟩
  | own parser active => exact ⟨_, p.active, rfl, fun _ => rfl⟩

end Environment

namespace Sanitizer

/-- In a call the sanitizer gets an engine and a grammar of the language, and with these the parser
yields a tree of the source. -/
def YieldsTree (s : Sanitizer G) (p : Environment G) (language : String) (source : List UInt8)
    (root : Node) : Prop :=
  ∃ engine s₁ p₁ g s₂ p₂ warnings,
    s.withEngine p = (.ok engine, s₁, p₁) ∧
      s₁.grammar p₁ language = (.ok (some g), s₂, p₂, warnings) ∧
        (engine.parserIn p₂).outcome g source = .tree root

theorem withEngine_snd (s : Sanitizer G) (p : Environment G) :
    ∃ engine, (s.withEngine p).2.1 = { s with engine } := by
  unfold withEngine
  split
  · exact ⟨s.engine, rfl⟩
  · split
    · exact ⟨s.engine, rfl⟩
    · exact ⟨_, rfl⟩

theorem grammar_snd (s : Sanitizer G) (p : Environment G) (language : String) :
    ∃ registry, (s.grammar p language).2.1 = { s with registry } := by
  unfold grammar
  split
  · exact ⟨_, rfl⟩
  · exact ⟨s.registry, rfl⟩

theorem withEngine_settings (s : Sanitizer G) (p : Environment G) :
    (s.withEngine p).2.1.settings = s.settings := by
  obtain ⟨engine, h⟩ := s.withEngine_snd p
  rw [h]

theorem grammar_settings (s : Sanitizer G) (p : Environment G) (language : String) :
    (s.grammar p language).2.1.settings = s.settings := by
  obtain ⟨registry, h⟩ := s.grammar_snd p language
  rw [h]

theorem grammar_engine (s : Sanitizer G) (p : Environment G) (language : String) :
    (s.grammar p language).2.1.engine = s.engine := by
  obtain ⟨registry, h⟩ := s.grammar_snd p language
  rw [h]

theorem engine_of_withEngine {s s₁ : Sanitizer G} {p p₁ : Environment G} {engine : Engine G}
    (h : s.withEngine p = (.ok engine, s₁, p₁)) : s₁.engine = some engine := by
  unfold withEngine at h
  split at h
  · rename_i held hheld
    obtain ⟨rfl, rfl, -⟩ := by simpa using h
    exact hheld
  · split at h
    · simp at h
    · obtain ⟨rfl, rfl, -⟩ := by simpa using h
      rfl

/-! ### With a grammar -/

/-- What a call makes of a text with a grammar. -/
def redactWith (s : Sanitizer G) (parser : Parser G) (grammar : G) (language : String) (code : RawText) :
    Except Failure RawText × Sanitizer G :=
  match code.encode? with
  | none => (.error .unencodable, s)
  | some source => s.redactParsed (parser.outcome grammar source) language code source

theorem redactWith_of_unencodable {code : RawText} (h : code.isPlain = false) (s : Sanitizer G)
    (parser : Parser G) (grammar : G) (language : String) :
    s.redactWith parser grammar language code = (.error .unencodable, s) := by
  rw [redactWith, RawText.encode?_eq_none_iff.2 h]

theorem redactWith_ofList (s : Sanitizer G) (parser : Parser G) (grammar : G) (language : String)
    (code : List Char) :
    s.redactWith parser grammar language (.ofList code) =
      s.redactParsed (parser.outcome grammar (Text.Utf8.encode code)) language (.ofList code)
        (Text.Utf8.encode code) := by
  rw [redactWith, RawText.encode?_ofList]

theorem redactParsed_fst_congr {s s' : Sanitizer G} (h : s.settings = s'.settings) (parsed : Parsed)
    (language : String) (code : RawText) (source : List UInt8) :
    (s.redactParsed parsed language code source).1 =
      (s'.redactParsed parsed language code source).1 := by
  unfold redactParsed redactTree
  rw [h]
  cases parsed with
  | nothing => rfl
  | badGrammar => rfl
  | tree root =>
    cases Language.ofName? language with
    | none => rfl
    | some l =>
      dsimp only
      split <;> rfl

theorem redactParsed_snd (s : Sanitizer G) (parsed : Parsed) (language : String) (code : RawText)
    (source : List UInt8) :
    ∃ counts, (s.redactParsed parsed language code source).2 = { s with counts } := by
  unfold redactParsed redactTree
  cases parsed with
  | nothing => exact ⟨s.counts, rfl⟩
  | badGrammar => exact ⟨s.counts, rfl⟩
  | tree root =>
    cases Language.ofName? language with
    | none => exact ⟨s.counts, rfl⟩
    | some l =>
      dsimp only
      split
      · exact ⟨s.counts, rfl⟩
      · exact ⟨_, rfl⟩

theorem redactWith_fst_congr {s s' : Sanitizer G} (h : s.settings = s'.settings) (parser : Parser G)
    (grammar : G) (language : String) (code : RawText) :
    (s.redactWith parser grammar language code).1 =
      (s'.redactWith parser grammar language code).1 := by
  unfold redactWith
  cases code.encode? with
  | none => rfl
  | some source => exact redactParsed_fst_congr h _ language code source

theorem redactWith_snd (s : Sanitizer G) (parser : Parser G) (grammar : G) (language : String)
    (code : RawText) :
    ∃ counts, (s.redactWith parser grammar language code).2 = { s with counts } := by
  unfold redactWith
  cases code.encode? with
  | none => exact ⟨s.counts, rfl⟩
  | some source => exact s.redactParsed_snd _ language code source

/-- A call that gets a grammar redacts with it. Besides the counts it leaves a grammar set in the engine. -/
theorem sanitize_of_grammar {s s₁ s₂ : Sanitizer G} {p p₁ p₂ : Environment G} {engine : Engine G}
    {language : String} {g : G} {warnings : List String} (he : s.settings.enabled = true)
    (hengine : s.withEngine p = (.ok engine, s₁, p₁))
    (hgrammar : s₁.grammar p₁ language = (.ok (some g), s₂, p₂, warnings)) (code : RawText) :
    ∃ engine' active,
      s.sanitize p code language =
        ⟨(s₂.redactWith (engine.parserIn p₂) g language code).1,
          { (s₂.redactWith (engine.parserIn p₂) g language code).2 with engine := some engine' },
          { p₂ with active }, warnings⟩ ∧
        ∀ q : Environment G, engine'.parserIn q = engine.parserIn q := by
  have hheld : s₂.engine = some engine := by
    have := s₁.grammar_engine p₁ language
    rw [hgrammar] at this
    exact this.trans (engine_of_withEngine hengine)
  cases hcode : code.encode? with
  | none =>
    refine ⟨engine, p₂.active, ?_, fun _ => rfl⟩
    have hs₂ : { s₂ with engine := some engine } = s₂ := by rw [← hheld]
    simp only [sanitize, he, hengine, hgrammar, hcode, redactWith, Bool.not_true, Bool.false_eq_true,
      if_false, hs₂]
  | some source =>
    obtain ⟨engine', active, hparse, hparser⟩ := p₂.parse_snd engine g source
    refine ⟨engine', active, ?_, hparser⟩
    have hpair : p₂.parse engine g source =
        ((engine.parserIn p₂).outcome g source, engine', { p₂ with active }) := by
      rw [← p₂.parse_fst engine g source, ← hparse]
    simp only [sanitize, he, hengine, hgrammar, hcode, redactWith, hpair, Bool.not_true,
      Bool.false_eq_true, if_false]

/-! ### With a tree -/

theorem spliceText_plan {shape : Shape} (hr : shape.Regular) {settings : Settings} {code : List Char}
    {root : Node} (h : WellNested shape (Text.Utf8.encode code) root)
    (hb : Secret.OnBoundaries code root)
    (hplain : settings.replacement.isPlain = true ∨
      Secret.plan shape settings (Text.Utf8.encode code) root = []) :
    spliceText (Text.Utf8.encode code) (Secret.plan shape settings (Text.Utf8.encode code) root) =
      .ok (Secret.rewrite shape settings code root) := by
  have hdecode := RawText.decode?_bytes (Secret.isPlain_rewrite hr h.nested hplain)
  obtain ⟨cs, hcs, hrewrite⟩ := Option.map_eq_some_iff.1 hdecode
  simp only [spliceText, Secret.apply_plan hr h hb hplain, hcs, hrewrite]

theorem rewrite_of_plan_nil {shape : Shape} (hr : shape.Regular) {settings : Settings}
    {code : List Char} {root : Node} (h : WellNested shape (Text.Utf8.encode code) root)
    (hb : Secret.OnBoundaries code root)
    (hnil : Secret.plan shape settings (Text.Utf8.encode code) root = []) :
    Secret.rewrite shape settings code root = .ofList code := by
  have happly := spliceText_plan hr h hb (Or.inr hnil)
  simp only [hnil, spliceText, Splice.apply_nil, Text.Utf8.decode?_encode] at happly
  exact (Except.ok.inj happly).symm

theorem redactTree_eq_rewrite {shape : Shape} (hr : shape.Regular) (s : Sanitizer G) {code : List Char}
    {root : Node} (h : WellNested shape (Text.Utf8.encode code) root)
    (hb : Secret.OnBoundaries code root) :
    (s.redactTree shape (.ofList code) (Text.Utf8.encode code) root).1 =
      if s.settings.replacement.isPlain = true ∨
          Secret.Hitless shape s.settings (Text.Utf8.encode code) root then
        .ok (Secret.rewrite shape s.settings code root)
      else .error .unencodable := by
  simp only [redactTree, ← Secret.plan_eq_nil_iff hr h.nested]
  by_cases hnil : Secret.plan shape s.settings (Text.Utf8.encode code) root = []
  · rw [if_pos (Or.inr hnil), rewrite_of_plan_nil hr h hb hnil, hnil]
    rfl
  · rw [if_neg (by simpa using hnil)]
    by_cases hplain : s.settings.replacement.isPlain = true
    · rw [if_pos (Or.inl hplain)]
      exact spliceText_plan hr h hb (Or.inl hplain)
    · have hlone : s.settings.replacement.isPlain = false := by simpa using hplain
      rw [if_neg (by simp [hplain, hnil])]
      simp only [spliceText, Secret.apply_plan_eq_unencodable hr (Secret.inside_of_mem_plan hr h) hlone hnil]

/-! ### Calls -/

theorem outcome_of_grammar {s s₁ s₂ : Sanitizer G} {p p₁ p₂ : Environment G} {engine : Engine G}
    {language : String} {g : G} {warnings : List String} (he : s.settings.enabled = true)
    (hengine : s.withEngine p = (.ok engine, s₁, p₁))
    (hgrammar : s₁.grammar p₁ language = (.ok (some g), s₂, p₂, warnings)) (code : RawText) :
    (s.sanitize p code language).outcome =
      (s.redactWith (engine.parserIn p₂) g language code).1 := by
  have hs₁ : s₁.settings = s.settings := by
    have := s.withEngine_settings p
    rwa [hengine] at this
  have hs₂ : s₂.settings = s.settings := by
    have := s₁.grammar_settings p₁ language
    rw [hgrammar] at this
    exact this.trans hs₁
  obtain ⟨engine', active, hreply, -⟩ := sanitize_of_grammar he hengine hgrammar code
  rw [hreply, redactWith_fst_congr hs₂]

theorem outcome_of_yieldsTree {s : Sanitizer G} {p : Environment G} {code : List Char}
    {language : String} {l : Language} {root : Node} (hl : Language.ofName? language = some l)
    (he : s.settings.enabled = true)
    (ht : s.YieldsTree p language (Text.Utf8.encode code) root) :
    (s.sanitize p (.ofList code) language).outcome =
      (s.redactTree (Shape.ofLanguage l) (.ofList code) (Text.Utf8.encode code) root).1 := by
  obtain ⟨engine, s₁, p₁, g, s₂, p₂, warnings, hengine, hgrammar, hparse⟩ := ht
  rw [outcome_of_grammar he hengine hgrammar, redactWith_ofList, hparse]
  simp only [redactParsed, hl]

/-- A call that is enabled and yields a well-nested tree with its nodes between characters returns
the text rewritten from the top of the tree, unless there is a hit and the replacement has no bytes.
A text without bytes is refused with the same engine and grammar. -/
theorem sanitize_eq_rewrite (s : Sanitizer G) (p : Environment G) (code : List Char)
    (language : String) (l : Language) (root : Node) (hl : Language.ofName? language = some l)
    (henabled : s.settings.enabled = true)
    (ht : s.YieldsTree p language (Text.Utf8.encode code) root)
    (h : WellNested (Shape.ofLanguage l) (Text.Utf8.encode code) root)
    (hb : Secret.OnBoundaries code root) :
    (s.sanitize p (.ofList code) language).outcome =
        (if s.settings.replacement.isPlain = true ∨
            Secret.Hitless (Shape.ofLanguage l) s.settings (Text.Utf8.encode code) root then
          .ok (Secret.rewrite (Shape.ofLanguage l) s.settings code root)
        else .error .unencodable) ∧
      ∀ lone : RawText, lone.isPlain = false →
        (s.sanitize p lone language).outcome = .error .unencodable := by
  constructor
  · rw [outcome_of_yieldsTree hl henabled ht,
      redactTree_eq_rewrite (Shape.ofLanguage_regular l) s h hb]
  · intro lone hlone
    obtain ⟨engine, s₁, p₁, g, s₂, p₂, warnings, hengine, hgrammar, -⟩ := ht
    rw [outcome_of_grammar henabled hengine hgrammar, redactWith_of_unencodable hlone]

/-- An environment whose only grammar is that of one language, with a parser that yields one tree. -/
def sampleEnvironment (key : String) (root : Node) : Environment Unit where
  registry := { sources := [(key, ⟨fun _ => .ok (some ())⟩)] }
  parser := { takes := fun _ => true, yield := fun _ _ => .rooted root }

/-- The string of the sample is replaced with its quotes; the name before it keeps its letters. -/
theorem sanitize_sample :
    WellNested (Shape.ofLanguage .javascript) (Secret.sampleSource "clé_key") Secret.sampleTree ∧
      Secret.OnBoundaries (Secret.sampleCode "clé_key").toList Secret.sampleTree ∧
      (({} : Sanitizer Unit).sanitize (sampleEnvironment "javascript" Secret.sampleTree)
          (Secret.sampleCode "clé_key") " JavaScript").outcome =
        .ok "clé_key = \x22<REDACTED>\x22" := by
  have hl : Language.ofName? " JavaScript" = some .javascript := by decide +kernel
  have h : WellNested (Shape.ofLanguage .javascript) (Secret.sampleSource "clé_key")
      Secret.sampleTree := by decide +kernel
  have hb : Secret.OnBoundaries (Secret.sampleCode "clé_key").toList Secret.sampleTree := by
    decide +kernel
  have hyields : ({} : Sanitizer Unit).YieldsTree (sampleEnvironment "javascript" Secret.sampleTree)
      " JavaScript" (Secret.sampleSource "clé_key") Secret.sampleTree :=
    ⟨_, _, _, (), _, _, _, rfl, rfl, rfl⟩
  have hrewrite : Secret.rewrite (Shape.ofLanguage .javascript) {}
      (Secret.sampleCode "clé_key").toList Secret.sampleTree =
        "clé_key = \x22<REDACTED>\x22" := by decide +kernel
  have hreply := (sanitize_eq_rewrite {} _ _ _ .javascript _ hl rfl hyields h hb).1
  rw [if_pos (Or.inl (by decide)), hrewrite] at hreply
  exact ⟨h, hb, hreply⟩

def loneReplacement : Settings := { replacement := [.lone .first] }

/-- The call is enabled and yields a well-nested tree, but the replacement of its hit has no bytes. -/
theorem not_sanitize_lone :
    ({ settings := loneReplacement } : Sanitizer Unit).YieldsTree
        (sampleEnvironment "javascript" Secret.sampleTree) "javascript" (Secret.sampleSource "clé_key")
        Secret.sampleTree ∧
      WellNested (Shape.ofLanguage .javascript) (Secret.sampleSource "clé_key") Secret.sampleTree ∧
      Secret.OnBoundaries (Secret.sampleCode "clé_key").toList Secret.sampleTree ∧
      (({ settings := loneReplacement } : Sanitizer Unit).sanitize
          (sampleEnvironment "javascript" Secret.sampleTree) (Secret.sampleCode "clé_key")
          "javascript").outcome = .error .unencodable := by
  have hl : Language.ofName? "javascript" = some .javascript := by decide +kernel
  have hyields : ({ settings := loneReplacement } : Sanitizer Unit).YieldsTree
      (sampleEnvironment "javascript" Secret.sampleTree) "javascript"
      (Secret.sampleSource "clé_key") Secret.sampleTree :=
    ⟨_, _, _, (), _, _, _, rfl, rfl, rfl⟩
  have h : WellNested (Shape.ofLanguage .javascript) (Secret.sampleSource "clé_key")
      Secret.sampleTree := by decide +kernel
  have hb : Secret.OnBoundaries (Secret.sampleCode "clé_key").toList Secret.sampleTree := by
    decide +kernel
  have hrefused : ¬ (loneReplacement.replacement.isPlain = true ∨
      Secret.Hitless (Shape.ofLanguage .javascript) loneReplacement (Secret.sampleSource "clé_key")
        Secret.sampleTree) := by decide +kernel
  have hreply := outcome_of_yieldsTree hl rfl hyields
  rw [redactTree_eq_rewrite (Shape.ofLanguage_regular .javascript) _ h hb] at hreply
  exact ⟨hyields, h, hb, hreply.trans (if_neg hrefused)⟩

end Sanitizer

end Redact
