import Redact.Proofs.Session.History

/-! # All that can happen to a session

A process is not used by one sanitizer alone. Between two calls the engine can be set up, reset or handed
out elsewhere, its runtime can break or heal, and the registry can be asked or cleared. What each event
leaves behind follows from the three ways in which a call can go: it is disabled, it lacks an engine, or it
asks the registry (`call_cases`). No event changes the parser (`parser_happen`), the registry only goes
through steps of its own (`registry_happen`), and an engine that is held stays held (`engine_course`). -/

namespace Redact.Session

variable {G : Type}

/-- A call, new settings, the counts reset or read, a step of the engine of the process, or one of the
registry. -/
inductive Event where
  | sanitize (code : RawText) (language : String)
  | configure (settings : Settings)
  | resetStats
  | getStats
  | host (step : Host.Step)
  | registry (step : Registry.Step)

def withHost (σ : Session G) (host : Host) : Session G :=
  { σ with environment := { σ.environment with host } }

def happen (σ : Session G) : Event → Session G
  | .sanitize code language => σ.after (.sanitize code language)
  | .configure settings => σ.after (.configure settings)
  | .resetStats => σ.after .resetStats
  | .getStats => σ
  | .host step => σ.withHost (σ.environment.host.after step)
  | .registry step => σ.withRegistry (σ.registry.after step)

def course (σ : Session G) (events : List Event) : Session G := events.foldl happen σ

theorem course_append (σ : Session G) (xs ys : List Event) :
    σ.course (xs ++ ys) = (σ.course xs).course ys :=
  List.foldl_append

theorem parser_withHost (σ : Session G) (host : Host) : (σ.withHost host).parser = σ.parser := by
  unfold parser withHost
  cases σ.sanitizer.engine with
  | none => rfl
  | some engine => cases engine <;> rfl

/-! ### One call -/

/-- An enabled call that lacks an engine ends there. It leaves the mark of the failed set-up and nothing
else. -/
theorem sanitize_of_lacks {σ : Session G} {cause : String} (h : σ.Lacks cause)
    (he : σ.sanitizer.settings.enabled = true) (code : RawText) (language : String) :
    (σ.reply code language).outcome = .error (.unavailable ⟨cause⟩) ∧
      σ.after (.sanitize code language) =
        σ.withHost { σ.environment.host with phase := .failed } := by
  obtain ⟨hengine, hphase, hdefect⟩ := h
  have hobtain := Host.obtain_of_broken hphase hdefect
  have hreply : σ.reply code language = ⟨.error (.unavailable ⟨cause⟩), σ.sanitizer,
      { σ.environment with host := { σ.environment.host with phase := .failed } }, []⟩ := by
    simp [reply, Sanitizer.sanitize, he, Sanitizer.withEngine, hengine, hobtain]
  refine ⟨by rw [hreply], ?_⟩
  rw [after, hreply]
  rfl

/-- The three ways in which a call can go. -/
theorem call_cases (σ : Session G) :
    σ.sanitizer.settings.enabled = false ∨
      σ.sanitizer.settings.enabled = true ∧
        ((∃ cause, σ.Lacks cause) ∨ ∀ cause, ¬ σ.Lacks cause) := by
  cases σ.sanitizer.settings.enabled with
  | false => exact Or.inl rfl
  | true => exact Or.inr ⟨rfl, or_iff_not_imp_left.2 not_exists.1⟩

/-- All that a call can do to the session: nothing, leave the mark of a failed set-up, or ask the registry
with an engine at hand. -/
theorem happen_sanitize_cases (σ : Session G) (code : RawText) (language : String) :
    σ.happen (.sanitize code language) = σ ∨
      (∃ cause, σ.Lacks cause ∧ σ.happen (.sanitize code language) =
        σ.withHost { σ.environment.host with phase := .failed }) ∨
      (σ.happen (.sanitize code language)).registry = σ.registry.after (.resolve language) ∧
        (σ.happen (.sanitize code language)).parser = σ.parser ∧
        (σ.happen (.sanitize code language)).sanitizer.engine ≠ none := by
  rw [happen]
  rcases σ.call_cases with he | ⟨he, ⟨cause, hlacks⟩ | hable⟩
  · exact Or.inl (sanitize_of_disabled he code language).2
  · exact Or.inr (Or.inl ⟨cause, hlacks, (sanitize_of_lacks hlacks he code language).2⟩)
  · obtain ⟨-, hregistry, hagrees, hheld, -⟩ := sanitize_of_able hable he code language
    exact Or.inr (Or.inr ⟨hregistry, hagrees.parser, hheld⟩)

/-! ### Events and what they keep -/

theorem parser_happen (σ : Session G) (event : Event) : (σ.happen event).parser = σ.parser := by
  cases event with
  | sanitize code language =>
    rcases σ.happen_sanitize_cases code language with h | ⟨cause, -, h⟩ | ⟨-, hparser, -⟩
    · rw [h]
    · rw [h, parser_withHost]
    · exact hparser
  | configure settings => rfl
  | resetStats => rfl
  | getStats => rfl
  | host step => exact σ.parser_withHost _
  | registry step => exact σ.parser_withRegistry _

theorem registry_happen (σ : Session G) (event : Event) :
    (σ.happen event).registry = σ.registry ∨
      ∃ step, (σ.happen event).registry = σ.registry.after step := by
  cases event with
  | sanitize code language =>
    rcases σ.happen_sanitize_cases code language with h | ⟨cause, -, h⟩ | ⟨hregistry, -, -⟩
    · rw [h]
      exact Or.inl rfl
    · rw [h]
      exact Or.inl rfl
    · exact Or.inr ⟨.resolve language, hregistry⟩
  | configure settings => exact Or.inl rfl
  | resetStats => exact Or.inl rfl
  | getStats => exact Or.inl rfl
  | host step => exact Or.inl rfl
  | registry step => exact Or.inr ⟨step, σ.registry_withRegistry _⟩

theorem engine_happen {σ : Session G} (h : σ.sanitizer.engine ≠ none) (event : Event) :
    (σ.happen event).sanitizer.engine ≠ none := by
  cases event with
  | sanitize code language =>
    rcases σ.happen_sanitize_cases code language with hsame | ⟨cause, hlacks, -⟩ | ⟨-, -, hheld⟩
    · rwa [hsame]
    · exact absurd hlacks.1 h
    · exact hheld
  | configure settings => exact h
  | resetStats => exact h
  | getStats => exact h
  | host step => exact h
  | registry step =>
    rw [happen, engine_withRegistry]
    exact h

theorem engine_course {σ : Session G} (h : σ.sanitizer.engine ≠ none) (events : List Event) :
    (σ.course events).sanitizer.engine ≠ none := by
  induction events generalizing σ with
  | nil => exact h
  | cons event rest ih => exact ih (engine_happen h event)

end Redact.Session
