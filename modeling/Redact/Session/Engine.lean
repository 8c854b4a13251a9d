/-! # The shared parser engine

A process has one engine that is set up when it is first needed. Setting it up probes the parser
runtime; a probe that fails leaves the state `failed`, and the next use tries again. An operation
keeps its effect on the host also when it fails. -/

namespace Redact

inductive Phase where
  | notStarted
  | inProgress
  | ready
  | failed
  deriving DecidableEq, Repr

def Phase.name : Phase → String
  | notStarted => "not_started"
  | inProgress => "in_progress"
  | ready => "ready"
  | failed => "failed"

structure Unavailable where
  cause : String
  deriving DecidableEq, Repr

def Unavailable.message (e : Unavailable) : String :=
  "Tree-sitter parser engine is unavailable: " ++ e.cause

/-- The engines of a process: the phase, the shared engine if there is one, the number of engines
made so far, and what is wrong with the runtime. Engines are told apart by their number. -/
structure Host where
  phase : Phase := .notStarted
  shared : Option Nat := none
  made : Nat := 0
  defect : Option String := none
  deriving DecidableEq, Repr

namespace Host

def setUp (h : Host) : Except Unavailable Unit × Host :=
  if h.phase = .ready then (.ok (), h)
  else
    let h := { h with phase := .inProgress }
    match h.defect with
    | some cause => (.error ⟨cause⟩, { h with phase := .failed })
    | none => (.ok (), { h with phase := .ready })

/-- Back to the state before any set-up, without a shared engine. -/
def reset (h : Host) : Host := { h with phase := .notStarted, shared := none }

/-- The set-up as call number `call`; if it succeeds and is call number `at?`, a reset follows. -/
def setUpCall (at? : Option Nat) (call : Nat) (h : Host) : Except Unavailable Unit × Host :=
  match h.setUp with
  | (.ok (), h) => (.ok (), if at? = some call then h.reset else h)
  | (.error e, h) => (.error e, h)

/-- A new engine, after the set-up if it is not ready; the number of set-up calls follows `call`. -/
def makeEngine (at? : Option Nat) (call : Nat) (h : Host) : Except Unavailable Nat × Nat × Host :=
  if h.phase = .ready then (.ok h.made, call, { h with made := h.made + 1 })
  else
    match h.setUpCall at? (call + 1) with
    | (.ok (), h) => (.ok h.made, call + 1, { h with made := h.made + 1 })
    | (.error e, h) => (.error e, call + 1, h)

/-- The shared engine, made on first use, and the number of set-up calls. A reset comes between
after call number `at?`. -/
def obtainWith (at? : Option Nat) (h : Host) : Except Unavailable Nat × Nat × Host :=
  match h.setUpCall at? 1 with
  | (.error e, h) => (.error e, 1, h)
  | (.ok (), h) =>
    match h.shared with
    | some engine => (.ok engine, 1, h)
    | none =>
      match h.makeEngine at? 1 with
      | (.error e, calls, h) => (.error e, calls, h)
      | (.ok engine, calls, h) =>
        match h.shared with
        | some other => (.ok other, calls, h)
        | none => (.ok engine, calls, { h with shared := some engine })

def obtain (h : Host) : Except Unavailable Nat × Host :=
  let (outcome, _, h) := h.obtainWith none
  (outcome, h)

def fresh (h : Host) : Except Unavailable Nat × Host :=
  let (outcome, _, h) := h.makeEngine none 0
  (outcome, h)

end Host

end Redact
