import Mathlib.Tactic.ByContra
import Redact.Session.Engine

/-! # Runs of the engine

What can happen to the engine of a process, in any order: a set-up, a reset, a use of the shared engine
into which a reset may fall, an engine of one's own, and a runtime that breaks or heals. Between the
steps the host is settled: no set-up is under way, and a shared engine stands only where the set-up is
done (`Settled`). Three equations say all that a step can do to a settled host (`perform_setUp`,
`perform_fresh`, `perform_obtain`). From them follow what a step brings in each phase (`Lawful`) and
that a shared engine stays until a reset and is never seen again after it (`run_shared_iff`). -/

namespace Redact.Host

/-- A step of a run. In `obtain` a reset follows the set-up call of the given number, if that call
returns; `probe` is what is wrong with the runtime from now on. -/
inductive Step where
  | setUp
  | reset
  | obtain (resetAfter : Option Nat)
  | fresh
  | probe (defect : Option String)
  deriving DecidableEq, Repr

def Step.SetsUp : Step → Prop
  | .setUp | .obtain _ | .fresh => True
  | .reset | .probe _ => False

/-- What a step brings, an engine if it brings one, and the host after it. -/
def perform (h : Host) : Step → Except Unavailable (Option Nat) × Host
  | .setUp => (h.setUp.1.map fun _ => none, h.setUp.2)
  | .reset => (.ok none, h.reset)
  | .obtain at? => ((h.obtainWith at?).1.map some, (h.obtainWith at?).2.2)
  | .fresh => (h.fresh.1.map some, h.fresh.2)
  | .probe defect => (.ok none, { h with defect })

def outcome (h : Host) (step : Step) : Except Unavailable (Option Nat) := (h.perform step).1

def after (h : Host) (step : Step) : Host := (h.perform step).2

def run (h : Host) (steps : List Step) : Host := steps.foldl after h

/-- The number of set-up calls that return when the shared engine is asked for. Only the last call can
fail, and then nothing is obtained. -/
def returnedCalls (h : Host) (at? : Option Nat) : Nat :=
  match h.obtainWith at? with
  | (.ok _, calls, _) => calls
  | (.error _, calls, _) => calls - 1

/-- In the step there is a reset: it is one, or one falls into it. -/
def Resets (h : Host) : Step → Prop
  | .reset => True
  | .obtain at? => ∃ n, at? = some n ∧ 1 ≤ n ∧ n ≤ h.returnedCalls at?
  | _ => False

/-- In the run there is no reset. -/
def Quiet (h : Host) : List Step → Prop
  | [] => True
  | step :: rest => ¬ h.Resets step ∧ (h.after step).Quiet rest

/-- The step makes the engine the shared one. -/
def Installs (h : Host) (step : Step) (engine : Nat) : Prop :=
  h.shared ≠ some engine ∧ (h.after step).shared = some engine

structure Settled (h : Host) : Prop where
  not_inProgress : h.phase ≠ .inProgress
  ready_of_shared : ∀ engine, h.shared = some engine → h.phase = .ready
  lt_made : ∀ engine, h.shared = some engine → engine < h.made

/-- What holds of a host between two steps, and of each step that can come next. -/
structure Lawful (h : Host) : Prop where
  not_inProgress : h.phase ≠ .inProgress
  ready_of_shared : h.shared ≠ none → h.phase = .ready
  stays_ready : h.phase = .ready → ∀ step, ¬ h.Resets step →
    (∃ engine?, h.outcome step = .ok engine?) ∧ (h.after step).phase = .ready
  unavailable : h.phase ≠ .ready → ∀ cause, h.defect = some cause → ∀ step, step.SetsUp →
    h.outcome step = .error ⟨cause⟩ ∧ (h.after step).phase = .failed ∧
      (h.after step).shared = none
  available : h.phase ≠ .ready → h.defect = none → ∀ step, step.SetsUp →
    (∃ engine?, h.outcome step = .ok engine?) ∧ (h.after step).phase = .ready

/-! ### One step -/

theorem perform_setUp (h : Host) :
    h.perform .setUp =
      if h.phase = .ready then (.ok none, h)
      else
        match h.defect with
        | some cause => (.error ⟨cause⟩, { h with phase := .failed })
        | none => (.ok none, { h with phase := .ready }) := by
  by_cases hr : h.phase = .ready
  · simp [perform, setUp, hr, Except.map]
  · cases hd : h.defect <;> simp [perform, setUp, hr, hd, Except.map]

theorem perform_fresh (h : Host) :
    h.perform .fresh =
      if h.phase = .ready then (.ok (some h.made), { h with made := h.made + 1 })
      else
        match h.defect with
        | some cause => (.error ⟨cause⟩, { h with phase := .failed })
        | none => (.ok (some h.made), { h with phase := .ready, made := h.made + 1 }) := by
  by_cases hr : h.phase = .ready
  · simp [perform, fresh, makeEngine, hr, Except.map]
  · cases hd : h.defect <;> simp [perform, fresh, makeEngine, setUpCall, setUp, hr, hd, Except.map]

/-- Where the set-up is done, or the runtime works, an engine is brought. -/
theorem obtain_of_able {h : Host} (ha : h.phase = .ready ∨ h.defect = none) :
    ∃ engine, h.obtain = (.ok engine, h.obtain.2) ∧ h.obtain.2.defect = h.defect := by
  unfold obtain obtainWith setUpCall
  by_cases hr : h.phase = .ready
  · cases hsh : h.shared <;> simp [setUp, makeEngine, hr, hsh]
  · have hd : h.defect = none := ha.resolve_left hr
    cases hsh : h.shared <;> simp [setUp, makeEngine, hr, hsh, hd]

theorem obtain_of_broken {h : Host} (hr : h.phase ≠ .ready) {cause : String}
    (hd : h.defect = some cause) : h.obtain = (.error ⟨cause⟩, { h with phase := .failed }) := by
  simp [obtain, obtainWith, setUpCall, setUp, hr, hd]

theorem shared_eq_none {h : Host} (hs : h.Settled) (hr : h.phase ≠ .ready) : h.shared = none := by
  cases hsh : h.shared with
  | none => rfl
  | some engine => exact absurd (hs.ready_of_shared engine hsh) hr

/-- The use of the shared engine and the number of its set-up calls. A reset after the first call
leaves a host that has to be set up again. -/
theorem obtainWith_eq {h : Host} (hs : h.Settled) (at? : Option Nat) :
    h.obtainWith at? =
      if h.phase = .ready ∧ at? ≠ some 1 then
        match h.shared with
        | some engine => (.ok engine, 1, h)
        | none => (.ok h.made, 1, { h with shared := some h.made, made := h.made + 1 })
      else
        match h.defect with
        | some cause =>
          (.error ⟨cause⟩, if h.phase = .ready then 2 else 1,
            { h with phase := .failed, shared := none })
        | none =>
          (.ok h.made, if at? = some 1 then 2 else 1,
            { h with phase := .ready, shared := some h.made, made := h.made + 1 }) := by
  -- A reset after the first call leaves a host to be set up again; after the second call, if there is
  -- one, nothing is left to interrupt.
  by_cases hr : h.phase = .ready
  · by_cases h1 : at? = some 1
    · cases hd : h.defect <;>
        simp [obtainWith, setUpCall, setUp, makeEngine, reset, hr, h1, hd]
    · cases hsh : h.shared <;>
        simp [obtainWith, setUpCall, setUp, makeEngine, hr, h1, hsh]
  · have hsh := shared_eq_none hs hr
    by_cases h1 : at? = some 1
    · cases hd : h.defect <;>
        simp [obtainWith, setUpCall, setUp, makeEngine, reset, hr, h1, hd, hsh]
    · cases hd : h.defect <;>
        simp [obtainWith, setUpCall, setUp, makeEngine, hr, h1, hd, hsh]

theorem perform_obtain {h : Host} (hs : h.Settled) (at? : Option Nat) :
    h.perform (.obtain at?) =
      if h.phase = .ready ∧ at? ≠ some 1 then
        match h.shared with
        | some engine => (.ok (some engine), h)
        | none => (.ok (some h.made), { h with shared := some h.made, made := h.made + 1 })
      else
        match h.defect with
        | some cause => (.error ⟨cause⟩, { h with phase := .failed, shared := none })
        | none =>
          (.ok (some h.made),
            { h with phase := .ready, shared := some h.made, made := h.made + 1 }) := by
  rw [perform, obtainWith_eq hs]
  split
  · cases h.shared <;> rfl
  · cases h.defect <;> rfl

/-- A reset falls into the use of the shared engine only after its first set-up call. -/
theorem resets_obtain_iff {h : Host} (hs : h.Settled) {at? : Option Nat} :
    h.Resets (.obtain at?) ↔ at? = some 1 ∧ (h.phase = .ready ∨ h.defect = none) := by
  have hcalls : h.returnedCalls at? =
      if h.phase = .ready ∧ at? ≠ some 1 then 1
      else if h.defect = none then (if at? = some 1 then 2 else 1)
      else if h.phase = .ready then 1 else 0 := by
    rw [returnedCalls, obtainWith_eq hs]
    by_cases hr : h.phase = .ready <;> by_cases h1 : at? = some 1 <;>
      cases hsh : h.shared <;> cases hd : h.defect <;> simp [hr, h1]
  rw [Resets, hcalls]
  constructor
  · rintro ⟨n, rfl, hpos, hle⟩
    by_cases hr : h.phase = .ready <;> by_cases hd : h.defect = none <;> by_cases h1 : n = 1 <;>
      simp [hr, hd, h1] at hle ⊢ <;> omega
  · rintro ⟨rfl, hready⟩
    refine ⟨1, rfl, Nat.le_refl 1, ?_⟩
    rcases hready with hr | hd
    · by_cases hd : h.defect = none <;> simp [hr, hd]
    · simp [hd]

/-- A step keeps the shared engine, installs a new one, or leaves none. It installs one only where
there was none or a reset fell into it, and it leaves none only after a reset or where nothing was set
up. -/
theorem after_cases {h : Host} (hs : h.Settled) (step : Step) :
    (¬ h.Resets step ∧ (h.after step).shared = h.shared ∧ h.made ≤ (h.after step).made ∧
        ((h.after step).phase = h.phase ∨
          h.phase ≠ .ready ∧ (h.after step).phase ≠ .inProgress)) ∨
      ((h.Resets step ∨ h.shared = none) ∧ (h.after step).shared = some h.made ∧
        h.made < (h.after step).made ∧ (h.after step).phase = .ready) ∨
      ((h.Resets step ∨ h.phase ≠ .ready) ∧ (h.after step).shared = none ∧
        h.made ≤ (h.after step).made ∧ (h.after step).phase ≠ .inProgress) := by
  cases step with
  | setUp =>
    refine Or.inl ⟨id, ?_⟩
    rw [after, perform_setUp]
    by_cases hr : h.phase = .ready
    · simp [hr]
    · cases h.defect <;> simp [hr]
  | reset =>
    refine Or.inr (Or.inr ⟨Or.inl trivial, rfl, Nat.le_refl _, ?_⟩)
    simp [after, perform, reset]
  | obtain at? =>
    rw [resets_obtain_iff hs, after, perform_obtain hs]
    by_cases hkeep : h.phase = .ready ∧ at? ≠ some 1
    · rw [if_pos hkeep]
      cases hsh : h.shared with
      | some engine => simp [hkeep, hsh]
      | none => simp [hkeep]
    · have hagain : h.phase = .ready → at? = some 1 := by
        intro hr
        by_contra h1
        exact hkeep ⟨hr, h1⟩
      rw [if_neg hkeep]
      cases hd : h.defect with
      | some cause =>
        refine Or.inr (Or.inr ⟨?_, rfl, Nat.le_refl _, by simp⟩)
        by_cases hr : h.phase = .ready
        · exact Or.inl ⟨hagain hr, Or.inl hr⟩
        · exact Or.inr hr
      | none =>
        refine Or.inr (Or.inl ⟨?_, rfl, Nat.lt_succ_self _, rfl⟩)
        by_cases hr : h.phase = .ready
        · exact Or.inl ⟨hagain hr, Or.inl hr⟩
        · exact Or.inr (shared_eq_none hs hr)
  | fresh =>
    refine Or.inl ⟨id, ?_⟩
    rw [after, perform_fresh]
    by_cases hr : h.phase = .ready
    · simp [hr]
    · cases h.defect <;> simp [hr]
  | probe defect => exact Or.inl ⟨id, rfl, Nat.le_refl _, Or.inl rfl⟩

theorem settled_reset (h : Host) : h.reset.Settled where
  not_inProgress := by simp [reset]
  ready_of_shared := by simp [reset]
  lt_made := by simp [reset]

theorem settled_after {h : Host} (hs : h.Settled) (step : Step) : (h.after step).Settled := by
  rcases after_cases hs step with
    ⟨-, hshared, hmade, hphase⟩ | ⟨-, hshared, hmade, hphase⟩ | ⟨-, hshared, -, hphase⟩
  · constructor
    · rcases hphase with hphase | ⟨-, hphase⟩
      · rw [hphase]
        exact hs.not_inProgress
      · exact hphase
    · intro engine he
      have hready : h.phase = .ready := hs.ready_of_shared engine (hshared ▸ he)
      rcases hphase with hphase | ⟨hno, -⟩
      · rw [hphase, hready]
      · exact absurd hready hno
    · intro engine he
      have hlt : engine < h.made := hs.lt_made engine (hshared ▸ he)
      omega
  · constructor
    · simp [hphase]
    · exact fun _ _ => hphase
    · intro engine he
      obtain rfl : h.made = engine := Option.some.inj (hshared.symm.trans he)
      exact hmade
  · constructor
    · exact hphase
    · intro engine he
      simp [hshared] at he
    · intro engine he
      simp [hshared] at he

theorem stays_ready_of_settled {h : Host} (hs : h.Settled) (hr : h.phase = .ready) {step : Step}
    (hstep : ¬ h.Resets step) :
    (∃ engine?, h.outcome step = .ok engine?) ∧ (h.after step).phase = .ready := by
  rw [outcome, after]
  cases step with
  | setUp => simp [perform_setUp, hr]
  | reset => exact absurd trivial hstep
  | obtain at? =>
    have h1 : at? ≠ some 1 := by
      intro h1
      exact hstep ((resets_obtain_iff hs).mpr ⟨h1, Or.inl hr⟩)
    rw [perform_obtain hs, if_pos ⟨hr, h1⟩]
    cases h.shared <;> simp [hr]
  | fresh => simp [perform_fresh, hr]
  | probe defect => simp [perform, hr]

theorem unavailable_of_settled {h : Host} (hs : h.Settled) (hr : h.phase ≠ .ready) {cause : String}
    (hd : h.defect = some cause) {step : Step} (hstep : step.SetsUp) :
    h.outcome step = .error ⟨cause⟩ ∧ (h.after step).phase = .failed ∧
      (h.after step).shared = none := by
  have hsh : h.shared = none := shared_eq_none hs hr
  rw [outcome, after]
  cases step with
  | setUp => simp [perform_setUp, hr, hd, hsh]
  | reset => exact absurd hstep id
  | obtain at? => simp [perform_obtain hs, hr, hd]
  | fresh => simp [perform_fresh, hr, hd, hsh]
  | probe defect => exact absurd hstep id

theorem available_of_settled {h : Host} (hs : h.Settled) (hr : h.phase ≠ .ready)
    (hd : h.defect = none) {step : Step} (hstep : step.SetsUp) :
    (∃ engine?, h.outcome step = .ok engine?) ∧ (h.after step).phase = .ready := by
  rw [outcome, after]
  cases step with
  | setUp => simp [perform_setUp, hr, hd]
  | reset => exact absurd hstep id
  | obtain at? => simp [perform_obtain hs, hr, hd]
  | fresh => simp [perform_fresh, hr, hd]
  | probe defect => exact absurd hstep id

theorem lawful_of_settled {h : Host} (hs : h.Settled) : h.Lawful where
  not_inProgress := hs.not_inProgress
  ready_of_shared := by
    intro hsh
    by_contra hr
    exact hsh (shared_eq_none hs hr)
  stays_ready := fun hr _ hstep => stays_ready_of_settled hs hr hstep
  unavailable := fun hr _ hd _ hstep => unavailable_of_settled hs hr hd hstep
  available := fun hr hd _ hstep => available_of_settled hs hr hd hstep

/-- An engine that a host does not share any more, and never will again. -/
def Gone (h : Host) (engine : Nat) : Prop := engine < h.made ∧ h.shared ≠ some engine

/-- An engine is gone after a step if it was not shared or the step resets. -/
theorem gone_after {h : Host} (hs : h.Settled) {engine : Nat} (hlt : engine < h.made) {step : Step}
    (hreset : h.shared = some engine → h.Resets step) : (h.after step).Gone engine := by
  rcases after_cases hs step with
    ⟨hno, hshared, hmade, -⟩ | ⟨-, hshared, hmade, -⟩ | ⟨-, hshared, hmade, -⟩
  · refine ⟨by omega, ?_⟩
    rw [hshared]
    exact mt hreset hno
  -- The new engine has a number that none had before.
  · refine ⟨by omega, ?_⟩
    rw [hshared]
    intro heq
    have hsame : h.made = engine := Option.some.inj heq
    omega
  · exact ⟨by omega, by simp [hshared]⟩

theorem shared_after {h : Host} (hs : h.Settled) {engine : Nat} (hsh : h.shared = some engine)
    {step : Step} (hstep : ¬ h.Resets step) : (h.after step).shared = some engine := by
  rcases after_cases hs step with ⟨-, hshared, -, -⟩ | ⟨hcause, -⟩ | ⟨hcause, -⟩
  · rw [hshared, hsh]
  · rcases hcause with hcause | hcause
    · exact absurd hcause hstep
    · simp [hsh] at hcause
  · rcases hcause with hcause | hcause
    · exact absurd hcause hstep
    · exact absurd (hs.ready_of_shared engine hsh) hcause

/-! ### Runs -/

theorem run_cons (h : Host) (step : Step) (rest : List Step) :
    h.run (step :: rest) = (h.after step).run rest := rfl

theorem run_append (h : Host) (xs ys : List Step) : h.run (xs ++ ys) = (h.run xs).run ys :=
  List.foldl_append

theorem settled_run {h : Host} (hs : h.Settled) (steps : List Step) : (h.run steps).Settled := by
  induction steps generalizing h with
  | nil => exact hs
  | cons step rest ih => exact ih (settled_after hs step)

theorem gone_run {h : Host} (hs : h.Settled) {engine : Nat} (hg : h.Gone engine)
    (steps : List Step) : (h.run steps).Gone engine := by
  induction steps generalizing h with
  | nil => exact hg
  | cons step rest ih => exact ih (settled_after hs step) (gone_after hs hg.1 fun hsh => absurd hsh hg.2)

/-- A shared engine is the shared one after a run exactly if no reset came. -/
theorem run_shared_iff {h : Host} (hs : h.Settled) {engine : Nat} (hsh : h.shared = some engine)
    (steps : List Step) : (h.run steps).shared = some engine ↔ h.Quiet steps := by
  induction steps generalizing h with
  | nil => simp [run, Quiet, hsh]
  | cons step rest ih =>
    rw [run_cons, Quiet]
    by_cases hstep : h.Resets step
    · have hgone := gone_run (settled_after hs step)
        (gone_after hs (hs.lt_made engine hsh) fun _ => hstep) rest
      simp [hstep, hgone.2]
    · rw [ih (settled_after hs step) (shared_after hs hsh hstep)]
      simp [hstep]

theorem exists_installs {h : Host} {engine : Nat} {steps : List Step}
    (hsh : h.shared ≠ some engine) (hend : (h.run steps).shared = some engine) :
    ∃ front install back, steps = front ++ install :: back ∧
      (h.run front).Installs install engine := by
  induction steps generalizing h with
  | nil => exact absurd hend hsh
  | cons step rest ih =>
    by_cases hstep : (h.after step).shared = some engine
    · exact ⟨[], step, rest, rfl, hsh, hstep⟩
    · obtain ⟨front, install, back, rfl, hinstall⟩ := ih hstep hend
      exact ⟨step :: front, install, back, rfl, hinstall⟩

theorem shared_of_outcome {h : Host} (hs : h.Settled) {at? : Option Nat} {engine : Nat}
    (hout : h.outcome (.obtain at?) = .ok (some engine)) :
    (h.after (.obtain at?)).shared = some engine := by
  rw [outcome, perform_obtain hs] at hout
  rw [after, perform_obtain hs]
  split at hout
  · rename_i hkeep
    rw [if_pos hkeep]
    cases hsh : h.shared <;> simp_all
  · rename_i hkeep
    rw [if_neg hkeep]
    cases hd : h.defect <;> simp_all

/-- The engine of one use is the engine of a later one exactly if, from where it was installed on, no
reset came. -/
theorem outcome_eq_iff_quiet {h : Host} (hs : h.Settled) {mid : List Step} {at₂ : Option Nat}
    {e₁ e₂ : Nat} (hsh : h.shared = some e₁)
    (h₂ : (h.run mid).outcome (.obtain at₂) = .ok (some e₂)) :
    e₁ = e₂ ↔ h.Quiet (mid ++ [.obtain at₂]) := by
  have hend : (h.run (mid ++ [.obtain at₂])).shared = some e₂ := by
    rw [run_append]
    exact shared_of_outcome (settled_run hs mid) h₂
  rw [← run_shared_iff hs hsh, hend, Option.some_inj, eq_comm]

/-- From a reset host each run is lawful, and two uses of the shared engine bring the same one exactly
if no reset came after it was installed and before the second use was done. -/
theorem run_lawful (start : Host) :
    (∀ steps, (start.reset.run steps).Lawful) ∧
      ∀ before mid at₁ at₂ e₁ e₂,
        (start.reset.run before).outcome (.obtain at₁) = .ok (some e₁) →
        (start.reset.run (before ++ .obtain at₁ :: mid)).outcome (.obtain at₂) = .ok (some e₂) →
          (∃ front install back, before ++ [.obtain at₁] = front ++ install :: back ∧
            (start.reset.run front).Installs install e₁) ∧
          ∀ front install back, before ++ [.obtain at₁] = front ++ install :: back →
            (start.reset.run front).Installs install e₁ →
              (e₁ = e₂ ↔ (start.reset.run (front ++ [install])).Quiet
                (back ++ mid ++ [.obtain at₂])) := by
  have hs : ∀ steps, (start.reset.run steps).Settled := settled_run (settled_reset start)
  refine ⟨fun steps => lawful_of_settled (hs steps), ?_⟩
  intro before mid at₁ at₂ e₁ e₂ h₁ h₂
  -- The first use ends with its engine shared, and at the start none was: some step installed it.
  constructor
  · apply exists_installs
    · simp [reset]
    · rw [run_append]
      exact shared_of_outcome (hs before) h₁
  · intro front install back hsplit hinstall
    have hsh : (start.reset.run (front ++ [install])).shared = some e₁ := by
      rw [run_append]
      exact hinstall.2
    apply outcome_eq_iff_quiet (hs _) hsh
    have hall : before ++ .obtain at₁ :: mid = front ++ [install] ++ (back ++ mid) := by
      rw [List.append_cons, hsplit, List.append_assoc, List.append_assoc, List.cons_append,
        List.singleton_append]
    rwa [hall, run_append] at h₂

theorem run_lawful_sample :
    ((({} : Host).reset.run [.obtain none, .fresh]).Lawful ∧
      ({} : Host).reset.outcome (.obtain none) = .ok (some 0) ∧
      (({} : Host).reset.run [.obtain none, .fresh]).outcome (.obtain none) = .ok (some 0) ∧
      (({} : Host).reset.run [.obtain none, .fresh]).outcome (.obtain (some 1)) = .ok (some 2)) ∧
      (({} : Host).reset.run [.obtain none]).Quiet [.fresh, .obtain none] ∧
      ¬ (({} : Host).reset.run [.obtain none]).Quiet [.fresh, .obtain (some 1)] := by
  have hinstall : ({} : Host).reset.Installs (.obtain none) 0 := ⟨by decide, by decide⟩
  obtain ⟨hlawful, hsame⟩ := run_lawful {}
  refine ⟨⟨hlawful _, rfl, rfl, rfl⟩, ?_, ?_⟩
  · exact ((hsame [] [.fresh] none none 0 0 rfl rfl).2 [] _ [] rfl hinstall).mp rfl
  · intro hquiet
    have heq := ((hsame [] [.fresh] none (some 1) 0 2 rfl rfl).2 [] _ [] rfl hinstall).mpr hquiet
    simp at heq

end Redact.Host
