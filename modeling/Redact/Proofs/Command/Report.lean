import Mathlib.Data.List.Basic
import Redact.Command.Report

/-! # What a report keeps

Whatever is said, the files stay as they are, and what is said ends a run only if a message cannot be shown,
as its tags are not in order. A message without brackets and backslashes has no tags
(`messageLine?_isSome_of_plain`). Where these messages are shown, telling what was redacted never ends a run
(`tell_ending`). What may end it before the redaction is the warning that a language is not supported, which
names the language (`opening_of_not_announced`). -/

namespace Redact.Command

/-! ### Plain messages -/

def Plain (cs : List Char) : Prop := ∀ c ∈ cs, c ≠ '[' ∧ c ≠ '\\'

/-- A message without tags is shown, and so is the title of the counts, whose tags are in order. -/
structure Markup.Regular (markup : Markup) : Prop where
  plain : ∀ message : String, Plain message.toList → (markup message).isSome
  title : (markup "[cyan]Redactions applied:[/cyan]").isSome

namespace Report

variable {markup : Markup}

theorem say_tree (r : Report) (markup : Markup) (message : String) :
    (r.say markup message).tree = r.tree := by
  unfold say
  split <;> rfl

theorem say_ending (r : Report) (markup : Markup) (message : String) :
    (r.say markup message).ending = r.ending ∨
      (r.say markup message).ending = .escaped .badTags := by
  unfold say
  split
  · exact Or.inl rfl
  · exact Or.inr rfl

theorem say_ending_of_isSome {message : String} (h : (markup message).isSome) (r : Report) :
    (r.say markup message).ending = r.ending := by
  obtain ⟨line, hline⟩ := Option.isSome_iff_exists.1 h
  rw [say, hline]

theorem say_ending_of_none {message : String} (h : markup message = none) (r : Report) :
    (r.say markup message).ending = .escaped .badTags := by
  rw [say, h]

theorem fail_code (r : Report) (markup : Markup) (message : String) :
    (r.fail markup message).ending.code = 1 := by
  rcases Report.say_ending { r with ending := .failed } markup message with h | h
  · rw [fail, h]
    rfl
  · rw [fail, h]
    rfl

theorem tell_tree (r : Report) (markup : Markup) (counts : Counts) :
    (r.tell markup counts).tree = r.tree := by
  unfold tell
  split
  · rfl
  · rename_i hcounts
    clear hcounts
    rw [← r.say_tree markup "[cyan]Redactions applied:[/cyan]"]
    generalize r.say markup "[cyan]Redactions applied:[/cyan]" = told
    induction counts generalizing told with
    | nil => rfl
    | cons entry rest ih => rw [List.foldl_cons, ih, say_tree]

theorem andThen_of_done {r : Report} (h : r.ending = .done) (next : Report → Report) :
    r.andThen next = next r :=
  if_pos h

theorem andThen_of_not_done {r : Report} (h : r.ending ≠ .done) (next : Report → Report) :
    r.andThen next = r :=
  if_neg h

theorem andThen_of_code {r : Report} {next : Report → Report} (hr : r.ending ≠ .help)
    (h : (r.andThen next).ending.code = 0) : r.ending = .done ∧ r.andThen next = next r := by
  unfold andThen at h ⊢
  split at h
  · rename_i hdone
    exact ⟨hdone, if_pos hdone⟩
  · rename_i hdone
    cases hending : r.ending <;> simp_all [Ending.code]

end Report

/-! ### The opening of a job -/

variable {G : Type} {s : Setting G} {job : Job}

def unsupportedAccount (language : String) : String :=
  "[yellow]Warning: unsupported language '" ++ language ++ "', output is unchanged.[/yellow]"

/-- What has to be said of the language before the redaction can be shown. -/
def Job.Announced (job : Job) (s : Setting G) : Prop :=
  (Language.ofName? job.languageName).isSome ∨ (s.markup (unsupportedAccount job.languageName)).isSome

/-- The report before the redaction. -/
def Job.opening (job : Job) (s : Setting G) : Report :=
  let r : Report := { ending := .done, tree := s.tree }
  if (Language.ofName? job.languageName).isSome then r
  else r.say s.markup (unsupportedAccount job.languageName)

theorem Job.run_eq_opening : job.run s = (job.opening s).andThen (job.finish s (job.redact s)) := rfl

theorem Job.opening_tree : (job.opening s).tree = s.tree := by
  unfold opening
  dsimp only
  split
  · rfl
  · exact Report.say_tree _ _ _

theorem Job.opening_of_announced (h : job.Announced s) : (job.opening s).ending = .done := by
  unfold opening
  dsimp only
  split
  · rfl
  · rename_i hunknown
    exact Report.say_ending_of_isSome (h.resolve_left hunknown) _

theorem Job.opening_of_not_announced (h : ¬ job.Announced s) :
    (job.opening s).ending = .escaped .badTags := by
  obtain ⟨hunknown, hmessage⟩ := not_or.1 h
  unfold opening
  dsimp only
  rw [if_neg hunknown]
  exact Report.say_ending_of_none (Option.not_isSome_iff_eq_none.1 hmessage) _

theorem Job.run_of_announced (h : job.Announced s) :
    job.run s = job.finish s (job.redact s) (job.opening s) := by
  rw [run_eq_opening, Report.andThen_of_done (opening_of_announced h)]

theorem Job.run_of_not_announced (h : ¬ job.Announced s) : job.run s = job.opening s := by
  have hending := opening_of_not_announced h
  rw [run_eq_opening, Report.andThen_of_not_done (by rw [hending]; nofun)]

end Redact.Command
