import Redact.Proofs.Command.Report
import Redact.Proofs.File.RoundTrip
import Redact.Session.Standard

/-! # Files that pass through

A run that ends well and whose redaction leaves the text as it is writes the bytes that it read: the output
file holds what the source file held, with all line ends and with its mark (`output_eq_source`). For this
the file has to be read without replacement, and the detector may not guess UTF-8 with a mark. -/

namespace Redact

theorem FileTree.content?_write (t : FileTree) (p : Place) (bytes : List UInt8) :
    (t.write p bytes).content? p = some (.file bytes) := by
  simp [write, content?]

namespace Command

variable {G : Type}

/-- The text that a job has to redact. -/
def Job.source (job : Job) (s : Setting G) : SourceText :=
  SourceText.read s.codecs s.guess none job.bytes

/-- The redaction of the job brings the text of the file as it is. -/
def Job.PassesThrough (job : Job) (s : Setting G) : Prop :=
  ∃ result, job.redact s = .ok result ∧ result.text = (job.source s).text

theorem Job.passesThrough_of_disabled {job : Job} {s : Setting G}
    (hoff : (job.settings? s).map (·.enabled) = .ok false) (hread : s.readDefect = none) :
    job.PassesThrough s := by
  cases hsettings : job.settings? s with
  | error e =>
    rw [hsettings] at hoff
    cases hoff
  | ok settings =>
    have henabled : settings.enabled = false := by
      rw [hsettings] at hoff
      exact Except.ok.inj hoff
    simp [PassesThrough, redact, hsettings, hread, Sanitizer.sanitize, henabled, source]

/-! ### One job -/

theorem Job.encoding_of_redact {job : Job} {s : Setting G} {result : Redacted}
    (h : job.redact s = .ok result) : result.encoding = (job.source s).encoding := by
  unfold Job.redact at h
  split at h
  · simp at h
  · split at h
    · simp at h
    · dsimp only at h
      split at h
      · obtain rfl := Except.ok.inj h
        rfl
      · simp at h
      · simp at h

/-- A run that ends well did the redaction, and what it did before left the files alone. -/
theorem Job.run_of_code {job : Job} {s : Setting G} (h : (job.run s).ending.code = 0) :
    ∃ r : Report, r.ending = .done ∧ r.tree = s.tree ∧ job.run s = job.finish s (job.redact s) r := by
  by_cases hannounced : job.Announced s
  · exact ⟨job.opening s, opening_of_announced hannounced, opening_tree, run_of_announced hannounced⟩
  · rw [run_of_not_announced hannounced, opening_of_not_announced hannounced] at h
    exact absurd h (by decide)

/-- The end of a run that writes a text which its encoding has: only the place of the output changes. -/
theorem Job.finish_written {job : Job} {s : Setting G} {out : Path} {result : Redacted} {r : Report}
    {bytes : List UInt8} (hr : r.ending = .done) (hout : job.output = some out)
    (hbytes : SourceText.encode? s.codecs result.encoding result.text = some bytes)
    (h : (job.finish s (.ok result) r).ending.code = 0) :
    ∃ place, r.tree.locateFile out = .ok place ∧
      (job.finish s (.ok result) r).tree = r.tree.write place bytes := by
  simp only [Job.finish, hout, Report.write] at h ⊢
  cases hplace : r.tree.locateFile out with
  | error o =>
    simp only [hplace] at h
    have hcode := r.fail_code s.markup (writeAccount out o.account)
    obtain ⟨hdone, -⟩ := Report.andThen_of_code (fun hhelp => by simp [hhelp, Ending.code] at hcode) h
    simp [hdone, Ending.code] at hcode
  | ok place =>
    simp only [hplace, hbytes] at h ⊢
    have hending := Report.say_ending { r with tree := r.tree.write place bytes } s.markup
      ("[green]✓[/green] Wrote " ++ out.toText)
    obtain ⟨-, hrest⟩ := Report.andThen_of_code
      (by rcases hending with hending | hending <;> rw [hending] <;> simp [hr]) h
    refine ⟨place, rfl, ?_⟩
    rw [hrest, Report.tell_tree, Report.say_tree]

/-! ### Requests -/

theorem Job.content_of_words {t : FileTree} {w : Words} {job : Job} (h : Job.ofWords? t w = some job) :
    t.content? job.place = some (.file job.bytes) := by
  unfold Job.ofWords? at h
  split at h
  · extract_lets place at h
    split at h
    · rename_i hcontent
      extract_lets at h
      split at h
      · simp at h
      · obtain rfl := Option.some.inj h
        exact hcontent
    · simp at h
  · simp at h

/-- A request to redact comes from the words that follow the name of the command. -/
theorem Request.job_of_words {read : WordReader} {t : FileTree} {words : List RawText} {job : Job}
    (h : Request.ofWords? read t words = some (.redact job)) : ∃ w, Job.ofWords? t w = some job := by
  unfold Request.ofWords? at h
  obtain ⟨w, -, h⟩ := Option.bind_eq_some_iff.1 h
  split at h
  · split at h <;> simp at h
  · split at h
    · simp at h
    · unfold Request.ofCommand? at h
      split at h
      · obtain ⟨w', -, h⟩ := Option.bind_eq_some_iff.1 h
        split at h
        · simp at h
        · obtain ⟨job', hjob, h⟩ := Option.bind_eq_some_iff.1 h
          obtain rfl : job' = job := Request.redact.inj (Option.some.inj h)
          exact ⟨w', hjob⟩
      · split at h
        · obtain ⟨w', -, h⟩ := Option.bind_eq_some_iff.1 h
          split at h
          · simp at h
          · split at h <;> simp at h
        · simp at h

/-! ### Runs -/

/-- A run that ends well writes the file as it is if redaction leaves its text alone, it is read without
replacement, and the detector does not put a mark on it. -/
theorem output_eq_source {s : Setting G} {words : List RawText} {job : Job} {out : Path}
    (hjob : Request.ofWords? s.words s.tree words = some (.redact job)) (hout : job.output = some out)
    (hcode : (run s words).ending.code = 0) (hpass : job.PassesThrough s)
    (hplain : Text.Encoding.Plain (s.guess (job.bytes.take Text.Encoding.sampleSize.toNat)))
    (hwhole : (job.source s).Whole job.bytes) :
    ∃ place, s.tree.locateFile out = .ok place ∧
      s.tree.content? job.place = some (.file job.bytes) ∧
      (run s words).tree = s.tree.write place job.bytes ∧
      (run s words).tree.content? place = some (.file job.bytes) := by
  have hrun : run s words = job.run s := by simp [run, hjob]
  rw [hrun] at hcode ⊢
  obtain ⟨result, hresult, htext⟩ := hpass
  have hbytes : SourceText.encode? s.codecs result.encoding result.text = some job.bytes := by
    rw [Job.encoding_of_redact hresult, htext]
    exact SourceText.encode?_read hplain hwhole
  obtain ⟨r, hdone, htree, hfinish⟩ := Job.run_of_code hcode
  rw [hfinish, hresult] at hcode ⊢
  obtain ⟨place, hplace, hwritten⟩ := Job.finish_written hdone hout hbytes hcode
  rw [htree] at hplace hwritten
  obtain ⟨w, hwords⟩ := Request.job_of_words hjob
  refine ⟨place, hplace, Job.content_of_words hwords, hwritten, ?_⟩
  rw [hwritten, FileTree.content?_write]

deriving instance DecidableEq for Settings.Overrides, Job, Request

/-- A file in UTF-16 with a mark and with line ends of all kinds. -/
def markedBytes : List UInt8 :=
  [0xFF, 0xFE, 0x61, 0, 0x0D, 0, 0x0A, 0, 0x0D, 0, 0x62, 0, 0x0A, 0]

def markedSetting : Setting Language where
  tree := { here := ["w"], files := [(["w", "a.py"], markedBytes)] }
  environment := .standard
  guess _ := some "cp1252"

def unredactedWords : List RawText := ["sanitize", "a.py", "--output", "b.py", "--no-redact"]

theorem output_eq_source_marked : ∃ job,
    Request.ofWords? markedSetting.words markedSetting.tree unredactedWords = some (.redact job) ∧
    ∃ place, markedSetting.tree.locateFile ⟨"", ["b.py"]⟩ = .ok place ∧
      markedSetting.tree.content? job.place = some (.file job.bytes) ∧
      (run markedSetting unredactedWords).tree = markedSetting.tree.write place job.bytes ∧
      (run markedSetting unredactedWords).tree.content? place = some (.file job.bytes) := by
  have hwords : Request.ofWords? markedSetting.words markedSetting.tree unredactedWords =
      some (.redact { place := ["w", "a.py"], bytes := markedBytes, output := some ⟨"", ["b.py"]⟩,
                      overrides := { noRedact := true } }) := by
    decide +kernel
  refine ⟨_, hwords, output_eq_source hwords rfl ?_ ?_ ?_ ?_⟩
  · decide +kernel
  · exact Job.passesThrough_of_disabled (by decide +kernel) rfl
  · exact Text.Encoding.plain_of_usual (by decide)
  · exact ⟨.utf16le, "\uFEFFa\r\n\rb\n".toList, by decide +kernel, by decide +kernel⟩

end Command

end Redact
