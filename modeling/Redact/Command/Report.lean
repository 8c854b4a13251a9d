import Redact.Command.Request
import Redact.Command.Screen
import Redact.File.Kind
import Redact.File.Read
import Redact.Session.Sanitizer
import Redact.Settings.Load
import Redact.Text.Quoted

/-! # Reports

What a run of the program leaves behind: how it ended, what it printed, and the files. The redacted
text goes to the output file in the encoding that it was read in, or to the screen, and the counts of
what was redacted follow. A run that cannot go on says why. -/

namespace Redact.Command

def version : String := "0.1.0"

inductive Escape where
  | settings (e : Settings.LoadError)
  | sanitizer (e : Failure)
  | unencodable
  | badTags
  deriving DecidableEq, Repr

/-- How a run ended: well, with a message about a failure, with an error that escaped, with help, or
because the command line could not be understood. -/
inductive Ending where
  | done
  | failed
  | escaped (e : Escape)
  | help
  | misuse
  deriving DecidableEq, Repr

def Ending.code : Ending → Nat
  | done | help => 0
  | failed | escaped _ => 1
  | misuse => 2

structure Report where
  ending : Ending
  out : List Char := []
  err : List Char := []
  tree : FileTree

/-- What a run depends on: the files, the engine and the grammars, a detector of encodings and codecs
for what it detects, the readers of command lines and of settings files, what is shown of messages,
and what is wrong with reading files, if anything. -/
structure Setting (G : Type) where
  tree : FileTree
  environment : Environment G
  guess : Guess
  codecs : Text.Codecs := fun _ => none
  words : WordReader := Words.read?
  loader : Settings.Loader := .standard
  markup : Markup := messageLine?
  readDefect : Option String := none

/-- The report with a message on the error output. A message with bad tags ends the run. -/
def Report.say (r : Report) (markup : Markup) (message : String) : Report :=
  match markup message with
  | some line => { r with err := r.err ++ line }
  | none => { r with ending := .escaped .badTags }

def Report.andThen (r : Report) (next : Report → Report) : Report :=
  if r.ending = .done then next r else r

def Report.fail (r : Report) (markup : Markup) (message : String) : Report :=
  ({ r with ending := .failed }).say markup message

def placeText (p : Place) : String := "/" ++ "/".intercalate p

inductive Stop where
  | unavailable (e : Unavailable)
  | unreadable (account : String)
  | escape (e : Escape)

/-- What a redaction brings: the encoding that the source was read in, the redacted text, and the
counts. -/
structure Redacted where
  encoding : String
  text : RawText
  counts : Counts

variable {G : Type}

/-- The language of a job: the one that was chosen, the one of the file, or TypeScript. -/
def Job.languageName (job : Job) : String :=
  match job.language with
  | some l => if l.isEmpty then ofFile else l
  | none => ofFile
where
  ofFile : String :=
    let l := (Path.mk "/" job.place).languageName
    if l.isEmpty then Language.typescript.name else l

/-- The settings of a job: those of the settings file, with its own choices. -/
def Job.settings? (job : Job) (s : Setting G) : Except Settings.LoadError Settings := do
  let settings ← (Settings.load s.loader s.tree job.settingsFile).1
  (settings.merge s.loader.levels job.overrides).mapError .content

def Job.redact (job : Job) (s : Setting G) : Except Stop Redacted :=
  match job.settings? s with
  | .error e => .error (.escape (.settings e))
  | .ok settings =>
    match s.readDefect with
    | some account => .error (.unreadable account)
    | none =>
      let source := SourceText.read s.codecs s.guess none job.bytes
      let sanitizer : Sanitizer G := { settings }
      let reply := sanitizer.sanitize s.environment source.text job.languageName
      match reply.outcome with
      | .ok text => .ok ⟨source.encoding, text, reply.sanitizer.stats⟩
      | .error (.unavailable e) => .error (.unavailable e)
      | .error e => .error (.escape (.sanitizer e))

def writeAccount (p : Path) (cause : String) : String :=
  "[red]Error writing " ++ p.toText ++ ": " ++ cause ++ ": " ++
    String.ofList (Text.quoted p.toText) ++ "[/red]"

/-- Writes a redacted text to a file. The file is emptied first, and stays empty if the text has
characters that its encoding lacks. -/
def Report.write (r : Report) (s : Setting G) (p : Path) (result : Redacted) : Report :=
  match r.tree.locateFile p with
  | .error o => r.fail s.markup (writeAccount p o.account)
  | .ok place =>
    match SourceText.encode? s.codecs result.encoding result.text with
    | none => { r with ending := .escaped .unencodable, tree := r.tree.write place [] }
    | some bytes =>
      ({ r with tree := r.tree.write place bytes }).say s.markup ("[green]✓[/green] Wrote " ++ p.toText)

/-- Shows a redacted text. One with lone surrogates ends the run. -/
def Report.print (r : Report) (result : Redacted) : Report :=
  let r := { r with out := r.out ++ "--- Sanitized Output ---\n".toList }
  if result.text.isPlain then
    let text := shown result.text.chars
    let ended := if result.text.getLast? = some (.char '\n') then text else text ++ ['\n']
    { r with out := r.out ++ ended ++ "------------------------\n".toList }
  else { r with ending := .escaped .unencodable }

def Report.tell (r : Report) (markup : Markup) (counts : Counts) : Report :=
  if counts.isEmpty then r
  else
    counts.foldl (fun r (rule, n) => r.say markup ("  " ++ rule.name ++ ": " ++ toString n))
      (r.say markup "[cyan]Redactions applied:[/cyan]")

def Job.finish (job : Job) (s : Setting G) (outcome : Except Stop Redacted) (r : Report) : Report :=
  match outcome with
  | .error (.unavailable e) => r.fail s.markup ("[red]Fatal: " ++ e.message ++ "[/red]")
  | .error (.unreadable account) =>
    r.fail s.markup ("[red]Error reading " ++ placeText job.place ++ ": " ++ account ++ "[/red]")
  | .error (.escape e) => { r with ending := .escaped e }
  | .ok result =>
    let r := match job.output with
      | some p => r.write s p result
      | none => r.print result
    r.andThen (·.tell s.markup result.counts)

def Job.run (job : Job) (s : Setting G) : Report :=
  let r : Report := { ending := .done, tree := s.tree }
  let language := job.languageName
  let r :=
    if (Language.ofName? language).isSome then r
    else
      r.say s.markup
        ("[yellow]Warning: unsupported language '" ++ language ++ "', output is unchanged.[/yellow]")
  r.andThen (job.finish s (job.redact s))

/-- The report of the list of languages, with whether their grammars can be loaded. -/
def listLanguages (s : Setting G) : Report :=
  let start : Report × Registry G :=
    ({ ending := .done, out := "Supported languages:\n".toList, tree := s.tree }, s.environment.registry)
  let step (state : Report × Registry G) (l : Language) : Report × Registry G :=
    let (r, registry) := state
    if r.ending = .done then
      let (outcome, registry, _) := registry.resolve l.name
      let line (account : String) : Report :=
        { r with out := r.out ++ ("  " ++ l.name ++ " " ++ account ++ "\n").toList }
      (match outcome with
        | .ok (some _) => line "✓"
        | .ok none => line "grammar unavailable"
        | .error fault => { r with ending := .escaped (.sanitizer (.load fault)) }, registry)
    else state
  (Language.all.foldl step start).1

/-- The report of a run of the program with the words of a command line. -/
def run (s : Setting G) (words : List RawText) : Report :=
  match Request.ofWords? s.words s.tree words with
  | none => { ending := .misuse, tree := s.tree }
  | some .help => { ending := .help, tree := s.tree }
  | some .version =>
    { ending := .done, out := ("asp-sanitizer version " ++ version ++ "\n").toList, tree := s.tree }
  | some .languages => listLanguages s
  | some (.redact job) => job.run s

end Redact.Command
