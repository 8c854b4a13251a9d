import Redact.Command.Words
import Redact.File.Tree
import Redact.Settings.Merge

/-! # Requests

What a command line asks for: the version, the list of languages, or the redaction of a file. A
request is made only if all that it names can be found. Names of files and languages are characters
only, with an escape for each lone surrogate. -/

namespace Redact.Command

/-- The redaction of a file: where the file is, its bytes, and what was chosen. -/
structure Job where
  place : Place
  bytes : List UInt8
  language : Option String := none
  settingsFile : Option Path := none
  output : Option Path := none
  overrides : Settings.Overrides := {}

inductive Request where
  | help
  | version
  | languages
  | redact (job : Job)

def helpChoice : Choice := { name := "--help" }

def mainChoices : List Choice := [{ name := "--version", letter := some 'v' }, helpChoice]

def jobChoices : List Choice := [
  { name := "--lang", letter := some 'l', takesValue := true },
  { name := "--config", letter := some 'c', takesValue := true },
  { name := "--output", letter := some 'o', takesValue := true },
  { name := "--replacement", takesValue := true },
  { name := "--extra-names", takesValue := true },
  { name := "--no-redact" },
  { name := "--verbose" },
  helpChoice]

/-- What a redaction is asked for; `none` if there is not just one word for the file, or if the file
or the settings file is not there. -/
def Job.ofWords? (t : FileTree) (w : Words) : Option Job := do
  let [file] := w.others | none
  let place := t.resolve (Path.ofText file.escaped)
  let some (.file bytes) := t.content? place | none
  let named := (w.value? "--config").map RawText.escaped
  let found : Bool := match named.map t.findText with
    | none | some (.ok (.file _)) => true
    | _ => false
  if !found then none
  return {
    place
    bytes
    language := (w.value? "--lang").map RawText.escaped
    settingsFile := named.map Path.ofText
    output := (w.value? "--output").map fun name => Path.ofText name.escaped
    overrides := {
      noRedact := w.has "--no-redact"
      replacement := w.value? "--replacement"
      extraNames := w.value? "--extra-names" } }

/-- The files and folders that a command line names, whatever they are. -/
def namedPaths (read : WordReader) (words : List RawText) : List String :=
  match read mainChoices false words with
  | some { others := _ :: rest, .. } =>
    match read jobChoices true rest with
    | some w =>
      (w.others ++ (w.value? "--config").toList ++ (w.value? "--output").toList).map RawText.escaped
    | none => []
  | _ => []

def Request.ofCommand? (read : WordReader) (t : FileTree) (name : RawText) (words : List RawText) :
    Option Request :=
  if name == .ofString "sanitize" then do
    let w ← read jobChoices true words
    if w.has "--help" then return .help
    return .redact (← Job.ofWords? t w)
  else if name == .ofString "languages" then do
    let w ← read [helpChoice] true words
    if w.has "--help" then return .help
    if w.others.isEmpty then return .languages else none
  else none

/-- What a command line asks for; `none` if it cannot be understood. -/
def Request.ofWords? (read : WordReader) (t : FileTree) (words : List RawText) : Option Request := do
  let w ← read mainChoices false words
  match w.chosen with
  | (name, _) :: _ => return if name == "--version" then .version else .help
  | [] =>
    match w.others with
    | [] => none
    | name :: rest => Request.ofCommand? read t name rest

end Redact.Command
