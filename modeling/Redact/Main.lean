import Redact.Command.Report
import Redact.Session.Standard

/-! # The program

Takes what the command line names from the file system, runs the request on it, and brings the
outcome back: files, output and exit code. -/

namespace Redact.Main

open Command

/-- What is at a place of the file system: the bytes of a file, a folder, or nothing that can be
read. -/
def probe (p : Place) : IO (Option Content) := do
  try
    let bytes ← IO.FS.readBinFile (placeText p)
    return some (.file bytes.toList)
  catch e =>
    match e with
    | .inappropriateType _ code _ =>
      return if code = 21 then some .folder else none
    | _ => return none

def addPlace (t : FileTree) (p : Place) : IO FileTree := do
  match ← probe p with
  | some (.file bytes) => return t.write p bytes
  | some .folder => return { t with folders := p :: t.folders }
  | none => return t

def addPath (t : FileTree) (p : Path) : IO FileTree :=
  (List.range (p.names.length + 1)).foldlM
    (fun t n => addPlace t (t.resolve { p with names := p.names.take n })) t

def snapshot (words : List RawText) : IO FileTree := do
  let here := (Path.ofText (← IO.currentDir).toString).names
  let named := (Settings.fileNames ++ namedPaths Words.read? words).map Path.ofText
  named.foldlM addPath { here }

def usage : String :=
  "\n".intercalate [
    "Usage: asp-sanitize [--version] [--help] COMMAND",
    "",
    "Commands:",
    "  sanitize FILE  Redact a source file and print or write the result.",
    "  languages      List supported languages and whether their grammars load.",
    "",
    "Options of sanitize:",
    "  -l, --lang NAME       Language of the file.",
    "  -c, --config PATH     Settings file.",
    "  -o, --output PATH     Write the redacted source here.",
    "  --replacement TEXT    Replacement text for redacted spans.",
    "  --extra-names NAMES   Additional sensitive names, separated by commas.",
    "  --no-redact           Pass the file through unchanged.",
    "  --verbose             Show debug logging.",
    ""]

def account : Escape → String
  | .settings .nameTooLong => "file name too long"
  | .settings (.content .infiniteLength) => "a length limit is infinite"
  | .settings (.content (.unwritten .tooManyDigits)) => "a number is too long"
  | .settings (.content (.unwritten .tooDeep)) => "a value is nested too deep"
  | .sanitizer (.unavailable e) => e.message
  | .sanitizer (.load f) => f.message
  | .sanitizer .badGrammar => "a grammar cannot be used"
  | .sanitizer .unencodable => "the source or the replacement cannot be encoded"
  | .sanitizer (.badSpan e) => e.message
  | .sanitizer .brokenText => "the redacted source is no text"
  | .unencodable => "the redacted source cannot be encoded"
  | .badTags => "a message has bad tags"

/-- Brings the outcome of a run to the file system and the terminal. -/
def deliver (before : FileTree) (r : Report) : IO UInt32 := do
  for (p, bytes) in r.tree.files do
    if before.files.lookup p != some bytes then
      IO.FS.writeBinFile (placeText p) ⟨bytes.toArray⟩
  IO.print (String.ofList r.out)
  IO.eprint (String.ofList r.err)
  match r.ending with
  | .help => IO.print usage
  | .misuse => IO.eprint usage
  | .escaped e => IO.eprintln ("Error: " ++ account e)
  | _ => return r.ending.code.toUInt32
  return r.ending.code.toUInt32

end Redact.Main

def main (args : List String) : IO UInt32 := do
  let words := args.map Redact.RawText.ofString
  let tree ← Redact.Main.snapshot words
  let setting : Redact.Command.Setting Redact.Language :=
    { tree, environment := .standard, guess := fun _ => none }
  Redact.Main.deliver tree (Redact.Command.run setting words)
