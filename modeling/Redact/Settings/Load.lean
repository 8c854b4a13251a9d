import Redact.File.Tree
import Redact.Settings.Read
import Redact.Settings.Section
import Redact.Text.Utf8
import Redact.Toml.Document
import Redact.Yaml.Document

/-! # Settings files

The settings of a folder are in the first file that it has of a list of names, unless another file is
named. A file that cannot be read, is ill-formed or of no known format is ignored with a warning, and
without a file all settings have their defaults. Documents are read by the readers of a `Loader`. -/

namespace Redact.Settings

def fileNames : List String :=
  ["asp.toml", ".asp.toml", "asp.yml", ".asp.yml", "asp.yaml", ".asp.yaml"]

/-- The name of the settings file in the current folder of a tree. -/
def findFile? (t : FileTree) : Option String :=
  fileNames.find? fun name =>
    match t.find ⟨"", [name]⟩ with
    | .ok (.file _) => true
    | _ => false

inductive Format where
  | toml
  | yaml
  deriving DecidableEq, Repr

def Format.ofSuffix? (suffix : String) : Option Format :=
  if suffix == ".toml" then some .toml
  else if suffix == ".yml" || suffix == ".yaml" then some .yaml
  else none

/-- What the loading of settings depends on besides the files: the readers of the two formats, and
the levels that are left for values inside each other when one is written. -/
structure Loader where
  toml? : List Char → Option Entries
  yaml? : List Char → Option Value
  levels : Nat

def Loader.standard : Loader := { toml? := Toml.parse?, yaml? := Yaml.parse?, levels := 950 }

def Loader.parse? (l : Loader) (f : Format) (bytes : List UInt8) : Option Value := do
  let cs ← Text.Utf8.decode? bytes
  match f with
  | .toml => (l.toml? cs).map .table
  | .yaml => l.yaml? cs

inductive Warning where
  | unsupportedFormat
  | ignored
  deriving DecidableEq, Repr

/-- The wording of a warning; the places marked `%s` are for the name of the file and the cause. -/
def Warning.template : Warning → String
  | unsupportedFormat => "Unsupported config file type: %s"
  | ignored => "Ignoring config file %s: %s"

/-- What stops the loading of settings: a path with a name that is too long, or the content of a
document. -/
inductive LoadError where
  | nameTooLong
  | content (e : ReadError)
  deriving DecidableEq, Repr

/-- The outcome of loading settings: the settings or an error, and warnings. -/
abbrev Loaded := Except LoadError Settings × List Warning

def loadContent (l : Loader) (f : Format) (c : Content) : Loaded :=
  let value := match c with
    | .file bytes => l.parse? f bytes
    | .folder => none
  match value with
  | none => (.ok {}, [.ignored])
  | some v => ((read l.levels (sectionOf v)).mapError .content, [])

/-- The settings in the file at a path; the defaults if there is nothing. -/
def loadFile (l : Loader) (t : FileTree) (p : Path) : Loaded :=
  match t.find p with
  | .error .nameTooLong => (.error .nameTooLong, [])
  | .error _ => (.ok {}, [])
  | .ok c =>
    match Format.ofSuffix? p.suffix with
    | none => (.ok {}, [.unsupportedFormat])
    | some f => loadContent l f c

/-- The settings in the file that is named, or in the settings file of the current folder. -/
def load (l : Loader) (t : FileTree) (file : Option Path) : Loaded :=
  match file.or ((findFile? t).map fun name => ⟨"", [name]⟩) with
  | none => (.ok {}, [])
  | some p => loadFile l t p

end Redact.Settings
