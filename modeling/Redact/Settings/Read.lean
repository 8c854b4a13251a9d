import Redact.Settings.Basic
import Redact.Value.Show
import Redact.Value.Whole

/-! # Settings from a document

Each setting has a key. A setting whose value is of no use keeps its default; the length limit of
tokens is never below its default. The settings of tokens stand in a table of their own or under
two keys of the document. The members of a list are taken in their written form, for which there are
so many levels of values inside each other. -/

namespace Redact.Settings

/-- What stops the reading of settings: a length limit that is infinite, or a member of a list that
has no written form. -/
inductive ReadError where
  | infiniteLength
  | unwritten (cause : Value.Unwritten)
  deriving DecidableEq, Repr

def memberOf (levels : Nat) (v : Value) : Except ReadError RawText :=
  (v.written levels).mapError .unwritten

def nameOf (levels : Nat) (v : Value) : Except ReadError (Option RawText) :=
  (memberOf levels v).map fun t => if t.trim.isEmpty then none else some (foldName t)

/-- The names that a value lists: the items of a collection, or the parts of a text between its
commas; nothing for any other value. -/
def namesOf (levels : Nat) (v : Value) : Except ReadError (List RawText) :=
  let listed : List Value := match v with
    | .text s => s.commaParts.map .text
    | v => v.items?.getD []
  (listed.mapM (nameOf levels)).map (·.filterMap id)

/-- The limit that a value stands for, `default` if it stands for none. -/
def limitOf (default : Int) (v : Value) : Except ReadError Int :=
  match v.toWhole with
  | .ok n => .ok (max leastTokenLength n)
  | .error .infinite => .error .infiniteLength
  | .error .unusable => .ok default

/-- The settings of tokens in a document: whether they are enabled, and the value of the limit. -/
def tokenSettings (doc : Entries) : Bool × Value :=
  match Value.getD doc "opaque_tokens" with
  | .table entries =>
    (((Value.get? entries "enabled").getD (.bool true)).truthy, Value.getD entries "min_length")
  | v =>
    let flag := match v with
      | .null => Value.getD doc "opaque_tokens_enabled"
      | v => v
    let enabled := match flag with
      | .null => true
      | v => v.truthy
    (enabled, Value.getD doc "opaque_min_length")

def read (levels : Nat) (doc : Entries) : Except ReadError Settings := do
  let enabled := match Value.get? doc "enabled" with
    | some v => v.truthy
    | none => true
  let listed := Value.getD doc "extra_sensitive_names"
  let names ← namesOf levels (if listed.truthy then listed else Value.getD doc "sensitive_names")
  let replacement := match Value.getD doc "replacement" with
    | .text s => if s.isEmpty then placeholder else s
    | _ => placeholder
  let (tokensEnabled, limit) := tokenSettings doc
  let minLength ← match limit with
    | .null => .ok leastTokenLength
    | v => limitOf leastTokenLength v
  let allowed ← ((Value.getD doc "allowlist_strings").items?.getD []).mapM (memberOf levels)
  return {
    enabled
    extraNames := names
    replacement
    tokensEnabled
    tokenMinLength := minLength
    allowlist := .ofList allowed }

end Redact.Settings
