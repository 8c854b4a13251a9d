import Redact.Settings.Write

/-! # Settings of one run

The choices made for one run go before the settings of the document: redaction may be switched
off, the replacement changed, and names added. They are made on a copy, which is what is read of the
settings written as a document. -/

namespace Redact.Settings

/-- The choices for one run; what was not chosen is `false` or `none`. -/
structure Overrides where
  noRedact : Bool := false
  replacement : Option RawText := none
  extraNames : Option RawText := none

/-- `names` with the folded form of `name` at the end, unless it is empty or there. -/
def appendName (names : List RawText) (name : RawText) : List RawText :=
  let folded := foldName name
  if folded.isEmpty || names.contains folded then names else names ++ [folded]

/-- What is read of `s` as a document, with the choices for the run. Names are separated by commas. -/
def merge (levels : Nat) (o : Overrides) (s : Settings) : Except ReadError Settings := do
  let n ← read levels s.toEntries
  return { n with
    enabled := n.enabled && !o.noRedact
    replacement := match o.replacement with
      | some r => if r.isEmpty then n.replacement else r
      | none => n.replacement
    extraNames := (RawText.commaParts (o.extraNames.getD [])).foldl appendName n.extraNames }

end Redact.Settings
