import Redact.Value.Basic

/-! # The section of a document

Settings stand at the top of a document, in its section `asp` or `sanitizer`, or in the section
`sanitizer` of the section `asp`. -/

namespace Redact.Settings

/-- The table under `key`, if there is one, and the given entries if not. -/
def descend (key : String) (entries : Entries) : Entries :=
  match Value.get? entries key with
  | some (.table inner) => inner
  | _ => entries

/-- The settings part of a document; a document that is no table has none. -/
def sectionOf : Value → Entries
  | .table entries => descend "sanitizer" (descend "asp" entries)
  | _ => []

end Redact.Settings
