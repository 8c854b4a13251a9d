import Redact.Text.Raw

/-! # Edits

An edit puts a text in the place of the bytes from `start` up to `stop` of a source. It keeps the
rule that asked for it. -/

namespace Redact

/-- Why a span is redacted: it is the value of a sensitive assignment, or a string that looks like
a secret token. -/
inductive Rule where
  | sensitiveAssignment
  | secretToken
  deriving DecidableEq, Repr

def Rule.name : Rule → String
  | sensitiveAssignment => "sensitive_assignment"
  | secretToken => "opaque_token"

/-- The bytes from `start` up to `stop`, without `stop`, become `replacement`. -/
structure Edit where
  start : Int
  stop : Int
  replacement : RawText
  rule : Rule
  deriving DecidableEq, Repr

end Redact
