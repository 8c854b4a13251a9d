import Redact.Text.TextSet

/-! # Settings

What the redaction of a source depends on. The names that are sensitive are the built-in ones and
the extra ones, trimmed and in lowercase, each once. -/

namespace Redact

def builtInNames : List RawText :=
  ["password", "secret", "token", "apikey", "key", "auth", "credential"]

/-- The text that takes the place of a secret; with its quotes, a literal stays a literal. -/
def placeholder : RawText := "\"<REDACTED>\""

def leastTokenLength : Int := 20

/-- The settings of a redaction. A string that looks like a token is redacted if it has more than
`tokenMinLength` characters and is not in `allowlist`. -/
structure Settings where
  enabled : Bool := true
  extraNames : List RawText := []
  replacement : RawText := placeholder
  tokensEnabled : Bool := true
  tokenMinLength : Int := leastTokenLength
  allowlist : TextSet := .empty

namespace Settings

/-- The form in which names are compared: trimmed and in lowercase. -/
def foldName (name : RawText) : RawText := name.trim.lower

/-- `names` with the folded form of `name` at the end, unless it is empty, built in or there. -/
def addName (names : List RawText) (name : RawText) : List RawText :=
  let folded := foldName name
  if folded.isEmpty || builtInNames.contains folded || names.contains folded then names
  else names ++ [folded]

/-- All sensitive names: the built-in ones, then the extra ones in the order of the settings. -/
def names (s : Settings) : List RawText :=
  builtInNames ++ s.extraNames.foldl addName []

end Settings

end Redact
