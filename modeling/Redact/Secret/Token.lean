import Redact.Settings.Basic

/-! # Strings that look like secret tokens

A token is a long run of ASCII letters, digits, `_`, `.` and `-`. Quotes at the ends of the text do
not count. -/

namespace Redact.Secret

def isQuote (c : Char) : Bool := c = '\x27' || c = '\x22'

def stripQuotes (cs : List Char) : List Char := Text.trimBoth isQuote cs

def isTokenChar (c : Char) : Bool := c.isAlphanum || c = '_' || c = '.' || c = '-'

/-- At least twenty token characters and nothing else, except a line feed at the end. -/
def isTokenRun (cs : List Char) : Bool :=
  let run := if cs.getLast? = some '\n' then cs.dropLast else cs
  leastTokenLength ≤ run.length && run.all isTokenChar

/-- The text without its quotes has more than `minLength` characters and is a token run. -/
def looksLikeToken (minLength : Int) (cs : List Char) : Bool :=
  let body := stripQuotes cs
  minLength < body.length && isTokenRun body

end Redact.Secret
