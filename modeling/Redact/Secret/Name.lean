import Redact.Settings.Basic

/-! # Sensitive names

A name is sensitive if, in lowercase, it holds one of the given names somewhere. -/

namespace Redact.Secret

def isSensitive (names : List RawText) (text : RawText) : Bool :=
  let folded := text.lower
  names.any fun name => Text.hasPart name folded

end Redact.Secret
