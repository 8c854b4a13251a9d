import Redact.Edit
import Redact.Secret.Name
import Redact.Secret.Token
import Redact.Syntax.Shape

/-! # Nodes that hold secrets

A node asks for an edit if it binds a literal to a sensitive name, and if it is a string that looks
like a secret token. -/

namespace Redact.Secret

def redact (settings : Settings) (rule : Rule) (n : Node) : Edit :=
  ⟨n.start, n.stop, settings.replacement, rule⟩

/-- The edit of a binding: its value is redacted if it is a literal, the name is sensitive, and
name and value are different children. -/
def bindingHit (shape : Shape) (settings : Settings) (source : List UInt8) (n : Node) :
    Option Edit :=
  if shape.bindingKinds.contains n.kind && shape.targetPlace? n != shape.valuePlace? n then
    match shape.target? n, shape.value? n with
    | some target, some value =>
      if isSensitive settings.names (target.text source) &&
          shape.literalKinds.contains value.kind then
        some (redact settings .sensitiveAssignment value)
      else none
    | _, _ => none
  else none

/-- The edit of a string: it is redacted with its marks and quotes if tokens are enabled and what
is inside them is not allowed and looks like a token. -/
def tokenHit (shape : Shape) (settings : Settings) (source : List UInt8) (n : Node) :
    Option Edit :=
  if settings.tokensEnabled && shape.stringKinds.contains n.kind then
    let body := (n.text source).toList.dropWhile shape.stringMarks.contains
    if settings.allowlist.contains (RawText.ofList (stripQuotes body)) then none
    else if looksLikeToken settings.tokenMinLength body then some (redact settings .secretToken n)
    else none
  else none

end Redact.Secret
