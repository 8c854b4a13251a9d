import Redact.Syntax.Ecma.Outline
import Redact.Syntax.Python.Outline
import Redact.Syntax.Shape

/-! # Parsing

The outline of a source in one of the languages. Ill-formed parts of the source are read as
U+FFFD. -/

namespace Redact

def Language.parse (l : Language) (source : List UInt8) : Node :=
  let cs := Text.Utf8.decodeLossy source
  match l with
  | python => Syntax.Python.outline cs
  | javascript => Syntax.Ecma.outline .javascript cs
  | typescript => Syntax.Ecma.outline .typescript cs

end Redact
