import Redact.File.Path
import Redact.Syntax.Shape

/-! # The language of a file

The suffix of a file tells its language. A suffix that is not known stands for a language of that
name. -/

namespace Redact

namespace Language

def suffixes : Language → List String
  | python => [".py", ".pyi"]
  | javascript => [".js", ".jsx", ".mjs", ".cjs"]
  | typescript => [".ts", ".tsx", ".mts", ".cts"]

def ofSuffix? (suffix : String) : Option Language :=
  all.find? (·.suffixes.contains suffix)

end Language

/-- The name of the language of a file; empty if the file has no suffix. -/
def Path.languageName (p : Path) : String :=
  match Language.ofSuffix? p.suffix with
  | some l => l.name
  | none => String.ofList (p.suffix.toList.dropWhile (· = '.'))

end Redact
