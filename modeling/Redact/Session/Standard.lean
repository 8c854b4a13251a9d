import Redact.Session.Sanitizer
import Redact.Syntax.Parse

/-! # The standard environment

The environment of a program of its own: the grammar of each language is the language, it can always
be loaded, and its parser never fails. -/

namespace Redact

def standardParser : Parser Language where
  takes _ := true
  yield
    | some l, source => .rooted (l.parse source)
    | none, _ => .nothing

def standardSource (l : Language) : GrammarSource Language := ⟨fun _ => .ok (some l)⟩

def Environment.standard : Environment Language where
  registry := { sources := Language.all.map fun l => (l.name, standardSource l) }
  parser := standardParser

end Redact
