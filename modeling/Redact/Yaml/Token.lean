/-! # Tokens of YAML

The tokens of a text. Blocks have tokens for their beginning and end, although nothing but the
indentation stands for them in the text. -/

namespace Redact.Yaml

/-- The name of a tag as it is written: the handle that stands for its beginning, if there is one,
and the rest. -/
structure TagName where
  handle : Option String
  suffix : String
  deriving DecidableEq, Repr

inductive Token where
  | version (major : Nat)
  | tagHandle (handle start : String)
  | otherDirective
  | documentStart
  | documentEnd
  | blockList
  | blockTable
  | blockEnd
  | listOpen
  | listClose
  | tableOpen
  | tableClose
  | item
  | comma
  | key
  | value
  | alias (name : String)
  | anchor (name : String)
  | tag (name : TagName)
  | scalar (text : String) (plain : Bool)
  deriving DecidableEq, Repr

end Redact.Yaml
