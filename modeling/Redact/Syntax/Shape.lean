import Redact.Syntax.Node
import Redact.Text.Blank
import Redact.Text.Lower

/-! # Languages and the shapes of their trees

Which kinds of nodes bind a value to a name, which are strings and literals, and how the name and
the value of a binding are found, for each language. -/

namespace Redact

inductive Language where
  | javascript
  | python
  | typescript
  deriving DecidableEq, Repr

namespace Language

def name : Language → String
  | javascript => "javascript"
  | python => "python"
  | typescript => "typescript"

def all : List Language := [javascript, python, typescript]

def fold (name : String) : String := Text.lower (Text.trim name)

def ofKey? (key : String) : Option Language := all.find? (·.name == key)

def ofName? (name : String) : Option Language := ofKey? (fold name)

end Language

inductive Accessor where
  | field (name : String)
  | first
  | last
  deriving DecidableEq, Repr

def Accessor.place? (a : Accessor) (n : Node) : Option Nat :=
  let count := n.children.length
  match a with
  | field name => (n.fields.lookup name).bind fun i => if i < count then some i else none
  | first => if count = 0 then none else some 0
  | last => if count = 0 then none else some (count - 1)

/-- What the trees of a language look like. The accessors of the name and of the value of a binding
are tried in turn. `stringMarks` holds the letters that may stand before the quote of a string. -/
structure Shape where
  bindingKinds : List String
  stringKinds : List String
  literalKinds : List String
  targetAccessors : List Accessor := [.field "left", .field "name", .first]
  valueAccessors : List Accessor := [.field "right", .field "value", .last]
  stringMarks : List Char := []

namespace Shape

def ecma : Shape where
  bindingKinds := ["assignment_expression", "variable_declarator"]
  stringKinds := ["string", "string_fragment"]
  literalKinds := ["number", "string", "string_fragment"]

/-- The shape of Python. The parts of a string are not looked at on their own: a placeholder with
quotes inside a formatted string would close it. -/
def python : Shape where
  bindingKinds := ["assignment"]
  stringKinds := ["string"]
  literalKinds := ["float", "integer", "string"]
  stringMarks := ['r', 'R', 'b', 'B', 'u', 'U']

def ofLanguage : Language → Shape
  | .javascript | .typescript => ecma
  | .python => python

/-- The place of the name of a binding among the children of its node. -/
def targetPlace? (shape : Shape) (n : Node) : Option Nat :=
  shape.targetAccessors.findSome? (·.place? n)

/-- The place of the value of a binding among the children of its node. -/
def valuePlace? (shape : Shape) (n : Node) : Option Nat :=
  shape.valueAccessors.findSome? (·.place? n)

def target? (shape : Shape) (n : Node) : Option Node :=
  (shape.targetPlace? n).bind fun i => n.children[i]?

def value? (shape : Shape) (n : Node) : Option Node :=
  (shape.valuePlace? n).bind fun i => n.children[i]?

end Shape

end Redact
