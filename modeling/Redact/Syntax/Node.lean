import Redact.Text.Utf8

/-! # Syntax trees

A node of a syntax tree covers a span of bytes of the source. Its children stand in a list, and a
field gives a child a name. Children are told apart by their place in the list, so two children are
the same exactly if their places are. -/

namespace Redact

/-- A node: its kind, its span from `start` up to `stop`, its children, and the fields, each with
the place of a child. -/
inductive Node where
  | mk (kind : String) (start stop : Nat) (children : List Node) (fields : List (String × Nat))
  deriving Inhabited

namespace Node

def kind : Node → String
  | mk kind _ _ _ _ => kind

def start : Node → Nat
  | mk _ start _ _ _ => start

def stop : Node → Nat
  | mk _ _ stop _ _ => stop

def children : Node → List Node
  | mk _ _ _ children _ => children

def fields : Node → List (String × Nat)
  | mk _ _ _ _ fields => fields

/-- The bytes of the source that a node covers; none if its span is inverted or outside. -/
def bytes (source : List UInt8) (n : Node) : List UInt8 :=
  (source.take n.stop).drop n.start

def text (source : List UInt8) (n : Node) : String :=
  String.ofList (Text.Utf8.decodeLossy (n.bytes source))

mutual

def size : Node → Nat
  | mk _ _ _ children _ => 1 + sizeAll children

def sizeAll : List Node → Nat
  | [] => 0
  | n :: rest => n.size + sizeAll rest

end

/-- The number of nodes of a tree is that of the node itself and those of its children. -/
theorem size_eq (n : Node) : n.size = 1 + sizeAll n.children := by
  cases n with
  | mk => rw [size, children]

theorem sizeAll_append (xs ys : List Node) : sizeAll (xs ++ ys) = sizeAll xs + sizeAll ys := by
  induction xs with
  | nil => simp [sizeAll]
  | cons x xs ih => simp [sizeAll, ih, Nat.add_assoc]

theorem sizeAll_reverse (xs : List Node) : sizeAll xs.reverse = sizeAll xs := by
  induction xs with
  | nil => rfl
  | cons x xs ih => simp [sizeAll, sizeAll_append, ih, Nat.add_comm]

/-- The nodes that a stack of trees yields, top first: a tree yields its root and leaves its
children on the stack, the last one on top. -/
def walkStack : List Node → List Node
  | [] => []
  | n :: rest => n :: walkStack (n.children.reverse ++ rest)
termination_by stack => sizeAll stack
decreasing_by
  rw [sizeAll_append, sizeAll_reverse, sizeAll, size_eq]
  omega

def walk (root : Node) : List Node := walkStack [root]

end Node

end Redact
