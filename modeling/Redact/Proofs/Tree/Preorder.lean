import Redact.Syntax.Node

/-! # The nodes of a tree

The nodes of a tree in preorder, the last child first, by recursion on the tree. A node lies in the
tree of another one if it is among these. The walk, which keeps a stack, yields this list
(`walk_eq_preorder`), so what holds of the recursion holds of the walk. -/

namespace Redact.Node

mutual

/-- A node and the nodes below it, those of the last child first. -/
def preorder : Node → List Node
  | mk kind start stop children fields => mk kind start stop children fields :: preorderAll children

/-- The nodes of several trees, those of the last tree first. -/
def preorderAll : List Node → List Node
  | [] => []
  | n :: rest => preorderAll rest ++ n.preorder

end

theorem preorder_eq (n : Node) : n.preorder = n :: preorderAll n.children := by
  cases n with
  | mk => rw [preorder, children]

theorem preorderAll_append (xs ys : List Node) :
    preorderAll (xs ++ ys) = preorderAll ys ++ preorderAll xs := by
  induction xs with
  | nil => simp [preorderAll]
  | cons x xs ih => simp [preorderAll, ih]

/-- The recursion on the tree: a node, then the nodes of each child, from the last child to the first. -/
theorem preorder_eq_flatMap (n : Node) : n.preorder = n :: n.children.reverse.flatMap preorder := by
  have hall : ∀ ns : List Node, preorderAll ns = ns.reverse.flatMap preorder := by
    intro ns
    induction ns with
    | nil => rfl
    | cons m rest ih => simp [preorderAll, ih]
  rw [preorder_eq, hall]

/-- The stack holds the trees still to come, in reverse. -/
theorem walkStack_eq_preorderAll (stack : List Node) :
    walkStack stack = preorderAll stack.reverse := by
  fun_induction walkStack stack with
  | case1 => simp [preorderAll]
  | case2 n rest ih =>
    rw [ih, List.reverse_append, List.reverse_reverse, List.reverse_cons, preorderAll_append,
      preorderAll_append]
    simp [preorderAll, preorder_eq]

theorem walk_eq_preorder (root : Node) : root.walk = root.preorder := by
  rw [walk, walkStack_eq_preorderAll]
  simp [preorderAll]

mutual

theorem length_preorder : (n : Node) → n.preorder.length = n.size
  | mk _ _ _ children _ => by
    rw [preorder, size, List.length_cons, length_preorderAll children, Nat.add_comm]

theorem length_preorderAll : (ns : List Node) → (preorderAll ns).length = sizeAll ns
  | [] => rfl
  | n :: rest => by
    rw [preorderAll, sizeAll, List.length_append, length_preorderAll rest, length_preorder n,
      Nat.add_comm]

end

/-! ### Induction on a tree -/

theorem size_le_sizeAll {c : Node} {ns : List Node} (h : c ∈ ns) : c.size ≤ sizeAll ns := by
  induction ns with
  | nil => simp at h
  | cons n rest ih =>
    rw [sizeAll]
    rcases List.mem_cons.1 h with rfl | h
    · omega
    · have := ih h
      omega

/-- What holds of a node whenever it holds of its children holds of every node. -/
@[elab_as_elim]
theorem treeInduction {motive : Node → Prop}
    (node : ∀ n, (∀ c ∈ n.children, motive c) → motive n) (n : Node) : motive n := by
  refine node n fun c hc => ?_
  have hlt : c.size < n.size := by
    have := size_le_sizeAll hc
    rw [size_eq n]
    omega
  exact treeInduction node c
termination_by n.size

/-! ### Nodes in a tree -/

theorem mem_preorderAll {m : Node} {ns : List Node} :
    m ∈ preorderAll ns ↔ ∃ n ∈ ns, m ∈ n.preorder := by
  induction ns with
  | nil => simp [preorderAll]
  | cons n rest ih =>
    rw [preorderAll, List.mem_append, ih]
    simp [or_comm]

/-- A node of a tree is the root or lies in the tree of a child. -/
theorem mem_preorder {m n : Node} : m ∈ n.preorder ↔ m = n ∨ ∃ c ∈ n.children, m ∈ c.preorder := by
  rw [preorder_eq, List.mem_cons, mem_preorderAll]

theorem mem_preorder_self (n : Node) : n ∈ n.preorder := mem_preorder.2 (Or.inl rfl)

theorem mem_preorder_of_mem_children {c n : Node} (h : c ∈ n.children) : c ∈ n.preorder :=
  mem_preorder.2 (Or.inr ⟨c, h, mem_preorder_self c⟩)

theorem mem_preorder_trans {k m n : Node} (hkm : k ∈ m.preorder) (hmn : m ∈ n.preorder) :
    k ∈ n.preorder := by
  induction n using treeInduction with
  | node n ih =>
    rcases mem_preorder.1 hmn with rfl | ⟨c, hc, hm⟩
    · exact hkm
    · exact mem_preorder.2 (Or.inr ⟨c, hc, ih c hc hm⟩)

end Redact.Node
