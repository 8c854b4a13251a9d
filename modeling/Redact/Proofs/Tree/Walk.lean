import Mathlib.Logic.Function.Iterate
import Redact.Proofs.Tree.Enumeration

/-! # The walk of a tree

The walk takes one round for each node of the tree. A round takes the first node from what the stack is
still to yield (`walkStack_afterRound`), so after `k` rounds the top of the stack is the node at place `k` of
the walk, and the stack is empty once there have been as many rounds as nodes. The nodes come in the
order of `walkPlaces`, which has each place of the tree once, and what is below a place right after it
(`walk_depthFirst`). -/

namespace Redact.Node

/-! ### Rounds -/

/-- The stack after a round, top first: the top gives way to its children, the last one first. -/
def afterRound : List Node → List Node
  | [] => []
  | n :: rest => n.children.reverse ++ rest

theorem head?_walkStack (stack : List Node) : (walkStack stack).head? = stack.head? := by
  cases stack with
  | nil => rw [walkStack]
  | cons n rest => rw [walkStack, List.head?_cons, List.head?_cons]

theorem walkStack_afterRound (stack : List Node) :
    walkStack (afterRound stack) = (walkStack stack).tail := by
  cases stack with
  | nil => rw [afterRound, walkStack, List.tail_nil]
  | cons n rest =>
    have hround : walkStack (n :: rest) = n :: walkStack (n.children.reverse ++ rest) := by
      rw [walkStack]
    rw [hround, List.tail_cons, afterRound]

/-- After `k` rounds the first `k` nodes of the walk have been yielded. -/
theorem walkStack_iterate_afterRound (k : Nat) (stack : List Node) :
    walkStack (afterRound^[k] stack) = (walkStack stack).drop k := by
  induction k with
  | zero => rfl
  | succ k ih => rw [Function.iterate_succ_apply', walkStack_afterRound, ih, List.tail_drop]

theorem head?_iterate_afterRound (root : Node) (k : Nat) :
    (afterRound^[k] [root]).head? = root.walk[k]? := by
  rw [← head?_walkStack, walkStack_iterate_afterRound, List.head?_drop, walk]

theorem iterate_afterRound_eq_nil_iff (root : Node) (k : Nat) :
    afterRound^[k] [root] = [] ↔ root.size ≤ k := by
  rw [← List.head?_eq_none_iff, head?_iterate_afterRound, List.getElem?_eq_none_iff, walk_eq_preorder,
    length_preorder]

/-! ### Places in the order of the walk -/

mutual

/-- The places of a tree as the walk comes to them. -/
def walkPlaces : Node → List (List Nat)
  | mk _ _ _ children _ => [] :: walkPlacesFrom 0 children

/-- The places in trees that are numbered from `i` on, those in the last tree first. -/
def walkPlacesFrom (i : Nat) : List Node → List (List Nat)
  | [] => []
  | n :: rest => walkPlacesFrom (i + 1) rest ++ n.walkPlaces.map (i :: ·)

end

theorem walkPlaces_eq (n : Node) : n.walkPlaces = [] :: walkPlacesFrom 0 n.children := by
  cases n with
  | mk => rw [walkPlaces, children]

theorem walkPlacesFrom_perm {i : Nat} {ns : List Node} (h : ∀ n ∈ ns, n.walkPlaces.Perm n.places) :
    (walkPlacesFrom i ns).Perm (placesFrom i ns) := by
  induction ns generalizing i with
  | nil => exact List.Perm.refl []
  | cons n rest ih =>
    obtain ⟨hn, hrest⟩ := List.forall_mem_cons.1 h
    rw [walkPlacesFrom, placesFrom]
    exact List.perm_append_comm.trans ((hn.map _).append (ih hrest))

theorem walkPlaces_perm (n : Node) : n.walkPlaces.Perm n.places := by
  induction n using treeInduction with
  | node n ih =>
    rw [walkPlaces_eq, places_eq]
    exact (walkPlacesFrom_perm ih).cons []

theorem nodup_walkPlaces (n : Node) : n.walkPlaces.Nodup :=
  n.walkPlaces_perm.nodup_iff.2 n.nodup_places

theorem mem_walkPlaces {n : Node} {p : List Nat} : p ∈ n.walkPlaces ↔ ∃ m, n.at? p = some m :=
  n.walkPlaces_perm.mem_iff.trans mem_places

theorem map_at?_walkPlacesFrom {root : Node} {i : Nat} {ns : List Node}
    (hdrop : root.children.drop i = ns)
    (h : ∀ n ∈ ns, n.walkPlaces.map n.at? = n.preorder.map some) :
    (walkPlacesFrom i ns).map root.at? = (preorderAll ns).map some := by
  induction ns generalizing i with
  | nil => rfl
  | cons n rest ih =>
    obtain ⟨hn, hrest⟩ := List.forall_mem_cons.1 h
    have hi : root.children[i]? = some n := by
      rw [← List.head?_drop, hdrop, List.head?_cons]
    have hnext : root.children.drop (i + 1) = rest := by
      rw [← List.tail_drop, hdrop, List.tail_cons]
    have hbelow : root.at? ∘ (i :: ·) = n.at? := by
      funext place
      rw [Function.comp_apply, at?_cons, hi, Option.bind_some]
    rw [walkPlacesFrom, preorderAll, List.map_append, List.map_append, ih hnext hrest, List.map_map,
      hbelow, hn]

/-- The walk yields the nodes at these places, one after the other. -/
theorem map_at?_walkPlaces (n : Node) : n.walkPlaces.map n.at? = n.preorder.map some := by
  induction n using treeInduction with
  | node n ih =>
    rw [walkPlaces_eq, preorder_eq, List.map_cons, List.map_cons, at?_nil,
      map_at?_walkPlacesFrom List.drop_zero ih]

example : (mk "a" 0 3 [mk "b" 0 2 [mk "c" 0 1 [] [], mk "d" 1 2 [] []] [], mk "e" 2 3 [] []] []).walkPlaces =
    [[], [1], [0], [0, 1], [0, 0]] := by decide

theorem infix_walkPlacesFrom {i j : Nat} {ns : List Node} {c : Node} (h : ns[j]? = some c) :
    c.walkPlaces.map ((i + j) :: ·) <:+: walkPlacesFrom i ns := by
  induction ns generalizing i j with
  | nil => simp at h
  | cons n rest ih =>
    rw [walkPlacesFrom]
    cases j with
    | zero =>
      obtain rfl : n = c := by simpa using h
      exact (List.suffix_append _ _).isInfix
    | succ j =>
      have hj : rest[j]? = some c := by simpa using h
      have hsum : i + (j + 1) = i + 1 + j := by omega
      rw [hsum]
      exact (ih hj).trans (List.prefix_append _ _).isInfix

/-- The places at and below a node stand together, as if the walk went through its tree alone. -/
theorem infix_walkPlaces {root n : Node} {p : List Nat} (h : root.at? p = some n) :
    n.walkPlaces.map (p ++ ·) <:+: root.walkPlaces := by
  induction p generalizing root with
  | nil =>
    obtain rfl : root = n := by simpa using h
    simp
  | cons i p ih =>
    obtain ⟨c, hc, hn⟩ := Option.bind_eq_some_iff.1 h
    have hchild : c.walkPlaces.map (i :: ·) <:+: root.walkPlaces := by
      have hfrom := infix_walkPlacesFrom (i := 0) hc
      rw [Nat.zero_add] at hfrom
      rw [walkPlaces_eq root]
      exact hfrom.trans (List.suffix_cons _ _).isInfix
    have hbelow := (ih hn).map (i :: ·)
    rw [List.map_map] at hbelow
    exact hbelow.trans hchild

theorem not_isParent_cons {i j : Nat} {p q : List Nat}
    (h : i = j → ¬ IsParent p q) : ¬ IsParent (i :: p) (j :: q) := by
  rintro ⟨-, heq⟩
  cases q with
  | nil => simp at heq
  | cons k q =>
    rw [List.dropLast_cons_of_ne_nil (List.cons_ne_nil k q), List.cons.injEq] at heq
    exact h heq.1 ⟨List.cons_ne_nil k q, heq.2⟩

theorem head_of_mem_walkPlacesFrom {i : Nat} {ns : List Node} {p : List Nat}
    (h : p ∈ walkPlacesFrom i ns) : ∃ j place, i ≤ j ∧ p = j :: place := by
  have hmem := (walkPlacesFrom_perm fun n _ => n.walkPlaces_perm).mem_iff.1 h
  obtain ⟨j, -, place, -, -, rfl⟩ := mem_placesFrom.1 hmem
  exact ⟨i + j, place, Nat.le_add_right i j, rfl⟩

theorem walkPlacesFrom_parents {i : Nat} {ns : List Node}
    (h : ∀ n ∈ ns, n.walkPlaces.Pairwise fun p q => ¬ IsParent q p) :
    (walkPlacesFrom i ns).Pairwise fun p q => ¬ IsParent q p := by
  induction ns generalizing i with
  | nil => exact List.Pairwise.nil
  | cons n rest ih =>
    obtain ⟨hn, hrest⟩ := List.forall_mem_cons.1 h
    rw [walkPlacesFrom, List.pairwise_append]
    refine ⟨ih hrest, ?_, ?_⟩
    · rw [List.pairwise_map]
      exact hn.imp fun hpq => not_isParent_cons fun _ => hpq
    · intro p hp q hq
      obtain ⟨j, place, hle, rfl⟩ := head_of_mem_walkPlacesFrom hp
      obtain ⟨place', -, rfl⟩ := List.mem_map.1 hq
      exact not_isParent_cons fun hij => absurd hij (by omega)

theorem walkPlaces_parents (n : Node) : n.walkPlaces.Pairwise fun p q => ¬ IsParent q p := by
  induction n using treeInduction with
  | node n ih =>
    rw [walkPlaces_eq, List.pairwise_cons]
    exact ⟨fun _ _ hroot => hroot.1 rfl, walkPlacesFrom_parents ih⟩

/-- The order of the walk is one of the orders with parents first. -/
theorem enumerates_walkPlaces (root : Node) : root.Enumerates root.walkPlaces where
  complete := root.walkPlaces_perm
  parent_first := root.walkPlaces_parents

/-! ### Depth first -/

/-- The nodes of a tree, listed in the order of their places: each place once, the root first, a node before
all nodes below it, and these right after it. -/
structure DepthFirst (root : Node) (nodes : List Node) (order : List (List Nat)) : Prop where
  nodes_at : nodes.map some = order.map root.at?
  once : order.Nodup
  complete : ∀ p, p ∈ order ↔ ∃ n, root.at? p = some n
  root_first : order.head? = some []
  ancestors_first : ∀ p q, q ≠ [] → p ++ q ∈ order → order.idxOf p < order.idxOf (p ++ q)
  below_together : ∀ p ∈ order, ∃ before below after, order = before ++ p :: below ++ after ∧
    ∀ q, q ∈ below ↔ q ∈ order ∧ p <+: q ∧ q ≠ p

theorem append_mem_walkPlaces {root n : Node} {p q : List Nat} (h : root.at? p = some n) :
    p ++ q ∈ root.walkPlaces ↔ q ∈ n.walkPlaces := by
  rw [mem_walkPlaces, mem_walkPlaces, at?_append, h, Option.bind_some]

theorem mem_walkPlacesFrom_children {n : Node} {q : List Nat} :
    q ∈ walkPlacesFrom 0 n.children ↔ q ∈ n.walkPlaces ∧ q ≠ [] := by
  have hnodup := n.nodup_walkPlaces
  rw [walkPlaces_eq, List.nodup_cons] at hnodup
  rw [walkPlaces_eq, List.mem_cons]
  constructor
  · intro hq
    exact ⟨Or.inr hq, fun hroot => hnodup.1 (hroot ▸ hq)⟩
  · rintro ⟨hroot | hq, hne⟩
    · exact absurd hroot hne
    · exact hq

theorem walkPlaces_below_together {root : Node} {p : List Nat} (hp : p ∈ root.walkPlaces) :
    ∃ before below after, root.walkPlaces = before ++ p :: below ++ after ∧
      ∀ q, q ∈ below ↔ q ∈ root.walkPlaces ∧ p <+: q ∧ q ≠ p := by
  obtain ⟨n, hn⟩ := mem_walkPlaces.1 hp
  obtain ⟨before, after, hsplit⟩ := infix_walkPlaces hn
  refine ⟨before, (walkPlacesFrom 0 n.children).map (p ++ ·), after, ?_, ?_⟩
  · rw [← hsplit, walkPlaces_eq n, List.map_cons, List.append_nil]
  · intro q
    rw [List.mem_map]
    constructor
    · rintro ⟨r, hr, rfl⟩
      obtain ⟨hbelow, hne⟩ := mem_walkPlacesFrom_children.1 hr
      exact ⟨(append_mem_walkPlaces hn).2 hbelow, List.prefix_append p r, by simpa using hne⟩
    · rintro ⟨hq, ⟨r, rfl⟩, hne⟩
      have hroot : r ≠ [] := by simpa using hne
      exact ⟨r, mem_walkPlacesFrom_children.2 ⟨(append_mem_walkPlaces hn).1 hq, hroot⟩, rfl⟩

/-- The walk of a tree ends after as many rounds as the tree has nodes, and each round yields the top of the
stack. What it yields is the list that the recursion on the tree makes: the tree depth first, each node at
its place, once. -/
theorem walk_depthFirst (root : Node) :
    (∀ k, afterRound^[k] [root] = [] ↔ root.size ≤ k) ∧
      (∀ k, (afterRound^[k] [root]).head? = root.walk[k]?) ∧
      root.walk = root.preorder ∧
      (∀ n : Node, n.preorder = n :: n.children.reverse.flatMap preorder) ∧
      DepthFirst root root.walk root.walkPlaces := by
  refine ⟨root.iterate_afterRound_eq_nil_iff, root.head?_iterate_afterRound, root.walk_eq_preorder,
    preorder_eq_flatMap, ?_⟩
  exact {
    nodes_at := by rw [walk_eq_preorder, map_at?_walkPlaces]
    once := root.nodup_walkPlaces
    complete := fun _ => mem_walkPlaces
    root_first := by rw [walkPlaces_eq, List.head?_cons]
    ancestors_first := fun _ _ hq hmem => root.enumerates_walkPlaces.idxOf_lt hq hmem
    below_together := fun _ hp => walkPlaces_below_together hp }

end Redact.Node
