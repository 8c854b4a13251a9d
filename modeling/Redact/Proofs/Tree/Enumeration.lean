import Mathlib.Data.List.Induction
import Mathlib.Data.List.Nodup
import Redact.Proofs.Tree.Nesting

/-! # Enumerations of a tree

The place of a node in a tree is the list of the numbers of the children that lead to it from the
root. Nodes at two places are two nodes also if they look the same. An enumeration lists each place of
a tree once and each parent before its children (`Enumerates`); the order of siblings and of whole
branches is left open, so the walk is one enumeration of many. In each of them, if the tree is
well-nested, a node leads those after it (`nodesAt_leads`). -/

namespace Redact.Node

/-- The node at a place. -/
def at? : Node → List Nat → Option Node
  | n, [] => some n
  | n, i :: place => (n.children[i]?).bind fun c => c.at? place

mutual

def places : Node → List (List Nat)
  | mk _ _ _ children _ => [] :: placesFrom 0 children

/-- The places in trees that are numbered from `i` on. -/
def placesFrom (i : Nat) : List Node → List (List Nat)
  | [] => []
  | n :: rest => n.places.map (i :: ·) ++ placesFrom (i + 1) rest

end

def IsParent (p q : List Nat) : Prop := q ≠ [] ∧ p = q.dropLast

instance (p q : List Nat) : Decidable (IsParent p q) := inferInstanceAs (Decidable (_ ∧ _))

/-- The list has each place of the tree once, and no place stands before that of its parent. -/
structure Enumerates (root : Node) (order : List (List Nat)) : Prop where
  complete : order.Perm root.places
  parent_first : order.Pairwise fun p q => ¬ IsParent q p

instance (root : Node) (order : List (List Nat)) : Decidable (root.Enumerates order) :=
  decidable_of_iff (order.Perm root.places ∧ order.Pairwise fun p q => ¬ IsParent q p)
    ⟨fun ⟨h1, h2⟩ => ⟨h1, h2⟩, fun ⟨h1, h2⟩ => ⟨h1, h2⟩⟩

def nodesAt (root : Node) (order : List (List Nat)) : List Node := order.filterMap root.at?

/-! ### Places -/

@[simp]
theorem at?_nil (n : Node) : n.at? [] = some n := rfl

theorem at?_cons (n : Node) (i : Nat) (place : List Nat) :
    n.at? (i :: place) = (n.children[i]?).bind fun c => c.at? place := rfl

theorem at?_append (n : Node) (p q : List Nat) : n.at? (p ++ q) = (n.at? p).bind (·.at? q) := by
  induction p generalizing n with
  | nil => simp
  | cons i p ih =>
    rw [List.cons_append, at?_cons, at?_cons]
    cases n.children[i]? with
    | none => simp
    | some c => simp [ih]

theorem places_eq (n : Node) : n.places = [] :: placesFrom 0 n.children := by
  cases n with
  | mk => rw [places, children]

theorem mem_placesFrom {i : Nat} {ns : List Node} {p : List Nat} :
    p ∈ placesFrom i ns ↔
      ∃ j c place, ns[j]? = some c ∧ place ∈ c.places ∧ p = (i + j) :: place := by
  induction ns generalizing i with
  | nil => simp [placesFrom]
  | cons n rest ih =>
    rw [placesFrom, List.mem_append, ih, List.mem_map]
    constructor
    · rintro (⟨place, hplace, rfl⟩ | ⟨j, c, place, hj, hplace, rfl⟩)
      · exact ⟨0, n, place, rfl, hplace, rfl⟩
      · exact ⟨j + 1, c, place, by simpa using hj, hplace, by simp; omega⟩
    · rintro ⟨j, c, place, hj, hplace, rfl⟩
      cases j with
      | zero =>
        have hc : n = c := by simpa using hj
        exact Or.inl ⟨place, hc ▸ hplace, by simp⟩
      | succ j => exact Or.inr ⟨j, c, place, by simpa using hj, hplace, by simp; omega⟩

/-- The places of a tree are those at which it has a node. -/
theorem mem_places {n : Node} {p : List Nat} : p ∈ n.places ↔ ∃ m, n.at? p = some m := by
  induction n using treeInduction generalizing p with
  | node n ih =>
    rw [places_eq, List.mem_cons, mem_placesFrom]
    cases p with
    | nil => simp
    | cons i place =>
      rw [at?_cons]
      constructor
      · rintro (h | ⟨j, c, rest, hj, hrest, heq⟩)
        · simp at h
        · obtain ⟨rfl, rfl⟩ : i = 0 + j ∧ place = rest := by simpa using heq
          rw [Nat.zero_add, hj]
          exact (ih c (List.mem_of_getElem? hj)).1 hrest
      · rintro ⟨m, hm⟩
        obtain ⟨c, hc, hcm⟩ := Option.bind_eq_some_iff.1 hm
        have hplace : place ∈ c.places := (ih c (List.mem_of_getElem? hc)).2 ⟨m, hcm⟩
        exact Or.inr ⟨i, c, place, hc, hplace, by simp⟩

theorem nodup_placesFrom {i : Nat} {ns : List Node} (h : ∀ n ∈ ns, n.places.Nodup) :
    (placesFrom i ns).Nodup := by
  induction ns generalizing i with
  | nil => simp [placesFrom]
  | cons n rest ih =>
    obtain ⟨hn, hrest⟩ := List.forall_mem_cons.1 h
    rw [placesFrom, List.nodup_append]
    refine ⟨hn.map (List.cons_injective), ih hrest, ?_⟩
    intro p hp q hq heq
    obtain ⟨place, -, rfl⟩ := List.mem_map.1 hp
    obtain ⟨j, c, place', -, -, rfl⟩ := mem_placesFrom.1 hq
    have hhead : i = i + 1 + j := (List.cons.inj heq).1
    omega

theorem nodup_places (n : Node) : n.places.Nodup := by
  induction n using treeInduction with
  | node n ih =>
    rw [places_eq, List.nodup_cons]
    refine ⟨?_, nodup_placesFrom ih⟩
    intro h
    obtain ⟨j, c, place, -, -, heq⟩ := mem_placesFrom.1 h
    simp at heq

theorem mem_preorder_of_at? {n m : Node} {p : List Nat} (h : n.at? p = some m) :
    m ∈ n.preorder := by
  induction p generalizing n with
  | nil =>
    have heq : n = m := by simpa using h
    exact heq ▸ mem_preorder_self n
  | cons i p ih =>
    obtain ⟨c, hc, hm⟩ := Option.bind_eq_some_iff.1 h
    exact mem_preorder.2 (Or.inr ⟨c, List.mem_of_getElem? hc, ih hm⟩)

theorem exists_at?_of_mem_preorder {n m : Node} (h : m ∈ n.preorder) : ∃ p, n.at? p = some m := by
  induction n using treeInduction with
  | node n ih =>
    rcases mem_preorder.1 h with rfl | ⟨c, hc, hm⟩
    · exact ⟨[], rfl⟩
    · obtain ⟨i, hi⟩ := List.mem_iff_getElem?.1 hc
      obtain ⟨p, hp⟩ := ih c hc hm
      exact ⟨i :: p, by rw [at?_cons, hi]; exact hp⟩

/-! ### Places of a well-nested tree -/

/-- Two children at different numbers are apart. -/
theorem Nested.children_apart {shape : Shape} {n a b : Node} (h : n.Nested shape) {i j : Nat}
    (ha : n.children[i]? = some a) (hb : n.children[j]? = some b) (hij : i ≠ j) :
    a.span.Apart b.span := by
  obtain ⟨hi, rfl⟩ := List.getElem?_eq_some_iff.1 ha
  obtain ⟨hj, rfl⟩ := List.getElem?_eq_some_iff.1 hb
  have hordered := List.pairwise_iff_getElem.1 h.children_precede
  rcases Nat.lt_or_gt_of_ne hij with hlt | hlt
  · exact Or.inl (hordered i j hi hj hlt)
  · exact Or.inr (hordered j i hj hi hlt)

/-- The nodes at two places are apart, unless one place leads on to the other. -/
theorem Nested.at?_apart {shape : Shape} {root m n : Node} (h : root.Nested shape) {p q : List Nat}
    (hp : root.at? p = some m) (hq : root.at? q = some n) :
    p <+: q ∨ q <+: p ∨ m.span.Apart n.span := by
  induction p generalizing root q with
  | nil => exact Or.inl (List.nil_prefix)
  | cons i p ih =>
    cases q with
    | nil => exact Or.inr (Or.inl List.nil_prefix)
    | cons j q =>
      obtain ⟨a, ha, hm⟩ := Option.bind_eq_some_iff.1 hp
      obtain ⟨b, hb, hn⟩ := Option.bind_eq_some_iff.1 hq
      have han : a.Nested shape := h.of_child (List.mem_of_getElem? ha)
      have hbn : b.Nested shape := h.of_child (List.mem_of_getElem? hb)
      by_cases hij : i = j
      · subst hij
        have hab : a = b := Option.some.inj (ha.symm.trans hb)
        subst hab
        rcases ih han hm hn with hpq | hqp | hapart
        · exact Or.inl ((List.prefix_cons_inj i).2 hpq)
        · exact Or.inr (Or.inl ((List.prefix_cons_inj i).2 hqp))
        · exact Or.inr (Or.inr hapart)
      · have hapart : a.span.Apart b.span := h.children_apart ha hb hij
        exact Or.inr (Or.inr (hapart.mono (han.within (mem_preorder_of_at? hm))
          (hbn.within (mem_preorder_of_at? hn))))

/-! ### Enumerations -/

namespace Enumerates

variable {root : Node} {order : List (List Nat)}

theorem nodup (h : root.Enumerates order) : order.Nodup :=
  h.complete.nodup_iff.2 root.nodup_places

theorem mem_iff (h : root.Enumerates order) {p : List Nat} :
    p ∈ order ↔ ∃ m, root.at? p = some m :=
  h.complete.mem_iff.trans mem_places

theorem mem_of_append (h : root.Enumerates order) {p q : List Nat} (hpq : p ++ q ∈ order) :
    p ∈ order := by
  obtain ⟨m, hm⟩ := h.mem_iff.1 hpq
  rw [at?_append] at hm
  obtain ⟨n, hn, -⟩ := Option.bind_eq_some_iff.1 hm
  exact h.mem_iff.2 ⟨n, hn⟩

theorem idxOf_parent_lt (h : root.Enumerates order) {p : List Nat} {i : Nat}
    (hp : p ++ [i] ∈ order) : order.idxOf p < order.idxOf (p ++ [i]) := by
  have hparent : p ∈ order := h.mem_of_append hp
  have hi : order.idxOf p < order.length := List.idxOf_lt_length_of_mem hparent
  have hj : order.idxOf (p ++ [i]) < order.length := List.idxOf_lt_length_of_mem hp
  have hne : order.idxOf p ≠ order.idxOf (p ++ [i]) := by
    intro heq
    have hsame : p = p ++ [i] := (List.idxOf_inj hparent).1 heq
    simp at hsame
  by_contra hlt
  have hpair := List.pairwise_iff_getElem.1 h.parent_first _ _ hj hi (by omega)
  rw [List.getElem_idxOf, List.getElem_idxOf] at hpair
  exact hpair ⟨by simp, by simp⟩

/-- A node stands before all others in its tree, not only before its children. -/
theorem idxOf_lt (h : root.Enumerates order) {p q : List Nat} (hq : q ≠ []) (hpq : p ++ q ∈ order) :
    order.idxOf p < order.idxOf (p ++ q) := by
  induction q using List.reverseRecOn with
  | nil => exact absurd rfl hq
  | append_singleton q i ih =>
    rw [← List.append_assoc] at hpq ⊢
    have hlast := h.idxOf_parent_lt hpq
    cases q with
    | nil => simpa using hlast
    | cons j q => exact (ih (by simp) (h.mem_of_append hpq)).trans hlast

theorem pairwise_not_prefix (h : root.Enumerates order) :
    order.Pairwise fun p q => q <+: p → q = p := by
  rw [List.pairwise_iff_getElem]
  rintro i j hi hj hij ⟨rest, hrest⟩
  cases rest with
  | nil => simpa using hrest
  | cons k rest =>
    have hmem : order[j] ++ k :: rest ∈ order := hrest ▸ List.getElem_mem hi
    have hlt := h.idxOf_lt (List.cons_ne_nil k rest) hmem
    rw [hrest, h.nodup.idxOf_getElem, h.nodup.idxOf_getElem] at hlt
    omega

theorem mem_nodesAt (h : root.Enumerates order) {n : Node} :
    n ∈ root.nodesAt order ↔ n ∈ root.preorder := by
  rw [nodesAt, List.mem_filterMap]
  constructor
  · rintro ⟨p, -, hp⟩
    exact mem_preorder_of_at? hp
  · intro hn
    obtain ⟨p, hp⟩ := exists_at?_of_mem_preorder hn
    exact ⟨p, h.mem_iff.2 ⟨n, hp⟩, hp⟩

/-- In an enumeration of a well-nested tree each node leads those after it. -/
theorem nodesAt_leads {shape : Shape} (h : root.Enumerates order) (hn : root.Nested shape) :
    (root.nodesAt order).Pairwise Leads := by
  rw [nodesAt, List.pairwise_filterMap]
  refine h.pairwise_not_prefix.imp ?_
  intro p q hback m hm n hn'
  have hforward : p <+: q → m.Leads n := by
    rintro ⟨rest, rfl⟩
    rw [at?_append, hm] at hn'
    exact Or.inl (mem_preorder_of_at? hn')
  rcases hn.at?_apart hm hn' with hpq | hqp | hapart
  · exact hforward hpq
  · exact hforward (hback hqp ▸ List.prefix_refl _)
  · exact Or.inr hapart

end Enumerates

end Redact.Node
