import Redact.Proofs.Span
import Redact.Proofs.Tree.Preorder
import Redact.Syntax.Shape

/-! # Well-nested trees

A tree is well-nested if each node ends no earlier than it starts, lies inside its parent and follows
the sibling before it; literals are not empty, and the root lies inside the source. Nothing is asked of
fields: one whose place has no child leads nowhere. Of two nodes of such a tree, one lies in the tree
of the other or their spans are apart (`mem_or_apart`). In preorder a node comes before those in its
tree, and it is apart from all other nodes after it (`preorder_leads`). -/

namespace Redact

namespace Node

/-- What is asked of a node in a well-nested tree. -/
structure WellPlaced (shape : Shape) (n : Node) : Prop where
  start_le_stop : n.start ≤ n.stop
  inside : ∀ c ∈ n.children, n.start ≤ c.start ∧ c.stop ≤ n.stop
  ordered : n.children.Pairwise fun a b => a.stop ≤ b.start
  literal : n.kind ∈ shape.literalKinds → n.start < n.stop

instance (shape : Shape) (n : Node) : Decidable (n.WellPlaced shape) :=
  decidable_of_iff
    (n.start ≤ n.stop ∧ (∀ c ∈ n.children, n.start ≤ c.start ∧ c.stop ≤ n.stop) ∧
      (n.children.Pairwise fun a b => a.stop ≤ b.start) ∧
      (n.kind ∈ shape.literalKinds → n.start < n.stop))
    ⟨fun ⟨h1, h2, h3, h4⟩ => ⟨h1, h2, h3, h4⟩, fun ⟨h1, h2, h3, h4⟩ => ⟨h1, h2, h3, h4⟩⟩

def Nested (shape : Shape) (n : Node) : Prop := ∀ m ∈ n.preorder, m.WellPlaced shape

instance (shape : Shape) (n : Node) : Decidable (n.Nested shape) :=
  inferInstanceAs (Decidable (∀ m ∈ n.preorder, _))

/-- `b` lies in the tree of `a`, or the spans of the two are apart. -/
def Leads (a b : Node) : Prop := b ∈ a.preorder ∨ a.span.Apart b.span

end Node

structure WellNested (shape : Shape) (source : List UInt8) (root : Node) : Prop where
  nested : root.Nested shape
  inside : root.stop ≤ source.length

instance (shape : Shape) (source : List UInt8) (root : Node) :
    Decidable (WellNested shape source root) :=
  decidable_of_iff (root.Nested shape ∧ root.stop ≤ source.length)
    ⟨fun ⟨h1, h2⟩ => ⟨h1, h2⟩, fun ⟨h1, h2⟩ => ⟨h1, h2⟩⟩

namespace Node.Nested

variable {shape : Shape} {root m n : Node}

theorem of_mem (h : root.Nested shape) (hm : m ∈ root.preorder) : m.Nested shape :=
  fun k hk => h k (mem_preorder_trans hk hm)

theorem of_child (h : n.Nested shape) (hm : m ∈ n.children) : m.Nested shape :=
  h.of_mem (mem_preorder_of_mem_children hm)

theorem placed (h : n.Nested shape) : n.WellPlaced shape := h n (mem_preorder_self n)

theorem child_within (h : n.Nested shape) (hm : m ∈ n.children) : m.span.Within n.span := by
  have := h.placed.inside m hm
  simp only [Span.Within, span]
  omega

theorem within (h : root.Nested shape) (hm : m ∈ root.preorder) : m.span.Within root.span := by
  induction root using treeInduction with
  | node root ih =>
    rcases mem_preorder.1 hm with rfl | ⟨c, hc, hmc⟩
    · exact Span.Within.refl m.span
    · exact (ih c hc (h.of_child hc) hmc).trans (h.child_within hc)

theorem filled (h : n.Nested shape) (hl : n.kind ∈ shape.literalKinds) : n.span.Filled := by
  have := h.placed.literal hl
  simp only [Span.Filled, span]
  omega

theorem children_precede (h : n.Nested shape) :
    n.children.Pairwise fun a b => a.span.Precedes b.span := by
  refine h.placed.ordered.imp ?_
  intro a b hab
  simp only [Span.Precedes, span]
  omega

theorem children_eq_or_apart (h : n.Nested shape) {c d : Node} (hc : c ∈ n.children)
    (hd : d ∈ n.children) : c = d ∨ c.span.Apart d.span := by
  have hsymm : Std.Symm fun a b : Node => a.span.Apart b.span := ⟨fun _ _ => Span.Apart.symm⟩
  have hapart : n.children.Pairwise fun a b => a.span.Apart b.span :=
    h.children_precede.imp Or.inl
  by_cases heq : c = d
  · exact Or.inl heq
  · exact Or.inr (hapart.forall hc hd heq)

end Node.Nested

namespace Node

variable {shape : Shape}

/-- The nodes of trees in source order: those of a later tree are apart from those of an earlier
one. -/
theorem preorderAll_leads {ns : List Node} (hn : ∀ n ∈ ns, n.Nested shape)
    (ho : ns.Pairwise fun a b => a.span.Precedes b.span)
    (hp : ∀ n ∈ ns, n.preorder.Pairwise Leads) : (preorderAll ns).Pairwise Leads := by
  induction ns with
  | nil => simp [preorderAll]
  | cons n rest ih =>
    obtain ⟨hfirst, hrest⟩ := List.pairwise_cons.1 ho
    obtain ⟨hnn, hnr⟩ := List.forall_mem_cons.1 hn
    obtain ⟨hpn, hpr⟩ := List.forall_mem_cons.1 hp
    rw [preorderAll, List.pairwise_append]
    refine ⟨ih hnr hrest hpr, hpn, ?_⟩
    intro a ha b hb
    obtain ⟨d, hd, had⟩ := mem_preorderAll.1 ha
    have hapart : d.span.Apart n.span := Or.inr (hfirst d hd)
    exact Or.inr (hapart.mono ((hnr d hd).within had) (hnn.within hb))

theorem preorder_leads {root : Node} (h : root.Nested shape) : root.preorder.Pairwise Leads := by
  induction root using treeInduction with
  | node root ih =>
    rw [preorder_eq, List.pairwise_cons]
    constructor
    · intro m hm
      exact Or.inl (mem_preorder.2 (Or.inr (mem_preorderAll.1 hm)))
    · exact preorderAll_leads (fun c hc => h.of_child hc) h.children_precede
        fun c hc => ih c hc (h.of_child hc)

/-- Of two nodes of a tree, one lies in the tree of the other or they are apart. -/
theorem mem_or_apart {root m n : Node} (h : root.Nested shape) (hm : m ∈ root.preorder)
    (hn : n ∈ root.preorder) :
    m ∈ n.preorder ∨ n ∈ m.preorder ∨ m.span.Apart n.span := by
  have hsymm : Std.Symm fun a b : Node => a ∈ b.preorder ∨ a.Leads b := by
    refine ⟨fun a b hab => ?_⟩
    rcases hab with hab | hab | hab
    · exact Or.inr (Or.inl hab)
    · exact Or.inl hab
    · exact Or.inr (Or.inr hab.symm)
  have hpair : root.preorder.Pairwise fun a b : Node => a ∈ b.preorder ∨ a.Leads b :=
    (preorder_leads h).imp Or.inr
  have hself : ∀ a ∈ root.preorder, a ∈ a.preorder ∨ a.Leads a :=
    fun a _ => Or.inl (mem_preorder_self a)
  exact hpair.forall_of_forall hself hm hn

/-- Of the spans of two nodes of a tree, one lies inside the other or they are apart. -/
theorem within_or_apart {root m n : Node} (h : root.Nested shape) (hm : m ∈ root.preorder)
    (hn : n ∈ root.preorder) :
    m.span.Within n.span ∨ n.span.Within m.span ∨ m.span.Apart n.span := by
  rcases mem_or_apart h hm hn with hin | hin | hapart
  · exact Or.inl ((h.of_mem hn).within hin)
  · exact Or.inr (Or.inl ((h.of_mem hm).within hin))
  · exact Or.inr (Or.inr hapart)

end Node

end Redact
