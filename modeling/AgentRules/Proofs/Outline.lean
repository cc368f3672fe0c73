/-
  Trees that are built from outlines.

  Building numbers the nodes of an outline and does nothing else to them: the tree has the
  outline that it was built from, and as many nodes. At every node the children of each kind have
  the indices from zero on, in the order in which they stand, so that a kind and an index find
  the child that they should (`Outline.build_indexed`).

  What indices children have depends on the node they are appended to, and not on themselves. So
  it is enough to look at one node at a time (`Node.Counted.indexed`), and the nodes below come
  in by the induction along which a tree is known to be numbered.
-/
import AgentRules.Proofs.Numbering
import AgentRules.Proofs.Place

namespace AgentRules

/-! ### Kinds and indices -/

namespace Node

/-- Whether a kind and an index find the right child of a node: the children of each kind have
    the indices from zero on, in order, and each is found by its index. -/
structure Indexed (n : Node) : Prop where
  indices (kind : Fragment) :
    (n.children.filter (·.kind = kind)).map (·.index) =
      List.range (n.children.countP (·.kind = kind))
  child?_eq (kind : Fragment) (i : Nat) :
    n.child? kind i = (n.children.filter (·.kind = kind))[i]?

theorem Counted.indices {ns : List Node} (h : Counted ns) (kind : Fragment) :
    (ns.filter (·.kind = kind)).map (·.index) = List.range (ns.countP (·.kind = kind)) := by
  -- By induction from the end, where the last node counts all nodes before it.
  induction ns using List.reverseRecOn with
  | nil => rfl
  | append_singleton ns c ih =>
    obtain ⟨hns, hc⟩ := counted_concat.mp h
    rw [List.filter_append, List.map_append, ih hns, List.countP_append]
    by_cases hkind : c.kind = kind
    · subst hkind
      have hlast : [c].countP (·.kind = c.kind) = 1 := by simp
      rw [hlast, List.range_succ, ← hc]
      simp
    · simp [hkind]

/-- **Children that are counted are found** by their kind and their index. -/
theorem Counted.indexed {n : Node} (h : Counted n.children) : n.Indexed := by
  refine ⟨h.indices, fun kind i => ?_⟩
  have hlength : ((n.children.filter (·.kind = kind)).map (·.index)) =
      List.range (n.children.filter (·.kind = kind)).length := by
    rw [h.indices, List.countP_eq_length_filter]
  unfold child?
  rw [← find?_eq_getElem? hlength i, List.find?_filter]
  simp

/-- All children are counted that are appended to a node whose children are. -/
theorem Counted.foldl_push {parent : Node} (h : Counted parent.children) (ns : List Node) :
    Counted (ns.foldl push parent).children := by
  induction ns generalizing parent with
  | nil => exact h
  | cons n ns ih => exact ih (counted_push h n)

/-- In a numbered tree every node is numbered. -/
theorem Numbered.of_mem_preorder {p q : Place} (h : p.node.Numbered) (hq : q ∈ p.preorder) :
    q.node.Numbered := by
  induction p using Place.induct with
  | h p ih =>
    rw [Place.preorder_eq, List.mem_cons, List.mem_flatMap] at hq
    rcases hq with rfl | ⟨c, hc, hq⟩
    · exact h
    · obtain ⟨i, n, hn, rfl⟩ := Place.mem_children.mp hc
      exact ih _ hc (h.of_mem_children (List.mem_of_getElem? hn)) hq

theorem Numbered.indexed {n : Node} (h : n.Numbered) : n.Indexed :=
  Counted.indexed fun _ _ hc => h.index_eq hc

/-! ### The outline of a tree -/

mutual

/-- What a tree is without the indices of its nodes. -/
def outline : Node → Outline
  | ⟨kind, _, value, children⟩ => ⟨kind, value, outlineAll children⟩

/-- The outlines of several trees. -/
def outlineAll : List Node → List Outline
  | [] => []
  | n :: ns => outline n :: outlineAll ns

end

theorem outlineAll_eq (ns : List Node) : outlineAll ns = ns.map outline := by
  induction ns with
  | nil => rfl
  | cons n ns ih => rw [outlineAll, ih, List.map_cons]

theorem outline_eq (n : Node) : n.outline = ⟨n.kind, n.value, n.children.map outline⟩ := by
  obtain ⟨kind, index, value, children⟩ := n
  rw [outline, outlineAll_eq]

/-- A child that is appended keeps all but its index. -/
theorem outline_push (parent child : Node) :
    (parent.push child).outline =
      ⟨parent.kind, parent.value, parent.children.map outline ++ [child.outline]⟩ := by
  rw [outline_eq (parent.push child), outline_eq child]
  unfold push
  rw [List.map_append, List.map_singleton, outline_eq]

theorem outline_foldl_push (parent : Node) (ns : List Node) :
    (ns.foldl push parent).outline =
      ⟨parent.kind, parent.value, parent.children.map outline ++ ns.map outline⟩ := by
  induction ns generalizing parent with
  | nil => rw [List.foldl_nil, outline_eq, List.map_nil, List.append_nil]
  | cons n ns ih =>
    have hpush := outline_push parent n
    rw [outline_eq (parent.push n), Outline.mk.injEq] at hpush
    obtain ⟨hkind, hvalue, hchildren⟩ := hpush
    rw [List.foldl_cons, ih, hkind, hvalue, hchildren, List.append_assoc]
    rfl

/-! ### The size of a tree -/

theorem sizeAll_append (ns ms : List Node) : sizeAll (ns ++ ms) = sizeAll ns + sizeAll ms := by
  induction ns with
  | nil => rw [List.nil_append, sizeAll, Nat.zero_add]
  | cons n ns ih => rw [List.cons_append, sizeAll, sizeAll, ih, Nat.add_assoc]

theorem size_eq (n : Node) : n.size = 1 + sizeAll n.children := by
  obtain ⟨kind, index, value, children⟩ := n
  rw [size]

theorem size_push (parent child : Node) : (parent.push child).size = parent.size + child.size := by
  have hchild (index : Nat) : ({ child with index } : Node).size = child.size := by
    rw [size_eq, size_eq]
  rw [size_eq (parent.push child), size_eq parent]
  unfold push
  rw [sizeAll_append, sizeAll, sizeAll, hchild]
  omega

end Node

/-! ### Building -/

namespace Outline

mutual

/-- The number of nodes of an outline. -/
def size : Outline → Nat
  | ⟨_, _, children⟩ => 1 + sizeAll children

/-- The number of nodes of several outlines. -/
def sizeAll : List Outline → Nat
  | [] => 0
  | o :: os => size o + sizeAll os

end

/-- The children are built one after the other and appended in their order. -/
theorem pushAll_eq (parent : Node) (os : List Outline) :
    pushAll parent os = (os.map build).foldl Node.push parent := by
  induction os generalizing parent with
  | nil => rfl
  | cons o os ih => rw [pushAll, ih, List.map_cons, List.foldl_cons]

/-- **What is built has the outline that it is built from.** -/
theorem outline_build (o : Outline) : o.build.outline = o := by
  refine Outline.rec (motive_1 := fun o => o.build.outline = o)
    (motive_2 := fun os => (os.map build).map Node.outline = os) ?_ ?_ ?_ o
  · intro kind value children ih
    rw [build, pushAll_eq, Node.outline_foldl_push, ih]
    rfl
  · rfl
  · intro o os ho hos
    rw [List.map_cons, List.map_cons, ho, hos]

/-- **What is built has as many nodes as its outline.** -/
theorem size_build (o : Outline) : o.build.size = o.size := by
  refine Outline.rec (motive_1 := fun o => o.build.size = o.size)
    (motive_2 := fun os => ∀ parent : Node, (pushAll parent os).size = parent.size + sizeAll os)
    ?_ ?_ ?_ o
  · intro kind value children ih
    have hleaf : (Node.leaf kind value).size = 1 := rfl
    rw [build, ih, hleaf, size]
  · intro parent
    rw [pushAll, sizeAll, Nat.add_zero]
  · intro o os ho hos parent
    rw [pushAll, hos, Node.size_push, ho, sizeAll, Nat.add_assoc]

/-- **A tree that is built has the nodes of its outline, and its indices are right.** It has the
    same shape, kinds and values and as many nodes. At every node the children of each kind have
    the indices from zero on, in the order in which they stand; so the child of a kind at an index
    is the one that stands at this place among the children of the kind, and there is none from
    their number on. It does not matter what indices children have before they are appended:
    whatever trees are appended to a node without children, they keep all but their indices, and
    get the right ones. -/
theorem build_indexed (o : Outline) :
    o.build.outline = o ∧ o.build.size = o.size ∧
      (∀ p ∈ (Place.mk [] o.build).preorder, p.node.Indexed) ∧
      ∀ ns : List Node,
        (ns.foldl Node.push (.leaf o.kind o.value)).outline =
          ⟨o.kind, o.value, ns.map Node.outline⟩ ∧
        (ns.foldl Node.push (.leaf o.kind o.value)).Indexed := by
  refine ⟨outline_build o, size_build o, fun p hp => ?_, fun ns => ⟨?_, ?_⟩⟩
  · have hroot : (Place.mk [] o.build).node.Numbered := numbered_build o
    exact (hroot.of_mem_preorder hp).indexed
  · exact Node.outline_foldl_push (.leaf o.kind o.value) ns
  · have hleaf : Node.Counted (Node.leaf o.kind o.value).children := by
      intro i c hc
      simp [Node.leaf] at hc
    exact (hleaf.foldl_push ns).indexed

end Outline

end AgentRules
