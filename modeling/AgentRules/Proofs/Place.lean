/-
  Places of a tree, and the way down to each.

  Functions that go over a tree by mutual recursion on nodes and lists of nodes get one
  equation each here, over the children of a place (`preorder_eq`, `visit_eq`). With
  `Place.induct` for the induction, no later proof has to look at lists of nodes.

  What an index does at a place depends on the kinds and the indices of the nodes on the way
  down to it, the `lineage` of the place. It is read off the address, which is different for
  each place of a tree (`nodup_addresses`).
-/
import AgentRules.RouteIndex.Walk
import Mathlib.Data.List.Nodup

namespace AgentRules

namespace Place

/-! ### Induction over a tree -/

theorem sizeOf_node_lt {p c : Place} (h : c ∈ p.children) : sizeOf c.node < sizeOf p.node := by
  obtain ⟨i, hi, rfl⟩ := List.mem_mapIdx.mp h
  have hmem : sizeOf p.node.children[i] < sizeOf p.node.children :=
    List.sizeOf_lt_of_mem (List.getElem_mem hi)
  have hnode : sizeOf p.node.children < sizeOf p.node := by
    cases p.node
    simp only [Node.mk.sizeOf_spec]
    omega
  show sizeOf p.node.children[i] < sizeOf p.node
  omega

/-- What holds of a place whenever it holds of its children holds of all places. -/
theorem induct {motive : Place → Prop} (h : ∀ p, (∀ c ∈ p.children, motive c) → motive p)
    (p : Place) : motive p :=
  h p fun c _ => induct h c
termination_by sizeOf p.node
decreasing_by exact sizeOf_node_lt ‹_›

/-- The children from a position on. -/
def childrenFrom (address : List Nat) (position : Nat) (ns : List Node) : List Place :=
  ns.mapIdx fun i n => ⟨address ++ [position + i], n⟩

theorem childrenFrom_cons (address : List Nat) (position : Nat) (n : Node) (ns : List Node) :
    childrenFrom address position (n :: ns) =
      ⟨address ++ [position], n⟩ :: childrenFrom address (position + 1) ns := by
  rw [childrenFrom, List.mapIdx_cons, childrenFrom]
  simp only [Nat.add_zero, Nat.add_assoc, Nat.add_comm 1]

theorem children_eq (p : Place) : p.children = childrenFrom p.address 0 p.node.children := by
  simp only [childrenFrom, Nat.zero_add]
  rfl

theorem mem_children {p c : Place} :
    c ∈ p.children ↔ ∃ i n, p.node.children[i]? = some n ∧ c = p.below i n := by
  rw [children, List.mem_mapIdx]
  constructor
  · rintro ⟨i, hi, rfl⟩
    exact ⟨i, _, List.getElem?_eq_getElem hi, rfl⟩
  · rintro ⟨i, n, hn, rfl⟩
    obtain ⟨hi, rfl⟩ := List.getElem?_eq_some_iff.mp hn
    exact ⟨i, hi, rfl⟩

theorem children_getElem? (p : Place) (i : Nat) :
    p.children[i]? = (p.node.children[i]?).map (p.below i) :=
  List.getElem?_mapIdx

/-! ### Preorder -/

theorem preorderAll_eq (address : List Nat) (ns : List Node) (position : Nat) :
    preorderAll address position ns = (childrenFrom address position ns).flatMap preorder := by
  induction ns generalizing position with
  | nil => rfl
  | cons n ns ih =>
    rw [preorderAll, childrenFrom_cons, List.flatMap_cons, ih]
    rfl

theorem preorder_eq (p : Place) : p.preorder = p :: p.children.flatMap preorder := by
  rw [children_eq, ← preorderAll_eq]
  obtain ⟨address, kind, index, value, children⟩ := p
  rfl

theorem address_of_mem_preorder {p q : Place} (h : q ∈ p.preorder) : p.address <+: q.address := by
  induction p using induct with
  | h p ih =>
    rw [preorder_eq, List.mem_cons, List.mem_flatMap] at h
    rcases h with rfl | ⟨c, hc, hq⟩
    · exact List.prefix_rfl
    · obtain ⟨i, n, -, rfl⟩ := mem_children.mp hc
      exact (List.prefix_append _ _).trans (ih _ hc hq)

/-- **Each place has an address of its own.** -/
theorem nodup_addresses (p : Place) : (p.preorder.map address).Nodup := by
  induction p using induct with
  | h p ih =>
    rw [preorder_eq, List.map_cons, List.nodup_cons]
    constructor
    · -- The addresses below are longer.
      rw [List.mem_map]
      rintro ⟨q, hq, hqp⟩
      obtain ⟨c, hc, hq⟩ := List.mem_flatMap.mp hq
      obtain ⟨i, n, -, rfl⟩ := mem_children.mp hc
      have hlen := (address_of_mem_preorder hq).length_le
      rw [hqp] at hlen
      simp only [below, List.length_append, List.length_singleton] at hlen
      omega
    · rw [List.map_flatMap, List.nodup_flatMap]
      refine ⟨ih, ?_⟩
      rw [List.pairwise_iff_getElem]
      intro i j hi hj hij a ha hb
      obtain ⟨q, hq, rfl⟩ := List.mem_map.mp ha
      obtain ⟨q', hq', hqq'⟩ := List.mem_map.mp hb
      -- Both positions would be the next part of one address.
      have h1 := address_of_mem_preorder hq
      have h2 := address_of_mem_preorder hq'
      rw [hqq'] at h2
      simp only [children, List.getElem_mapIdx, below] at h1 h2
      have heq := (List.prefix_of_prefix_length_le h1 h2 (by simp)).eq_of_length (by simp)
      have hsame : i = j := by simpa using heq
      omega

/-! ### The way down -/

/-- The kinds and the indices of the nodes that positions lead through. -/
def wayAlong (p : Place) : List Nat → List (Fragment × Nat)
  | [] => []
  | i :: is =>
    match p.children[i]? with
    | some c => (c.node.kind, c.node.index) :: wayAlong c is
    | none => []

/-- The kinds and the indices of the nodes from a place down to another, the place itself not
    included. -/
def wayTo (p q : Place) : List (Fragment × Nat) :=
  p.wayAlong (q.address.drop p.address.length)

/-- The kinds and the indices of the nodes from a place down to another, both included. -/
def lineage (p q : Place) : List (Fragment × Nat) := (p.node.kind, p.node.index) :: p.wayTo q

theorem wayTo_self (p : Place) : p.wayTo p = [] := by
  rw [wayTo, List.drop_length]
  rfl

/-- The way to a place below a child goes through the child. -/
theorem wayTo_of_child {p c q : Place} (hc : c ∈ p.children) (hq : q ∈ c.preorder) :
    p.wayTo q = c.lineage q := by
  obtain ⟨i, n, hn, rfl⟩ := mem_children.mp hc
  -- The address goes on from that of the child, so its next position leads to the child.
  obtain ⟨rest, hrest⟩ := address_of_mem_preorder hq
  rw [lineage, wayTo, wayTo, ← hrest, List.drop_left]
  simp only [below, List.append_assoc, List.drop_left, List.singleton_append, wayAlong]
  rw [children_getElem?, hn]
  rfl

end Place

/-! ### Walking -/

namespace IndexNode

theorem visitAll_eq (below : RouteNodes) (way : List (Fragment × Nat)) (address : List Nat)
    (ns : List Node) (position : Nat) :
    visitAll below way address position ns =
      (Place.childrenFrom address position ns).flatMap fun c =>
        match below.find? c.node.kind c.node.index with
        | some n => n.visit (way ++ [(c.node.kind, c.node.index)]) c.address c.node
        | none => [] := by
  induction ns generalizing position with
  | nil => rfl
  | cons n ns ih =>
    rw [visitAll, Place.childrenFrom_cons, ih]
    rfl

theorem visit_eq (n : IndexNode) (way : List (Fragment × Nat)) (p : Place) :
    n.visit way p.address p.node =
      n.here.deliver way p ++ p.children.flatMap fun c =>
        match n.below.find? c.node.kind c.node.index with
        | some m => m.visit (way ++ [(c.node.kind, c.node.index)]) c.address c.node
        | none => [] := by
  rw [Place.children_eq, ← visitAll_eq]
  obtain ⟨address, kind, index, value, children⟩ := p
  rfl

/-- Nothing is delivered where nothing is filed. -/
theorem visit_empty (way : List (Fragment × Nat)) (p : Place) :
    empty.visit way p.address p.node = [] := by
  rw [visit_eq]
  exact List.append_eq_nil_iff.mpr ⟨rfl, List.flatMap_eq_nil_iff.mpr fun c _ => rfl⟩

/-- The node at the end of a way down; where the index does not go along, one at which
    nothing is filed. -/
def descend (n : IndexNode) : List (Fragment × Nat) → IndexNode
  | [] => n
  | (kind, index) :: way => ((n.below.find? kind index).getD empty).descend way

/-- **A visit delivers at each place what is filed at the end of its way down**, in
    preorder. -/
theorem visit_eq_flatMap (n : IndexNode) (way : List (Fragment × Nat)) (p : Place) :
    n.visit way p.address p.node =
      p.preorder.flatMap fun q => (n.descend (p.wayTo q)).here.deliver (way ++ p.wayTo q) q := by
  induction p using Place.induct generalizing n way with
  | h p ih =>
    rw [visit_eq, Place.preorder_eq, List.flatMap_cons, Place.wayTo_self, List.append_nil,
      List.flatMap_assoc]
    congr 1
    refine List.flatMap_congr fun c hc => ?_
    have hvisit : (match n.below.find? c.node.kind c.node.index with
        | some m => m.visit (way ++ [(c.node.kind, c.node.index)]) c.address c.node
        | none => []) =
        ((n.below.find? c.node.kind c.node.index).getD empty).visit
          (way ++ [(c.node.kind, c.node.index)]) c.address c.node := by
      cases n.below.find? c.node.kind c.node.index with
      | none => exact (visit_empty _ c).symm
      | some m => rfl
    rw [hvisit, ih c hc]
    refine List.flatMap_congr fun q hq => ?_
    rw [Place.wayTo_of_child hc hq, Place.lineage, descend, List.append_assoc]
    rfl

end IndexNode

namespace RouteIndex

/-- What is filed at the end of a way down from above the root. -/
def hereAt (index : RouteIndex) (way : List (Fragment × Nat)) : PlaceNode :=
  (index.top.descend way).here

/-- **A walk delivers at each place what is filed under its lineage**, in preorder. -/
theorem walk_eq_flatMap (index : RouteIndex) (root : Place) :
    index.walk root =
      root.preorder.flatMap fun q =>
        (index.hereAt (root.lineage q)).deliver (root.lineage q) q := by
  have hwalk : index.walk root =
      ((index.top.below.find? root.node.kind root.node.index).getD .empty).visit
        [(root.node.kind, root.node.index)] root.address root.node := by
    rw [walk]
    cases index.top.below.find? root.node.kind root.node.index with
    | none => exact (IndexNode.visit_empty _ root).symm
    | some n => rfl
  rw [hwalk, IndexNode.visit_eq_flatMap]
  rfl

end RouteIndex

end AgentRules
