/-
  The indices of the nodes of a tree.

  The index of a child counts the children of its kind that come before it, in every node of
  a tree (`Node.Numbered`). A leaf is numbered, and appending a child keeps a node numbered,
  so every tree that is built is. In a numbered node a kind and an index belong to one child
  only (`eq_of_kind_of_index`).
-/
import AgentRules.Proofs.Lists
import AgentRules.Tree

namespace AgentRules

/-- Whether each of several nodes has the number of the nodes of its kind before it as its
    index. -/
def Node.Counted (ns : List Node) : Prop :=
  ∀ (i : Nat) (c : Node), ns[i]? = some c → c.index = (ns.take i).countP (·.kind = c.kind)

/-- A node more is counted on from all nodes before it, and does not change their indices. -/
theorem Node.counted_concat {ns : List Node} {c : Node} :
    Counted (ns ++ [c]) ↔ Counted ns ∧ c.index = ns.countP (·.kind = c.kind) := by
  constructor
  · intro h
    refine ⟨fun i d hd => ?_, ?_⟩
    · have hi : i < ns.length := (List.getElem?_eq_some_iff.mp hd).1
      have hindex := h i d ((List.getElem?_append_left hi).trans hd)
      rwa [List.take_append_of_le_length (Nat.le_of_lt hi)] at hindex
    · simpa using h ns.length c (by simp)
  · rintro ⟨h, hc⟩ i d hd
    by_cases hi : i < ns.length
    · rw [List.getElem?_append_left hi] at hd
      rw [List.take_append_of_le_length (Nat.le_of_lt hi)]
      exact h i d hd
    · -- The new node itself: all nodes from before count.
      rw [List.getElem?_append_right (Nat.not_lt.mp hi)] at hd
      obtain ⟨hpos, rfl⟩ := List.getElem?_eq_some_iff.mp hd
      have hlen : i = ns.length := by
        rw [List.length_singleton] at hpos
        omega
      subst hlen
      simpa using hc

/-- **A child that is appended is counted on**, whatever index it had before. -/
theorem Node.counted_push {parent : Node} (h : Counted parent.children) (child : Node) :
    Counted (parent.push child).children := by
  unfold push
  exact counted_concat.mpr ⟨h, rfl⟩

/-- A tree in which every child has the number of the children of its kind before it as its
    index. -/
inductive Node.Numbered : Node → Prop
  | mk {n : Node}
    (indices : ∀ (i : Nat) (c : Node), n.children[i]? = some c →
      c.index = (n.children.take i).countP (·.kind = c.kind))
    (below : ∀ c ∈ n.children, c.Numbered) : n.Numbered

namespace Node.Numbered

theorem index_eq {n : Node} (h : n.Numbered) {i : Nat} {c : Node} (hc : n.children[i]? = some c) :
    c.index = (n.children.take i).countP (·.kind = c.kind) := by
  cases h with
  | mk indices below => exact indices i c hc

theorem of_mem_children {n : Node} (h : n.Numbered) {c : Node} (hc : c ∈ n.children) :
    c.Numbered := by
  cases h with
  | mk indices below => exact below c hc

/-- Only the children matter, and not the index that a node has itself. -/
theorem of_children_eq {n m : Node} (h : n.Numbered) (hchildren : m.children = n.children) :
    m.Numbered :=
  .mk (fun _ _ hc => hchildren ▸ h.index_eq (hchildren ▸ hc))
    fun _ hc => h.of_mem_children (hchildren ▸ hc)

theorem leaf (kind : Fragment) (value : String) : (Node.leaf kind value).Numbered :=
  .mk (fun i c hc => by simp [Node.leaf] at hc) fun c hc => by simp [Node.leaf] at hc

/-- **Appending a numbered child keeps a node numbered.** -/
theorem push {parent child : Node} (hp : parent.Numbered) (hc : child.Numbered) :
    (parent.push child).Numbered := by
  have hcounted : Counted parent.children := fun _ _ hci => hp.index_eq hci
  refine .mk (counted_push hcounted child) fun c hmem => ?_
  rcases List.mem_append.mp hmem with h | h
  · exact hp.of_mem_children h
  · obtain rfl := List.mem_singleton.mp h
    exact hc.of_children_eq rfl

/-- The index of a child counts some of the children of its kind only. -/
theorem index_lt_countP {n : Node} (h : n.Numbered) {c : Node} (hc : c ∈ n.children) :
    c.index < n.children.countP (·.kind = c.kind) := by
  obtain ⟨i, hi⟩ := List.getElem?_of_mem hc
  have hlt := countP_take_lt (p := (·.kind = c.kind)) hi (decide_eq_true rfl)
    (List.getElem?_eq_some_iff.mp hi).1
  rwa [List.take_length, ← h.index_eq hi] at hlt

/-- In a numbered node no two children have one kind and one index. -/
theorem eq_of_kind_of_index {n : Node} (h : n.Numbered) {i j : Nat} {c d : Node}
    (hc : n.children[i]? = some c) (hd : n.children[j]? = some d) (hkind : c.kind = d.kind)
    (hindex : c.index = d.index) : i = j := by
  -- The earlier of two children of a kind counts for the later one.
  have hlt : ∀ {i j : Nat} {c d : Node}, n.children[i]? = some c → n.children[j]? = some d →
      c.kind = d.kind → i < j → c.index < d.index := by
    intro i j c d hc hd hkind hij
    rw [h.index_eq hc, h.index_eq hd, hkind]
    exact countP_take_lt hc (decide_eq_true hkind) hij
  rcases Nat.lt_trichotomy i j with hij | hij | hij
  · exact absurd hindex (Nat.ne_of_lt (hlt hc hd hkind hij))
  · exact hij
  · exact absurd hindex (Nat.ne_of_gt (hlt hd hc hkind.symm hij))

end Node.Numbered

namespace Outline

/-- **Every tree that is built is numbered.** -/
theorem numbered_build (o : Outline) : o.build.Numbered := by
  refine Outline.rec (motive_1 := fun o => o.build.Numbered)
    (motive_2 := fun os => ∀ parent : Node, parent.Numbered → (pushAll parent os).Numbered)
    ?_ ?_ ?_ o
  · intro kind value children ih
    exact ih _ (.leaf kind value)
  · exact fun _ h => h
  · intro o os ho hos parent h
    exact hos _ (h.push ho)

end Outline

end AgentRules
