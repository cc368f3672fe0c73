/-
  Trees without the nodes that are out of reach.

  No expression goes down to the root of a tree from inside it, and no range of children holds
  an index of `maxChildIndex` or more. Trimming a tree takes away all nodes that are out of reach
  by this, at every level and with all that is below them, and leaves the others as they are.

  In a tree that is built the indices of the nodes that are left still count their siblings:
  the children of a kind that are taken away are the last ones of their kind, or all of them. So
  trimming a tree is building it without these nodes (`Outline.build_trim`).
-/
import AgentRules.Proofs.Numbering
import AgentRules.Range.Error

namespace AgentRules

/-! ### Trees -/

namespace Node

/-- Whether a descent can go down to a node: it is not of the kind of roots, and its index is
    below the bound. -/
def reachable (n : Node) : Bool := n.kind ≠ .agent && n.index < maxChildIndex

mutual

/-- A tree without the nodes below its root that are out of reach. -/
def trim : Node → Node
  | ⟨kind, index, value, children⟩ => ⟨kind, index, value, trimAll children⟩

/-- The trees of some children that are in reach, trimmed. -/
def trimAll : List Node → List Node
  | [] => []
  | c :: cs => if c.reachable then trim c :: trimAll cs else trimAll cs

end

theorem trimAll_eq (ns : List Node) : trimAll ns = (ns.filter reachable).map trim := by
  induction ns with
  | nil => rfl
  | cons n ns ih =>
    rw [trimAll, ih, List.filter_cons]
    split <;> rfl

theorem trim_eq (n : Node) :
    n.trim = { n with children := (n.children.filter reachable).map trim } := by
  obtain ⟨kind, index, value, children⟩ := n
  rw [trim, trimAll_eq]

@[simp] theorem kind_trim (n : Node) : n.trim.kind = n.kind := by rw [trim_eq]

@[simp] theorem index_trim (n : Node) : n.trim.index = n.index := by rw [trim_eq]

@[simp] theorem value_trim (n : Node) : n.trim.value = n.value := by rw [trim_eq]

theorem children_trim (n : Node) : n.trim.children = (n.children.filter reachable).map trim := by
  rw [trim_eq]

theorem trim_leaf (kind : Fragment) (value : String) :
    (leaf kind value).trim = leaf kind value := by
  rw [trim_eq]
  rfl

/-- While there is room for one more child of a kind, trimming keeps all children of the kind. -/
theorem Numbered.countP_trim {n : Node} (h : n.Numbered) {kind : Fragment} (hkind : kind ≠ .agent)
    (hroom : n.children.countP (·.kind = kind) < maxChildIndex) :
    n.trim.children.countP (·.kind = kind) = n.children.countP (·.kind = kind) := by
  rw [children_trim, List.countP_map, List.countP_filter]
  refine List.countP_congr fun c hc => ?_
  have hlt : c.kind = kind → c.index < maxChildIndex := by
    rintro rfl
    exact (h.index_lt_countP hc).trans hroom
  simp only [Function.comp_apply, kind_trim, reachable, Bool.and_eq_true, decide_eq_true_eq]
  exact ⟨fun hboth => hboth.1, fun hc => ⟨hc, hc ▸ hkind, hlt hc⟩⟩

/-- **A child that is appended in reach** gets the same index in the trimmed node, and one that is
    out of reach is not seen there. -/
theorem trim_push {parent : Node} (h : parent.Numbered) (child : Node) :
    (parent.push child).trim =
      if child.kind ≠ .agent ∧ parent.children.countP (·.kind = child.kind) < maxChildIndex then
        parent.trim.push child.trim
      else parent.trim := by
  generalize hindex : parent.children.countP (·.kind = child.kind) = index
  have hpush : (parent.push child).trim = { parent with
      children := parent.trim.children ++ ([{ child with index }].filter reachable).map trim } := by
    rw [trim_eq, push, hindex, List.filter_append, List.map_append, children_trim]
  have hreachable : ({ child with index } : Node).reachable ↔
      child.kind ≠ .agent ∧ index < maxChildIndex := by
    simp [reachable]
  rw [hpush]
  by_cases hreach : child.kind ≠ .agent ∧ index < maxChildIndex
  · have hcount : parent.trim.children.countP (·.kind = child.trim.kind) = index := by
      rw [kind_trim, h.countP_trim hreach.1 (hindex ▸ hreach.2), hindex]
    rw [if_pos hreach, List.filter_cons_of_pos (hreachable.mpr hreach), push, hcount]
    simp [trim_eq]
  · rw [if_neg hreach, List.filter_cons_of_neg (mt hreachable.mp hreach)]
    simp [trim_eq]

end Node

/-! ### Outlines -/

namespace Outline

mutual

/-- An outline without the nodes that are out of reach in the tree that is built from it. -/
def trim : Outline → Outline
  | ⟨kind, value, children⟩ => ⟨kind, value, trimAll [] children⟩

/-- Some outlines in reach, trimmed; `before` are the kinds of their earlier siblings. -/
def trimAll (before : List Fragment) : List Outline → List Outline
  | [] => []
  | o :: os =>
    if o.kind ≠ .agent ∧ before.count o.kind < maxChildIndex then
      trim o :: trimAll (before ++ [o.kind]) os
    else trimAll (before ++ [o.kind]) os

end

theorem kind_pushAll (parent : Node) (os : List Outline) :
    (pushAll parent os).kind = parent.kind := by
  induction os generalizing parent with
  | nil => rfl
  | cons o os ih => exact ih (parent.push o.build)

@[simp] theorem kind_build (o : Outline) : o.build.kind = o.kind := by
  obtain ⟨kind, value, children⟩ := o
  exact kind_pushAll (.leaf kind value) children

/-- **What is taken away from an outline is what is out of reach in its tree**: all other nodes
    have the same index in both trees. -/
theorem build_trim (o : Outline) : o.trim.build = o.build.trim := by
  refine Outline.rec (motive_1 := fun o => o.trim.build = o.build.trim)
    (motive_2 := fun os => ∀ parent : Node, parent.Numbered →
      pushAll parent.trim (trimAll (parent.children.map Node.kind) os) = (pushAll parent os).trim)
    ?_ ?_ ?_ o
  · intro kind value children ih
    have hleaf := ih (.leaf kind value) (.leaf kind value)
    rw [Node.trim_leaf] at hleaf
    exact hleaf
  · intro parent _
    rfl
  · intro o os ho hos parent h
    have hkinds : (parent.push o.build).children.map Node.kind =
        parent.children.map Node.kind ++ [o.kind] := by
      simp [Node.push]
    have hcount : (parent.children.map Node.kind).count o.kind =
        parent.children.countP (·.kind = o.kind) := by
      rw [List.count, List.countP_map]
      rfl
    have hnext := hos (parent.push o.build) (h.push o.numbered_build)
    rw [hkinds, Node.trim_push h, kind_build] at hnext
    rw [trimAll, hcount, pushAll, ← hnext]
    split
    · rw [pushAll, ho]
    · rfl

end Outline

end AgentRules
