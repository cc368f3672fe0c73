/-
  Places in a tree.

  A node by itself does not tell where in its tree it stands, and equal nodes may stand in
  several places. A `Place` is a node together with its address, the child positions on
  the way down to it. Everything that looks for nodes finds places.
-/
import AgentRules.Tree

namespace AgentRules

/-- A node and the positions that lead to it. Positions count all children, not only those
    of one kind. The address of a root is left to whoever holds the tree. -/
structure Place where
  address : List Nat
  node : Node

namespace Place

/-- The child at a position, whose node is known. -/
def below (p : Place) (position : Nat) (child : Node) : Place := ⟨p.address ++ [position], child⟩

/-- The children of a node, as places. -/
def children (p : Place) : List Place := p.node.children.mapIdx p.below

/-- The child of a kind at an index among the siblings of that kind. -/
def child? (p : Place) (kind : Fragment) (index : Nat) : Option Place :=
  p.children.find? fun c => c.node.kind = kind ∧ c.node.index = index

/-- The place that a list of positions leads to. -/
def descend? (p : Place) : List Nat → Option Place
  | [] => some p
  | i :: is => p.children[i]?.bind (descend? · is)

mutual

/-- All places of a tree, each before its children. -/
def preorderOf (address : List Nat) : Node → List Place
  | ⟨kind, index, value, children⟩ =>
    ⟨address, ⟨kind, index, value, children⟩⟩ :: preorderAll address 0 children

/-- All places of the trees that are the children from a position on. -/
def preorderAll (address : List Nat) (position : Nat) : List Node → List Place
  | [] => []
  | c :: cs => preorderOf (address ++ [position]) c ++ preorderAll address (position + 1) cs

end

/-- All places of a tree, each before its children. -/
def preorder (p : Place) : List Place := preorderOf p.address p.node

end Place

end AgentRules
