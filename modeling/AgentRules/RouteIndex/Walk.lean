/-
  Walking an index and a tree together.

  A walk visits the nodes of a tree in preorder, as far as the index goes along, and
  delivers to each action the places and values its route leads to. At one place the
  actions that take its value as it is come first; then those that ask for this very value,
  those that ask for a start of it, the shortest start first; and last those that ask for
  some of its words. The order matters, because an action keeps the first candidate only.
-/
import AgentRules.RouteIndex
import AgentRules.Tree.Place

namespace AgentRules

/-- A candidate on its way to an action. -/
structure Delivery where
  action : ActionId
  origin : Origin
  place : Place
  value : String

namespace RouteNodes

/-- The node for the children of a kind at an index. -/
def find? (kind : Fragment) (index : Nat) : RouteNodes → Option IndexNode
  | nil => none
  | node k i here below others =>
    if k = kind ∧ i = index then some ⟨here, below⟩ else find? kind index others

end RouteNodes

namespace ValueNode

/-- Delivers a value, which may be some words of that of the place, to the actions that
    take it as it is and to those whose test it passes. -/
def deliver (n : ValueNode) (way : List (Fragment × Nat)) (words : Option WordRange)
    (place : Place) (value : String) : List Delivery :=
  let all (test : Option IndexedTest) (ids : List ActionId) : List Delivery :=
    ids.map (⟨·, .ofRoute ⟨way, words, test⟩, place, value⟩)
  let equal := (n.equals.find? (·.text == value)).map fun m => all (some (.equals m.text)) m.actions
  let started := (n.starts.prefixValues value.toList).flatMap fun m =>
    all (some (.startsWith m.text)) m.actions
  all none n.actions ++ equal.getD [] ++ started

end ValueNode

namespace PlaceNode

/-- Delivers a place and its value to all actions that are filed there; `way` leads to the
    place. -/
def deliver (n : PlaceNode) (way : List (Fragment × Nat)) (place : Place) : List Delivery :=
  let value := place.node.value
  let worded := n.worded.flatMap fun (range, m) =>
    match range.extract value with
    | some words => m.deliver way (some range) place words
    | none => []
  n.plain.deliver way none place value ++ worded

end PlaceNode

namespace IndexNode

mutual

/-- Visits a node of a tree and all nodes below it; `way` leads to the node. -/
def visit (n : IndexNode) (way : List (Fragment × Nat)) (address : List Nat) :
    Node → List Delivery
  | ⟨kind, index, value, children⟩ =>
    n.here.deliver way ⟨address, ⟨kind, index, value, children⟩⟩ ++
      visitAll n.below way address 0 children

/-- Visits the children from a position on, as far as the index has nodes for them. -/
def visitAll (below : RouteNodes) (way : List (Fragment × Nat)) (address : List Nat)
    (position : Nat) : List Node → List Delivery
  | [] => []
  | c :: cs =>
    (match below.find? c.kind c.index with
      | some n => visit n (way ++ [(c.kind, c.index)]) (address ++ [position]) c
      | none => []) ++
      visitAll below way address (position + 1) cs

end

end IndexNode

namespace RouteIndex

/-- All deliveries of a walk over a tree, in the order in which they are made. -/
def walk (index : RouteIndex) (root : Place) : List Delivery :=
  match index.top.below.find? root.node.kind root.node.index with
  | some n => n.visit [(root.node.kind, root.node.index)] root.address root.node
  | none => []

end RouteIndex

end AgentRules
