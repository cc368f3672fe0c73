/-
  Parsed user agent strings as trees.

  A node has a kind, a value and children, and knows its index among the siblings of its
  own kind. The index is what paths address a child by, so it is set in one place only:
  `Node.push` numbers the child it appends, whatever index the child had before.

  `Outline` is a tree without indices, as a fixture spells it out; building it numbers
  every node. Trees for examples are also put together from texts.
-/
import AgentRules.Fragment

namespace AgentRules

/-- A node of a parsed user agent string. -/
structure Node where
  kind : Fragment
  /-- The position among the siblings of the same kind. -/
  index : Nat
  value : String
  children : List Node

namespace Node

/-- A node without children, as yet without a parent. -/
def leaf (kind : Fragment) (value : String) : Node := ⟨kind, 0, value, []⟩

/-- Appends a child, and gives it the next free index of its kind. -/
def push (parent child : Node) : Node :=
  { parent with
    children := parent.children ++
      [{ child with index := parent.children.countP (·.kind = child.kind) }] }

/-- The child of a kind at an index among the siblings of that kind. -/
def child? (n : Node) (kind : Fragment) (index : Nat) : Option Node :=
  n.children.find? fun c => c.kind = kind ∧ c.index = index

mutual

/-- The number of nodes of a tree. -/
def size : Node → Nat
  | ⟨_, _, _, children⟩ => 1 + sizeAll children

/-- The number of nodes of several trees. -/
def sizeAll : List Node → Nat
  | [] => 0
  | n :: ns => size n + sizeAll ns

end

end Node

/-! ### Outlines -/

/-- A tree as it is written down, before its nodes are numbered. -/
structure Outline where
  kind : Fragment
  value : String
  children : List Outline

namespace Outline

mutual

/-- The tree of an outline. -/
def build : Outline → Node
  | ⟨kind, value, children⟩ => pushAll (Node.leaf kind value) children

/-- Appends the trees of several outlines to a node, in order. -/
def pushAll (parent : Node) : List Outline → Node
  | [] => parent
  | o :: os => pushAll (parent.push (build o)) os

end

end Outline

/-! ### Trees from texts -/

namespace Node

/-- A product `name/version` with a name and a version child. Comment blocks that are pushed
    later do not change its value. -/
def product (name version : String) : Node :=
  ((leaf .product s!"{name}/{version}").push (leaf .name name)).push (leaf .version version)

/-- A comment block `(a; b; c)` with one entry for each item. -/
def comments (entries : List String) : Node :=
  let inside := String.intercalate "; " entries
  (entries.map (leaf .entry)).foldl push (leaf .comments s!"({inside})")

/-- A root over some children; its value is their values joined by spaces. -/
def agent (children : List Node) : Node :=
  children.foldl push (leaf .agent (String.intercalate " " (children.map Node.value)))

end Node

end AgentRules
