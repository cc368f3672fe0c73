/-
  Prefix trees node by node.

  Here a tree is what it is in memory. Each node has the whole label of the edge that leads to
  it, a value or none, and its children in a map from characters. That a child is kept under the
  first character of its label, and that no node is without use, is not in the type: it is up to
  the calls that fill a tree.

  `Edges` has both by its form or by a law. A tree that is filled node by node is the same tree
  (`PrefixTree.toNode_alter`).
-/
import AgentRules.PrefixTree

namespace AgentRules

/-- A node of a prefix tree. -/
inductive PrefixNode (α : Type) where
  /-- A node with the label of the edge that leads to it, its value, and its children in the
      order of the characters they are kept under. -/
  | mk (label : List Char) (value : Option α) (children : List (Char × PrefixNode α))

namespace PrefixNode

variable {α : Type}

def label : PrefixNode α → List Char
  | mk label _ _ => label

def value : PrefixNode α → Option α
  | mk _ value _ => value

def children : PrefixNode α → List (Char × PrefixNode α)
  | mk _ _ children => children

/-- The root of a tree without keys. -/
def root : PrefixNode α := mk [] none []

/-- Keeps a child under a character, in place of the one that is kept there. -/
def putChild (k : Char) (child : PrefixNode α) :
    List (Char × PrefixNode α) → List (Char × PrefixNode α)
  | [] => [(k, child)]
  | (c, n) :: others =>
    if k = c then (k, child) :: others
    else if k < c then (k, child) :: (c, n) :: others
    else (c, n) :: putChild k child others

/-- A node with a child under a character. -/
def withChild (n : PrefixNode α) (k : Char) (child : PrefixNode α) : PrefixNode α :=
  mk n.label n.value (putChild k child n.children)

/-- Sets the value of a key that goes by no child: it is that of the node itself, or that of a
    new child. -/
def settle (f : Option α → α) (n : PrefixNode α) : List Char → PrefixNode α
  | [] => mk n.label (some (f n.value)) n.children
  | k :: ks => n.withChild k (mk (k :: ks) (some (f none)) [])

/-- A node that is cut after a start of its label. What it holds stays with the rest of the
    label, and a node without a value takes its place. -/
def cut (n : PrefixNode α) (start : List Char) (t : Char) (ts : List Char) : PrefixNode α :=
  mk start none [(t, mk (t :: ts) n.value n.children)]

theorem sizeOf_lt_of_lookup {n child : PrefixNode α} {k : Char}
    (h : n.children.lookup k = some child) : sizeOf child < sizeOf n := by
  cases n with
  | mk label value children =>
    obtain ⟨before, after, hsplit, -⟩ := List.lookup_eq_some_iff.mp h
    have hmem : (k, child) ∈ children := by
      rw [show children = before ++ (k, child) :: after from hsplit]
      exact List.mem_append_right _ List.mem_cons_self
    have hchild := List.sizeOf_lt_of_mem hmem
    simp only [Prod.mk.sizeOf_spec] at hchild
    simp only [mk.sizeOf_spec]
    omega

/-- Sets the value of a key to what `f` makes of the value it has. A child whose label shares
    only a start with the key is cut there; the key does not go on by what is cut off. -/
def fill (f : Option α → α) (n : PrefixNode α) (key : List Char) : PrefixNode α :=
  match key with
  | [] => n.settle f []
  | k :: ks =>
    match _h : n.children.lookup k with
    | none => n.settle f (k :: ks)
    | some child =>
      match splitCommon child.label (k :: ks) with
      | (_, [], rest) => n.withChild k (child.fill f rest)
      | (start, t :: ts, rest) => n.withChild k ((child.cut start t ts).settle f rest)
termination_by sizeOf n
decreasing_by exact sizeOf_lt_of_lookup _h

theorem fill_of_none {f : Option α → α} {n : PrefixNode α} {k : Char} {ks : List Char}
    (h : n.children.lookup k = none) : n.fill f (k :: ks) = n.settle f (k :: ks) := by
  rw [fill]
  split
  · rfl
  · rename_i hsome
    exact absurd (hsome.symm.trans h) (by simp)

/-- A node that is cut where a key parts from its label has no child to go by. -/
theorem fill_cut (f : Option α → α) {n : PrefixNode α} {key start ts rest : List Char} {t : Char}
    (h : splitCommon n.label key = (start, t :: ts, rest)) :
    (n.cut start t ts).fill f rest = (n.cut start t ts).settle f rest := by
  cases rest with
  | nil => rw [fill]
  | cons r rs =>
    refine fill_of_none ?_
    rw [cut, children, List.lookup_cons, beq_false_of_ne (Edges.splitCommon_ne _ _ h)]
    rfl

theorem fill_of_some {f : Option α → α} {n child : PrefixNode α} {k : Char} {ks : List Char}
    (h : n.children.lookup k = some child) :
    n.fill f (k :: ks) = n.withChild k
      (match splitCommon child.label (k :: ks) with
        | (_, [], rest) => child.fill f rest
        | (start, t :: ts, rest) => (child.cut start t ts).fill f rest) := by
  rw [fill]
  split
  · rename_i hnone
    exact absurd (hnone.symm.trans h) (by simp)
  · rename_i hsome
    obtain rfl := Option.some.inj (hsome.symm.trans h)
    split
    · rfl
    · rename_i hs
      rw [fill_cut f hs]

/-- Whether a node lies below another, with the character that its parent keeps it under. -/
inductive Below : PrefixNode α → Char → PrefixNode α → Prop
  | child {n m : PrefixNode α} {k : Char} (h : (k, m) ∈ n.children) : Below n k m
  | deeper {n p m : PrefixNode α} {c k : Char} (hp : (c, p) ∈ n.children) (hm : Below p k m) :
      Below n k m

end PrefixNode

/-! ### The nodes of a tree -/

/-- The children of a point that edges go out of. -/
def Edges.toNodes {α : Type} : Edges α → List (Char × PrefixNode α)
  | nil => []
  | cons c cs value below others => (c, .mk (c :: cs) value below.toNodes) :: others.toNodes

/-- A tree as its root. -/
def PrefixTree.toNode {α : Type} (t : PrefixTree α) : PrefixNode α :=
  .mk [] t.value t.edges.toNodes

end AgentRules
