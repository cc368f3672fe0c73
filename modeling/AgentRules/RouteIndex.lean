/-
  The index that finds the candidates of all actions in one walk over a tree.

  The index is a trie over routes. Its first level is the root of the tree, and below each
  node are the children that some route goes on to. At a node the actions are filed whose
  routes end there: those that take the value of the place as it is, those that ask for
  this very value, those that ask for a start of it, and apart from these, for each word
  range, those that go on with some of its words. Actions whose routes start alike share
  nodes, and no node has two nodes below it for one child, one text or one word range.

  `RouteNodes` is a list of sibling nodes, each with the nodes below it: siblings and trie
  in one type, with plain structural induction. An index is the node above the root of the
  tree, with a count of what has been filed.
-/
import AgentRules.Expr.Route
import AgentRules.PrefixTree
import AgentRules.Text.Quoted

namespace AgentRules

/-- The number that an action has in its rule set. -/
abbrev ActionId := Nat

/-! ### Nodes -/

/-- The actions that test a value against a text. -/
structure TestNode where
  text : String
  actions : List ActionId
  deriving DecidableEq

/-- What is filed at a value, be it that of a place or some words of it. -/
structure ValueNode where
  /-- The actions that take the value as it is. -/
  actions : List ActionId
  /-- The actions that ask for this very value. -/
  equals : List TestNode
  /-- The actions that ask for a start of the value, by the characters of the start. -/
  starts : PrefixTree TestNode
  deriving DecidableEq

/-- What is filed at a place: at its value, and at some words of it. -/
structure PlaceNode where
  plain : ValueNode
  /-- The word ranges in the order of their registration, no range twice. -/
  worded : List (WordRange × ValueNode)
  deriving DecidableEq

/-- Nodes of an index side by side. -/
inductive RouteNodes
  /-- No node. -/
  | nil
  /-- A node for the children of a kind at an index, with what is filed there and the nodes
      below; and the other nodes beside it. -/
  | node (kind : Fragment) (index : Nat) (here : PlaceNode) (below others : RouteNodes)
  deriving DecidableEq

/-- A node of an index by itself. -/
structure IndexNode where
  here : PlaceNode
  below : RouteNodes
  deriving DecidableEq

/-- An index of routes. -/
structure RouteIndex where
  /-- The node above the root of the tree. -/
  top : IndexNode
  /-- How often an action has been filed. -/
  registrations : Nat
  deriving DecidableEq

/-! ### Origins -/

namespace IndexedTest

/-- The written form of a test. -/
def render : IndexedTest → String
  | equals text => s!"={Text.quoted text}"
  | startsWith text => s!"\x7b{Text.quoted text}"

end IndexedTest

namespace Route

/-- The written form of a route. The root of the tree is written by its kind alone. -/
def render (r : Route) : String :=
  let children := match r.children with
    | [] => ""
    | (root, _) :: below =>
      root.label ++ String.join (below.map fun (kind, i) => s!".({i}){kind.label}")
  let words := (r.words.map fun range => s!"[{range.render}]").getD ""
  let test := (r.test.map IndexedTest.render).getD ""
  children ++ words ++ test

end Route

/-- Where a candidate comes from. -/
inductive Origin
  /-- The index found it at the end of a route. -/
  | ofRoute (route : Route)
  /-- A variable of the same rule ended there. -/
  | ofVariable (name : String)
  deriving DecidableEq, Repr

namespace Origin

/-- The written form of an origin. -/
def render : Origin → String
  | ofRoute route => route.render
  | ofVariable name => s!"@{name}"

end Origin

/-! ### Registration -/

namespace TestNode

/-- The node for a text with one more action, made if it is not there. -/
def add (id : ActionId) (text : String) (old : Option TestNode) : TestNode :=
  ⟨text, (old.map TestNode.actions).getD [] ++ [id]⟩

/-- Adds an action to the node for a text; a new node comes after the others. -/
def insert (id : ActionId) (text : String) : List TestNode → List TestNode
  | [] => [add id text none]
  | n :: ns => if n.text = text then add id text (some n) :: ns else n :: insert id text ns

end TestNode

namespace ValueNode

/-- A node at which nothing is filed. -/
def empty : ValueNode := ⟨[], [], .empty⟩

/-- Files an action under a test, or at the value itself. -/
def insert (id : ActionId) (test : Option IndexedTest) (n : ValueNode) : ValueNode :=
  match test with
  | none => { n with actions := n.actions ++ [id] }
  | some (.equals text) => { n with equals := TestNode.insert id text n.equals }
  | some (.startsWith text) =>
    { n with starts := n.starts.alter (TestNode.add id text) text.toList }

end ValueNode

namespace PlaceNode

/-- A place at which nothing is filed. -/
def empty : PlaceNode := ⟨.empty, []⟩

/-- Files an action under a test of some words; a new range comes after the others. -/
def insertWords (id : ActionId) (range : WordRange) (test : Option IndexedTest) :
    List (WordRange × ValueNode) → List (WordRange × ValueNode)
  | [] => [(range, ValueNode.empty.insert id test)]
  | (r, n) :: rest =>
    if r = range then (r, n.insert id test) :: rest
    else (r, n) :: insertWords id range test rest

/-- Files an action at a place. -/
def insert (id : ActionId) (words : Option WordRange) (test : Option IndexedTest)
    (n : PlaceNode) : PlaceNode :=
  match words with
  | none => { n with plain := n.plain.insert id test }
  | some range => { n with worded := insertWords id range test n.worded }

end PlaceNode

/-- The place of the node for the children of a kind at an index; a new node comes after its
    siblings. -/
def RouteNodes.slot (kind : Fragment) (index : Nat) : RouteNodes → Slot IndexNode RouteNodes
  | nil => ⟨none, fun n => node kind index n.here n.below nil⟩
  | node k i here below others =>
    if k = kind ∧ i = index then ⟨some ⟨here, below⟩, fun n => node k i n.here n.below others⟩
    else (slot kind index others).within (node k i here below)

namespace IndexNode

/-- A node at which and below which nothing is filed. -/
def empty : IndexNode := ⟨.empty, .nil⟩

/-- Files an action at the place of a node. -/
def file (id : ActionId) (words : Option WordRange) (test : Option IndexedTest) (n : IndexNode) :
    IndexNode :=
  { n with here := n.here.insert id words test }

/-- Files something at the child of a kind at an index, whose node is made if it is not there;
    answers with the number of filings. -/
def atChild (file : IndexNode → Nat × IndexNode) (kind : Fragment) (index : Nat) (n : IndexNode) :
    Nat × IndexNode :=
  let child := n.below.slot kind index
  let (entered, below) := file (child.content.getD empty)
  (entered, { n with below := child.put below })

/-- Files something at the children of a kind at several indices, one after the other. -/
def atChildren (file : IndexNode → Nat × IndexNode) (kind : Fragment) :
    List Nat → IndexNode → Nat × IndexNode
  | [], n => (0, n)
  | index :: indices, n =>
    let (entered, n) := n.atChild file kind index
    let (more, n) := atChildren file kind indices n
    (entered + more, n)

/-- Files an action wherever steps lead down from a node, and answers with the number of
    filings. -/
def enter (id : ActionId) : List PathStep → IndexNode → Nat × IndexNode
  | .down kind range :: steps, n => n.atChildren (enter id steps) kind range.indices
  | .words range :: steps, n => (1, n.file id (some range) (PathStep.leadingTest? steps))
  | steps, n => (1, n.file id none (PathStep.leadingTest? steps))

end IndexNode

namespace RouteIndex

/-- The index in which nothing is filed. -/
def empty : RouteIndex := ⟨.empty, 0⟩

/-- Files an action wherever its path leads, and answers with the number of filings. Only paths
    from the root are filed at all. -/
def enter (index : RouteIndex) (id : ActionId) : Path → Nat × RouteIndex
  | .fromRoot steps =>
    let (entered, top) := index.top.enter id steps
    (entered, ⟨top, index.registrations + entered⟩)
  | .literal _ | .fromVariable .. => (0, index)

end RouteIndex

/-! ### What is filed -/

namespace ValueNode

/-- The number of nodes for tests of a value. -/
def testCount (n : ValueNode) : Nat := n.equals.length + n.starts.size

/-- The tests of a value, and no test, with the actions that are filed under them. -/
def filed (n : ValueNode) : List (Option IndexedTest × List ActionId) :=
  (none, n.actions) :: n.equals.map (fun m => (some (.equals m.text), m.actions)) ++
    n.starts.entries.map fun (_, m) => (some (.startsWith m.text), m.actions)

end ValueNode

namespace PlaceNode

/-- The number of nodes for tests and words at a place. -/
def nodeCount (n : PlaceNode) : Nat :=
  n.worded.foldl (fun count (_, m) => count + 1 + m.testCount) n.plain.testCount

/-- The words and the tests under which there are actions at a place, with the actions. -/
def filed (n : PlaceNode) : List (Option WordRange × Option IndexedTest × List ActionId) :=
  ((none, n.plain) :: n.worded.map fun (range, m) => (some range, m)).flatMap fun (words, m) =>
    (m.filed.filter (!·.2.isEmpty)).map (words, ·)

end PlaceNode

namespace RouteNodes

/-- The number of nodes, those for tests and for words included. -/
def nodeCount : RouteNodes → Nat
  | nil => 0
  | node _ _ here below others => 1 + here.nodeCount + nodeCount below + nodeCount others

/-- The routes under which there are actions, with the actions; `above` are the children on
    the way to the nodes. -/
def filedBelow (above : List (Fragment × Nat)) : RouteNodes → List (Route × List ActionId)
  | nil => []
  | node kind index here below others =>
    let way := above ++ [(kind, index)]
    (here.filed.map fun (words, test, ids) => (⟨way, words, test⟩, ids)) ++
      filedBelow way below ++ filedBelow above others

end RouteNodes

namespace RouteIndex

/-- The number of nodes other than that above the root of the tree. -/
def nodeCount (index : RouteIndex) : Nat := index.top.here.nodeCount + index.top.below.nodeCount

/-- The routes under which there are actions, with the actions. -/
def filed (index : RouteIndex) : List (Route × List ActionId) :=
  (index.top.here.filed.map fun (words, test, ids) => (⟨[], words, test⟩, ids)) ++
    index.top.below.filedBelow []

/-- Every route with actions in its written form, and the actions, in the order of the
    written forms. -/
def filedRoutes (index : RouteIndex) : List (String × List ActionId) :=
  let routes := index.filed.map fun (route, ids) => (route.render, ids)
  routes.mergeSort fun p q => !decide (q.1 < p.1)

end RouteIndex

end AgentRules
