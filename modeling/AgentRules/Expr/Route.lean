/-
  Routes: the leading part of a path that an index can answer.

  The index files expressions under what their paths start with, so that one walk over a
  tree finds all candidates at once. It can follow descents; then one test for equality or
  for a start; or some words of the value, perhaps with one such test on them. A `Route` is
  such a leading part with every child chosen. A descent over a range stands for several
  children, so a path is filed under as many routes as its ranges have combinations.

  What comes after the leading part is left to a program. `filings` says where a path is
  filed and `unindexed` what is left of it; the two read the same steps and have to stop at
  the same place.
-/
import AgentRules.Expr

namespace AgentRules

/-- A test of a value that an index can answer. -/
inductive IndexedTest
  | equals (text : String)
  | startsWith (text : String)
  deriving DecidableEq, Repr

/-- The leading part of a path with every child chosen. -/
structure Route where
  /-- The kind and the index of each node on the way down, from the root of the tree on. -/
  children : List (Fragment × Nat)
  /-- The words of the value to go on with, if not with the value itself. -/
  words : Option WordRange
  /-- The test that the value or the words have to pass, if there is one. -/
  test : Option IndexedTest
  deriving DecidableEq, Repr

namespace Route

/-- The route that goes through a child first. -/
def under (child : Fragment × Nat) (r : Route) : Route :=
  { r with children := child :: r.children }

end Route

namespace PathStep

/-- The test that the first of some steps is, if an index can answer it. -/
def leadingTest? : List PathStep → Option IndexedTest
  | test .equals text :: _ => some (.equals text)
  | test .startsWith text :: _ => some (.startsWith text)
  | _ => none

/-- The routes that steps are filed under: one child for each descent at the start, in all
    combinations, and what the index can answer after them. -/
def filings : List PathStep → List Route
  | down kind range :: steps =>
    range.indices.flatMap fun i => (filings steps).map (.under (kind, i))
  | words range :: steps => [⟨[], some range, leadingTest? steps⟩]
  | steps => [⟨[], none, leadingTest? steps⟩]

/-- The steps after the first one, if that is a test that an index can answer, or all. -/
def afterTest : List PathStep → List PathStep
  | test .equals _ :: steps => steps
  | test .startsWith _ :: steps => steps
  | steps => steps

/-- The steps that an index does not answer. -/
def unindexed : List PathStep → List PathStep
  | down _ _ :: steps => unindexed steps
  | words _ :: steps => afterTest steps
  | steps => afterTest steps

end PathStep

namespace Path

/-- The routes that a path is filed under. Only paths from the root are filed at all. -/
def filings : Path → List Route
  | fromRoot steps => PathStep.filings steps
  | literal _ | fromVariable .. => []

/-- The steps that remain to be done from a candidate. -/
def remaining : Path → List PathStep
  | fromRoot steps => PathStep.unindexed steps
  | fromVariable _ steps => steps
  | literal _ => []

end Path

end AgentRules
