/-
  Rule sets.

  The rules of a set share one index of routes, one numbering of actions and, while a tree
  is classified, one match state. A single walk over the tree informs the actions of all
  rules. A rule that did not receive every candidate it cannot do without is skipped, and
  the others are evaluated in the order of their declaration; each offers what it finds to
  the classification.
-/
import AgentRules.RouteIndex.Walk
import AgentRules.Rule

namespace AgentRules

namespace MatchState

/-- Makes one delivery of a walk. A number that no action has is passed over. -/
def receive (action? : ActionId → Option Action) (st : MatchState) (d : Delivery) : MatchState :=
  match action? d.action with
  | some a => st.inform a ⟨d.origin, d.place, d.value⟩
  | none => st

end MatchState

/-- Compiled rules with the index of their routes. -/
structure RuleSet where
  rules : List Rule
  index : RouteIndex
  /-- The position of the rule that an action belongs to, by the number of the action. -/
  owners : Array Nat

namespace RuleSet

/-! ### Building -/

/-- The set without rules. -/
def empty : RuleSet := ⟨[], .empty, #[]⟩

/-- Builds one more rule. Its actions get the numbers after those that are given. -/
def add (lookups : Lookups) (verbose : Bool) (rs : RuleSet) (d : RuleDefinition) :
    Except RuleError RuleSet :=
  match Rule.build ⟨lookups, rs.rules.length, verbose⟩ rs.owners.size rs.index d with
  | .error e => .error e
  | .ok (rule, index) =>
    .ok ⟨rs.rules ++ [rule], index, rs.owners ++ Array.replicate d.actionCount rs.rules.length⟩

/-- Builds rules one after the other. -/
def addAll (lookups : Lookups) (verbose : Bool) (rs : RuleSet) :
    List RuleDefinition → Except RuleError RuleSet
  | [] => .ok rs
  | d :: ds =>
    match rs.add lookups verbose d with
    | .error e => .error e
    | .ok rs => rs.addAll lookups verbose ds

/-- Builds a rule set. The first definition that cannot be built decides on the error. -/
def build (lookups : Lookups) (verbose : Bool) (definitions : List RuleDefinition) :
    Except RuleError RuleSet :=
  empty.addAll lookups verbose definitions

/-- The number of actions. -/
def actionCount (rs : RuleSet) : Nat := rs.owners.size

/-- The action of a number: the rule it belongs to knows it. -/
def action? (rs : RuleSet) (id : ActionId) : Option Action :=
  (rs.owners[id]?).bind fun rule => (rs.rules[rule]?).bind (·.action? id)

/-! ### Classification -/

/-- An empty state of the size that the set needs. -/
def newState (rs : RuleSet) : MatchState := .new rs.actionCount rs.rules.length

/-- Empties a state and informs it of all candidates in a tree. -/
def collect (rs : RuleSet) (root : Place) (st : MatchState) : MatchState :=
  (rs.index.walk root).foldl (.receive rs.action?) st.reset

/-- Whether a rule received every candidate it cannot do without. -/
def passesGate (st : MatchState) (r : Rule) : Bool := r.requiredInputs ≤ st.receivedBy r.index

/-- Evaluates one rule, unless the gate skips it, and offers what it finds. -/
def classifyRule (progress : Classification × MatchState) (r : Rule) :
    Classification × MatchState :=
  let (fields, st) := progress
  if passesGate st r then
    match r.evaluate st with
    | (some e, st) => (fields.offer e, st)
    | (none, st) => (fields, st)
  else (fields, st)

/-- Classifies a tree in a state that may have been used before; gives the state back. -/
def classifyWith (rs : RuleSet) (root : Place) (st : MatchState) : Classification × MatchState :=
  rs.rules.foldl classifyRule (.empty, rs.collect root st)

/-- Classifies a tree. -/
def classify (rs : RuleSet) (root : Place) : Classification :=
  (rs.classifyWith root rs.newState).1

end RuleSet

end AgentRules
