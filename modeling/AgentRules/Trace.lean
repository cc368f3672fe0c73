/-
  Traces: how a classification came about.

  A traced classification does the same as a plain one and notes down what it did: for
  every rule whether the gate let it pass, and for every action of such a rule the
  candidate it had and what became of it. Where a plain evaluation stops at the first
  requirement that is not met, a traced one goes on to the last action.
-/
import AgentRules.RuleSet

namespace AgentRules

/-- What became of one action. -/
structure ActionTrace where
  id : ActionId
  role : Role
  expression : String
  /-- The written key and the value of the candidate, if there was one. -/
  candidate : Option (String × String)
  outcome : Outcome

/-- What became of one rule. A rule that the gate skipped has no action traces. -/
structure RuleTrace where
  rule : String
  passedGate : Bool
  received : Nat
  requiredInputs : Nat
  actions : List ActionTrace
  emission : Option Emission

/-- What became of all rules, and how many candidates the walk over the tree found. -/
structure ClassifyTrace where
  informs : Nat
  accepted : Nat
  rules : List RuleTrace

namespace ClassifyTrace

/-- The rules that found a value. -/
def fired (t : ClassifyTrace) : List RuleTrace := t.rules.filter (·.emission.isSome)

end ClassifyTrace

namespace Action

/-- Notes down an action in a state. -/
def trace (a : Action) (st : MatchState) : ActionTrace where
  id := a.id
  role := a.role
  expression := a.expression.text
  candidate := (st.candidate? a.id).map fun c => (c.origin.render, c.value)
  outcome := a.evaluate st

end Action

namespace Rule

/-- Evaluates a rule and notes down all its actions. The rule fires if every action other
    than a variable was successful, and its value is that of the last action. -/
def evaluateTraced (r : Rule) (st : MatchState) : RuleTrace × MatchState :=
  let st := r.deliverVariables st
  let traces := r.actions.map (·.trace st)
  let fired := traces.all fun t => t.role = .binding || t.outcome.isSuccess
  let value := traces.getLast?.bind (·.outcome.value?)
  (⟨r.name, true, st.receivedBy r.index, r.requiredInputs, traces,
    if fired then value.map r.emission else none⟩, st)

/-- The trace of a rule that the gate skipped. -/
def skipped (r : Rule) (st : MatchState) : RuleTrace :=
  ⟨r.name, false, st.receivedBy r.index, r.requiredInputs, [], none⟩

end Rule

namespace RuleSet

/-- Evaluates and notes down one rule, unless the gate skips it. -/
def classifyRuleTraced (progress : Classification × List RuleTrace × MatchState) (r : Rule) :
    Classification × List RuleTrace × MatchState :=
  let (fields, traces, st) := progress
  if passesGate st r then
    let (trace, st) := r.evaluateTraced st
    let fields := match trace.emission with
      | some e => fields.offer e
      | none => fields
    (fields, traces ++ [trace], st)
  else (fields, traces ++ [r.skipped st], st)

/-- Classifies a tree and notes down how. -/
def classifyTraced (rs : RuleSet) (root : Place) : Classification × ClassifyTrace :=
  let st := rs.collect root rs.newState
  let (fields, traces, _) := rs.rules.foldl classifyRuleTraced (.empty, [], st)
  (fields, ⟨st.informs, st.accepted, traces⟩)

end RuleSet

end AgentRules
