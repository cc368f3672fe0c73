/-
  Match states: what the actions of a rule set have been informed of.

  A state has a slot for each action, which keeps the first candidate the action is
  informed of, and counts for each rule the candidates of actions that cannot succeed
  without one. The counts decide which rules are worth evaluating. A state can be used for
  one tree after the other; a reset empties it and keeps its size.
-/
import AgentRules.Action
import AgentRules.Tree.Place

namespace AgentRules

/-- A place and a value for an action to start from. -/
structure Candidate where
  origin : Origin
  place : Place
  value : String

/-- The candidates of all actions, and the counts that go with them. -/
structure MatchState where
  /-- The candidate of each action, by the action's number. -/
  slots : Array (Option Candidate)
  /-- For each rule, how many of the actions that must have a candidate have one. -/
  received : Array Nat
  /-- How often an action has been informed. -/
  informs : Nat
  /-- How many candidates have been kept. -/
  accepted : Nat

namespace MatchState

/-- An empty state for a number of actions and a number of rules. -/
def new (actions rules : Nat) : MatchState :=
  ⟨Array.replicate actions none, Array.replicate rules 0, 0, 0⟩

/-- Empties a state. -/
def reset (st : MatchState) : MatchState := new st.slots.size st.received.size

/-- The candidate of an action. -/
def candidate? (st : MatchState) (id : ActionId) : Option Candidate := (st.slots[id]?).join

/-- How many of the actions of a rule that must have a candidate have one. -/
def receivedBy (st : MatchState) (rule : Nat) : Nat := (st.received[rule]?).getD 0

/-- Whether the state would keep a candidate for an action: it has a slot for the action,
    the slot is empty, and the action keeps candidates. -/
def accepts (st : MatchState) (a : Action) : Bool :=
  0 < a.capacity && a.id < st.slots.size && (st.candidate? a.id).isNone

/-- Informs an action of a candidate. The state keeps it if it accepts candidates for the
    action, and counts it in any case. -/
def inform (st : MatchState) (a : Action) (c : Candidate) : MatchState :=
  if st.accepts a then
    { slots := st.slots.setIfInBounds a.id (some c)
      received := if a.mustHave then st.received.modify a.rule (· + 1) else st.received
      informs := st.informs + 1
      accepted := st.accepted + 1 }
  else { st with informs := st.informs + 1 }

/-- Offers a candidate to an action: whether the state keeps it, and the state that is left. -/
def offer (st : MatchState) (a : Action) (c : Candidate) : Bool × MatchState :=
  (st.accepts a, st.inform a c)

end MatchState

end AgentRules
