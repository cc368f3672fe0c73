/-
  What becomes of an action in a match state.

  An action without a candidate has failed, unless it checks for a missing value and was
  not found by the index. With a candidate its program decides. The text of a passed check
  is `true`.
-/
import AgentRules.MatchState

namespace AgentRules

/-- What became of an action. -/
inductive Outcome
  | notMatched
  /-- The action found a value in the tree, or found none where none was wanted. -/
  | matched (value : String)
  /-- The value of the action does not depend on the tree. -/
  | fixed (value : String)
  deriving DecidableEq, Repr

namespace Outcome

/-- The value of a successful action. -/
def value? : Outcome → Option String
  | notMatched => none
  | matched value | fixed value => some value

/-- Whether the action was successful. -/
def isSuccess (o : Outcome) : Bool := o.value?.isSome

end Outcome

namespace Action

/-- The text of a passed check for a missing value. -/
def nullText : String := "true"

/-- Whether the action waits for a candidate and has none. -/
def cannotBeValid (a : Action) (st : MatchState) : Bool :=
  a.mustHave && (st.candidate? a.id).isNone

/-- What becomes of an action with the candidate it has. -/
def evaluate (a : Action) (st : MatchState) : Outcome :=
  match a.compiled with
  | .fixed value => .fixed value
  | .program p =>
    match st.candidate? a.id with
    | none => if !a.mustHave && p.isNull then .matched nullText else .notMatched
    | some c =>
      match p.run c.place c.value, p.isNull with
      | some result, false => .matched result.value
      | none, true => .matched nullText
      | _, _ => .notMatched

/-- Where the program of an action ends, as other actions can start from there. A check for
    a missing value ends nowhere. -/
def resolve? (a : Action) (st : MatchState) : Option Result :=
  match a.compiled with
  | .fixed _ => none
  | .program p =>
    if p.isNull then none else (st.candidate? a.id).bind fun c => p.run c.place c.value

end Action

end AgentRules
