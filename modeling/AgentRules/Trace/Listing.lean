/-
  Traces in one line of text.

  A record is written as its name and, in braces, its fields; a list in brackets; texts are
  quoted.
-/
import AgentRules.Trace
import AgentRules.Text.Quoted

namespace AgentRules

namespace Listing

/-- A record with its fields. -/
def record (name : String) (fields : List (String × String)) : String :=
  let body := String.intercalate ", " (fields.map fun (label, value) => s!"{label}: {value}")
  s!"{name} \x7b {body} \x7d"

/-- A list of texts that are written already. -/
def list (items : List String) : String :=
  let body := String.intercalate ", " items
  s!"[{body}]"

/-- Something that may be missing. -/
def optional : Option String → String
  | some text => s!"Some({text})"
  | none => "None"

end Listing

open Listing Text

namespace Role

/-- The word for the role of an action in a listing. -/
def listing : Role → String
  | requirement => "Require"
  | extraction => "Extract"
  | binding => "Variable"

end Role

namespace Outcome

/-- An outcome in a listing. -/
def listing : Outcome → String
  | notMatched => "NotMatched"
  | matched value => s!"Matched({quoted value})"
  | fixed value => s!"Fixed({quoted value})"

end Outcome

namespace Emission

/-- What a rule found, in a listing. -/
def listing (e : Emission) : String :=
  record "Emission"
    [("field", quoted e.field), ("value", quoted e.value), ("confidence", toString e.confidence),
      ("rule", quoted e.rule)]

end Emission

namespace ActionTrace

/-- An action in a listing. -/
def listing (t : ActionTrace) : String :=
  record "ActionTrace"
    [("id", s!"ActionId({t.id})"), ("kind", t.role.listing), ("expression", quoted t.expression),
      ("path", quotedOption (t.candidate.map (·.1))),
      ("value", quotedOption (t.candidate.map (·.2))), ("outcome", t.outcome.listing)]

end ActionTrace

namespace RuleTrace

/-- A rule in a listing. -/
def listing (t : RuleTrace) : String :=
  record "RuleTrace"
    [("rule", quoted t.rule), ("passed_gate", toString t.passedGate),
      ("received", toString t.received), ("required_inputs", toString t.requiredInputs),
      ("actions", list (t.actions.map ActionTrace.listing)),
      ("emission", optional (t.emission.map Emission.listing))]

end RuleTrace

namespace ClassifyTrace

/-- A whole trace as a listing. -/
def listing (t : ClassifyTrace) : String :=
  record "ClassifyTrace"
    [("informs", toString t.informs), ("accepted", toString t.accepted),
      ("rules", list (t.rules.map RuleTrace.listing))]

end ClassifyTrace

end AgentRules
