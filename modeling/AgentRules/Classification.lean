/-
  Classifications: the fields that rules have found values for.

  Several rules may offer values for one field. The offer with the highest confidence is
  kept, and of equal ones the first. Fields are listed in the order of their names.
-/
namespace AgentRules

/-- A value that a rule has found for a field. -/
structure Emission where
  field : String
  value : String
  confidence : Int
  rule : String
  deriving DecidableEq, Repr

/-- The best offers so far, one for each field, in the order of the fields' names. -/
structure Classification where
  emissions : List Emission
  deriving DecidableEq, Repr

namespace Classification

/-- No fields. -/
def empty : Classification := ⟨[]⟩

/-- The offer that is kept for a field. -/
def get? (c : Classification) (field : String) : Option Emission :=
  c.emissions.find? (·.field == field)

/-- The number of fields. -/
def size (c : Classification) : Nat := c.emissions.length

/-- Puts an offer in the place that the name of its field has among others, and instead of
    an offer for the same field. -/
def place (e : Emission) : List Emission → List Emission
  | [] => [e]
  | d :: ds =>
    if e.field < d.field then e :: d :: ds
    else if e.field = d.field then e :: ds
    else d :: place e ds

/-- Whether an offer would be kept: its field has none yet, or one of less confidence. -/
def admits (c : Classification) (e : Emission) : Bool :=
  match c.get? e.field with
  | some d => d.confidence < e.confidence
  | none => true

/-- Takes an offer, if it is to be kept. -/
def offer (c : Classification) (e : Emission) : Classification :=
  if c.admits e then ⟨place e c.emissions⟩ else c

end Classification

end AgentRules
