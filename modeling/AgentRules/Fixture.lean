/-
  Fixtures: rule sets with the trees they are to be tried on.

  A fixture has a configuration and cases. A case is a tree and the fields that the rule
  set must find in it, no more and no less. A fixture may instead name an error that
  building the rule set must end in; then its cases do not count.
-/
import AgentRules.Config
import AgentRules.Trace.Listing

namespace AgentRules

/-- A tree and all the fields it must have. -/
structure Fixture.Case where
  name : String
  tree : Outline
  /-- The fields in the order of their names. -/
  expected : List (String × String)

/-- A rule set and what is expected of it. -/
structure Fixture where
  name : String
  description : String
  config : Config
  /-- A part of the error that building must end in. -/
  buildError : Option String
  cases : List Fixture.Case

/-- What came of a case. -/
structure Fixture.Report where
  caseName : String
  passed : Bool
  expected : List (String × String)
  actual : List (String × String)

/-! ### Reading -/

namespace Fragment

/-- The kind that a JSON value names: its label, alone or as the only member of an object
    without content. -/
def ofJson? : Json → Option Fragment
  | .text (some label) => ofLabel? label
  | .object [(some label, .null)] => ofLabel? label
  | _ => none

end Fragment

namespace Outline

/-- The tree that a JSON value of a limited depth describes. -/
def ofJsonBelow? : Nat → Json → Option Outline
  | 0, _ => none
  | depth + 1, j => do
    match ← j.record? ["kind", "value", "children"] with
    | [kind, value, children] =>
      some
        { kind := ← Json.orElse .agent Fragment.ofJson? kind
          value := ← Json.required Json.string? value
          children := ← Json.orElse [] (Json.list? (ofJsonBelow? depth)) children }
    | _ => none

/-- The tree that a JSON value describes. -/
def ofJson? (j : Json) : Option Outline := ofJsonBelow? (j.depth + 1) j

end Outline

namespace Fixture.Case

/-- The case that a JSON value describes. -/
def ofJson? (j : Json) : Option Fixture.Case := do
  match ← j.record? ["name", "tree", "expect"] with
  | [name, tree, expected] =>
    some
      { name := ← Json.required Json.string? name
        tree := ← Json.required Outline.ofJson? tree
        expected := ← Json.orElse [] (Json.map? Json.string?) expected }
  | _ => none

end Fixture.Case

namespace Classification

/-- The fields with their values alone. -/
def values (c : Classification) : List (String × String) :=
  c.emissions.map fun e => (e.field, e.value)

end Classification

namespace Fixture

/-- The fixture that a JSON value describes. -/
def ofJson? (j : Json) : Option Fixture := do
  match ← j.record? ["name", "description", "config", "build_error", "cases"] with
  | [name, description, config, buildError, cases] =>
    some
      { name := ← Json.required Json.string? name
        description := ← Json.required Json.string? description
        config := ← Json.required Config.ofJson? config
        buildError := ← Json.orElse none Json.optionalString? buildError
        cases := ← Json.orElse [] (Json.list? Fixture.Case.ofJson?) cases }
  | _ => none

/-! ### Running -/

/-- Runs cases one after the other in one state. -/
def runCases (rs : RuleSet) (st : MatchState) : List Fixture.Case → List Fixture.Report
  | [] => []
  | c :: cs =>
    let (fields, st) := rs.classifyWith ⟨[], c.tree.build⟩ st
    ⟨c.name, fields.values == c.expected, c.expected, fields.values⟩ :: runCases rs st cs

/-- Builds the rule set of a fixture and runs all its cases. -/
def run (f : Fixture) : Except RuleError (List Fixture.Report) := do
  let rs ← f.config.build
  .ok (runCases rs rs.newState f.cases)

/-- Fields with their values, in one line. -/
def listing (fields : List (String × String)) : String :=
  let entries := fields.map fun (field, value) => s!"{Text.quoted field}: {Text.quoted value}"
  let body := String.intercalate ", " entries
  s!"\x7b{body}\x7d"

/-- The first thing that is not as the fixture expects, in words; nothing where all is as
    expected. -/
def complaint? (f : Fixture) : Option String :=
  match f.run, f.buildError with
  | .error e, some expected =>
    if Text.occursIn expected.toList e.message.toList then none
    else
      let found := s!"Fixture '{f.name}' failed with '{e.message}'"
      some s!"{found}, expected an error containing '{expected}'"
  | .ok _, some expected =>
    some s!"Fixture '{f.name}' built, expected an error containing '{expected}'"
  | .error e, none => some s!"Fixture '{f.name}' failed to build: {e.message}"
  | .ok results, none =>
    (results.find? (!·.passed)).map fun r =>
      let expected := listing r.expected
      let actual := listing r.actual
      s!"Fixture '{f.name}' case '{r.caseName}' failed: expected {expected}, got {actual}"

end Fixture

end AgentRules
