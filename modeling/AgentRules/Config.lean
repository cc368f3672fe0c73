/-
  Rule sets as configuration.

  A configuration lists lookup tables by name and rules in their order. The tables are
  built in the order of their names and filled in the order of their keys, so of two keys
  that differ only in capital and small letters the later one counts.
-/
import AgentRules.Json.Reader
import AgentRules.RuleSet

namespace AgentRules

/-- A lookup table as it is written down, its entries in the order of their keys. -/
structure Config.Table where
  default : Option String
  entries : List (String × String)

/-- A rule set as it is written down, its tables in the order of their names. -/
structure Config where
  verbose : Bool
  lookups : List (String × Config.Table)
  rules : List RuleDefinition

/-! ### Reading -/

namespace Config.Table

/-- The table that a JSON value describes. -/
def ofJson? (j : Json) : Option Config.Table := do
  match ← j.record? ["default", "entries"] with
  | [default, entries] =>
    some
      { default := ← Json.orElse none Json.optionalString? default
        entries := ← Json.orElse [] (Json.map? Json.string?) entries }
  | _ => none

end Config.Table

namespace Binding

/-- The variable that a JSON value describes. -/
def ofJson? (j : Json) : Option Binding := do
  match ← j.record? ["name", "expression"] with
  | [name, expression] =>
    some
      { name := ← Json.required Json.string? name
        expression := ← Json.required Json.string? expression }
  | _ => none

end Binding

namespace Extraction

/-- The extraction that a JSON value describes. -/
def ofJson? (j : Json) : Option Extraction := do
  match ← j.record? ["field", "confidence", "expression"] with
  | [field, confidence, expression] =>
    some
      { field := ← Json.required Json.string? field
        confidence := ← Json.required Json.int64? confidence
        expression := ← Json.required Json.string? expression }
  | _ => none

end Extraction

namespace RuleDefinition

/-- The rule that a JSON value describes. -/
def ofJson? (j : Json) : Option RuleDefinition := do
  match ← j.record? ["name", "variables", "require", "extract"] with
  | [name, bindings, requirements, extract] =>
    some
      { name := ← Json.required Json.string? name
        bindings := ← Json.orElse [] (Json.list? Binding.ofJson?) bindings
        requirements := ← Json.orElse [] (Json.list? Json.string?) requirements
        extract := ← Json.required Extraction.ofJson? extract }
  | _ => none

end RuleDefinition

namespace Config

/-- The rule set that a JSON value describes. -/
def ofJson? (j : Json) : Option Config := do
  match ← j.record? ["verbose", "lookups", "rules"] with
  | [verbose, lookups, rules] =>
    some
      { verbose := ← Json.orElse false Json.bool? verbose
        lookups := ← Json.orElse [] (Json.map? Config.Table.ofJson?) lookups
        rules := ← Json.required (Json.list? RuleDefinition.ofJson?) rules }
  | _ => none

/-- The rule set that a JSON text describes. -/
def parse? (text : String) : Option Config := (Json.parse? text).bind ofJson?

/-! ### Building -/

/-- The tables of a configuration. -/
def tables (c : Config) : Lookups :=
  .ofList (c.lookups.map fun (name, t) => .ofEntries name t.default t.entries)

/-- Builds the rule set of a configuration. -/
def build (c : Config) : Except RuleError RuleSet :=
  RuleSet.build c.tables c.verbose c.rules

end Config

end AgentRules
