/-
  Rules.

  A rule finds a value for one field. It has variables, which name places in the tree;
  requirements, which must all have a value; and one expression whose value it extracts.
  An expression of a rule may start from any of its variables, and that of a variable from
  the variables before it.

  The actions of a rule have consecutive numbers: first the variables, then the
  requirements, then the extraction.
-/
import AgentRules.Action.Outcome
import AgentRules.Classification

namespace AgentRules

/-! ### Definitions -/

/-- A named expression. -/
structure Binding where
  name : String
  expression : String
  deriving DecidableEq, Repr

/-- The field of a rule, how far its value is to be trusted, and where it comes from. -/
structure Extraction where
  field : String
  confidence : Int
  expression : String
  deriving DecidableEq, Repr

/-- A rule as it is written down. -/
structure RuleDefinition where
  name : String
  bindings : List Binding
  requirements : List String
  extract : Extraction
  deriving DecidableEq, Repr

namespace RuleDefinition

/-- The number of actions of a rule. -/
def actionCount (d : RuleDefinition) : Nat := d.bindings.length + d.requirements.length + 1

end RuleDefinition

/-! ### Compiled rules -/

/-- A compiled rule. -/
structure Rule where
  /-- Its position in the rule set. -/
  index : Nat
  name : String
  field : String
  confidence : Int
  bindings : List (String × Action)
  requirements : List Action
  extraction : Action

namespace Rule

/-- All actions in the order of their numbers. -/
def actions (r : Rule) : List Action :=
  r.bindings.map (·.2) ++ r.requirements ++ [r.extraction]

/-- The number of the first action. -/
def firstId (r : Rule) : ActionId := (r.actions.head?.map (·.id)).getD 0

/-- The action of a number, if it belongs to the rule. How far the number is above the first one
    of the rule tells where the action is kept. -/
def action? (r : Rule) (id : ActionId) : Option Action :=
  if id < r.firstId then none
  else
    let offset : Nat := id - r.firstId
    let bindings := r.bindings.length
    let requirements := r.requirements.length
    if offset < bindings then r.bindings[offset]?.map (·.2)
    else if offset < bindings + requirements then r.requirements[offset - bindings]?
    else if offset = bindings + requirements then some r.extraction
    else none

/-- How many actions must have a candidate before the rule is worth evaluating. -/
def requiredInputs (r : Rule) : Nat := r.actions.countP (·.mustHave)

/-- The actions that start from a variable. -/
def listeners (r : Rule) (name : String) : List Action :=
  r.actions.filter (·.expression.variableName? = some name)

/-! ### Building -/

/-- What a rule is built into: the tables, the position of the rule, and whether its
    actions are to be logged. -/
structure Site where
  lookups : Lookups
  index : Nat
  verbose : Bool

/-- Compiles an expression of a rule. -/
def buildAction (site : Site) (role : Role) (id : ActionId) (text : String) :
    Except ExpressionError Action :=
  Action.ofText id site.index role site.lookups site.verbose text

/-- Compiles the variables of a rule from the number `id` on; `names` are those of the
    variables before. -/
def buildVariables (site : Site) (names : List String) (id : ActionId) :
    List Binding → Except ExpressionError (List (String × Action))
  | [] => .ok []
  | v :: vs =>
    if names.contains v.name then .error (.repeatedVariable v.expression v.name)
    else do
      let a ← buildAction site .binding id v.expression
      if a.compiled.fixed?.isSome then .error (.fixedVariable v.expression v.name)
      else
        let rest ← buildVariables site (names ++ [v.name]) (id + 1) vs
        .ok ((v.name, a) :: rest)

/-- Compiles the requirements of a rule from the number `id` on. -/
def buildRequirements (site : Site) (id : ActionId) :
    List String → Except ExpressionError (List Action)
  | [] => .ok []
  | text :: texts => do
    let a ← buildAction site .requirement id text
    let rest ← buildRequirements site (id + 1) texts
    .ok (a :: rest)

/-- Checks that an action starts from a variable it may use, if it starts from one. -/
def checkVariable (names : List String) (a : Action) : Except ExpressionError Unit :=
  match a.expression.variableName? with
  | none => .ok ()
  | some name =>
    if names.contains name then .ok () else .error (.unknownVariable a.expression.text name)

/-- Checks the variables of a rule: each may use those before it, whose names are given. -/
def checkVariables (names : List String) : List (String × Action) → Except ExpressionError Unit
  | [] => .ok ()
  | (name, a) :: rest => do
    checkVariable names a
    checkVariables (names ++ [name]) rest

/-- Checks several actions that may use the same variables. -/
def checkAll (names : List String) : List Action → Except ExpressionError Unit
  | [] => .ok ()
  | a :: as => do
    checkVariable names a
    checkAll names as

/-- Compiles a rule whose first action has the number `id`, without filing it. -/
def compile (site : Site) (id : ActionId) (d : RuleDefinition) : Except ExpressionError Rule := do
  let bindings ← buildVariables site [] id d.bindings
  let requirements ← buildRequirements site (id + bindings.length) d.requirements
  let extraction ← buildAction site .extraction (id + bindings.length + requirements.length)
    d.extract.expression
  checkVariables [] bindings
  let names := bindings.map (·.1)
  checkAll names requirements
  checkVariable names extraction
  .ok ⟨site.index, d.name, d.extract.field, d.extract.confidence, bindings, requirements,
    extraction⟩

/-- The variables that an action may start from where it comes after `position` variables: a
    variable may start from these, anything else from all. -/
def visible (names : List String) (position : Nat) (a : Action) : List String :=
  if a.role = .binding then names.take position else names

/-- Notes the number of an action with the variable that it starts from. The numbers are kept
    by the places of the variables. -/
def note (names : List String) (position : Nat) (noted : List (List ActionId)) (a : Action) :
    Except ExpressionError (List (List ActionId)) :=
  match a.expression.variableName? with
  | none => .ok noted
  | some name =>
    match (visible names position a).idxOf? name with
    | some target => .ok (noted.modify target (· ++ [a.id]))
    | none => .error (.unknownVariable a.expression.text name)

/-- Notes the numbers of several actions that come after `position` variables. -/
def noteAll (names : List String) (position : Nat) (noted : List (List ActionId)) :
    List Action → Except ExpressionError (List (List ActionId))
  | [] => .ok noted
  | a :: as => do
    let noted ← note names position noted a
    noteAll names (if a.role = .binding then position + 1 else position) noted as

/-- The numbers of the actions that start from each variable, by the places of the variables. -/
def listenerIds (r : Rule) : Except ExpressionError (List (List ActionId)) :=
  let names := r.bindings.map (·.1)
  noteAll names 0 (names.map fun _ => []) r.actions

/-- Files the actions of a rule in the index. -/
def file (r : Rule) (index : RouteIndex) : RouteIndex := r.actions.foldl Action.file index

/-- The rule as it is once its actions are filed. -/
def registered (r : Rule) : Rule :=
  { r with
    bindings := r.bindings.map fun (name, a) => (name, a.registered)
    requirements := r.requirements.map Action.registered
    extraction := r.extraction.registered }

/-- Compiles a rule and files its actions. -/
def build (site : Site) (id : ActionId) (index : RouteIndex) (d : RuleDefinition) :
    Except RuleError (Rule × RouteIndex) :=
  match compile site id d with
  | .ok r => .ok (r.registered, r.file index)
  | .error cause => .error ⟨d.name, cause⟩

/-! ### Evaluation -/

/-- Informs some actions of where a variable ended. -/
def deliverTo (listeners : List Action) (st : MatchState) (binding : String × Action) :
    MatchState :=
  let (name, action) := binding
  match action.resolve? st with
  | none => st
  | some result =>
    listeners.foldl (fun st a => st.inform a ⟨.ofVariable name, result.place, result.value⟩) st

/-- Informs the actions that start from a variable of where the variable ended. -/
def deliverVariable (r : Rule) (st : MatchState) (binding : String × Action) : MatchState :=
  deliverTo (r.listeners binding.1) st binding

/-- Informs all actions that start from variables, in the order of the variables, so that
    a variable that starts from an earlier one finds its candidate. -/
def deliverVariables (r : Rule) (st : MatchState) : MatchState :=
  r.bindings.foldl r.deliverVariable st

/-- Informs the actions whose numbers are noted with the variables, in the order of the
    variables. A number that no action of the rule has is passed over. -/
def deliverNoted (r : Rule) (noted : List (List ActionId)) (st : MatchState) : MatchState :=
  (r.bindings.zip noted).foldl
    (fun st (binding, ids) => deliverTo (ids.filterMap r.action?) st binding) st

/-- What the rule finds when its extraction has a value. -/
def emission (r : Rule) (value : String) : Emission := ⟨r.field, value, r.confidence, r.name⟩

/-- What the rule finds in a state in which its variables are delivered: the value of the
    extraction, if every requirement is met. -/
def emission? (r : Rule) (st : MatchState) : Option Emission :=
  if r.requirements.all fun a => (a.evaluate st).isSuccess then
    (r.extraction.evaluate st).value?.map r.emission
  else none

/-- Evaluates a rule: what it finds, and the state with its variables delivered. -/
def evaluate (r : Rule) (st : MatchState) : Option Emission × MatchState :=
  let st := r.deliverVariables st
  (r.emission? st, st)

end Rule

end AgentRules
