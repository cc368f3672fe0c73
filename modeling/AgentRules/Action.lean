/-
  Actions: the compiled expressions of rules.

  Each expression of a rule becomes one action with a number of its own. An action says
  what it is for, keeps the expression and what it was compiled to, and knows under how
  many paths the index has filed it.
-/
import AgentRules.Error
import AgentRules.Expr.Parser
import AgentRules.RouteIndex

namespace AgentRules

/-- What an expression is for in its rule. -/
inductive Role
  /-- It must have a value. -/
  | requirement
  /-- Its value is what the rule finds. -/
  | extraction
  /-- Where it ends has a name, from which other expressions start. -/
  | binding
  deriving DecidableEq, Repr

/-- The compiled expression of a rule. -/
structure Action where
  id : ActionId
  /-- The position of the rule it belongs to. -/
  rule : Nat
  role : Role
  expression : Expression
  compiled : Compiled
  verbose : Bool
  /-- Under how many paths the index has filed it; none before it is registered. -/
  informs : Nat

namespace Action

/-- Compiles an expression of a rule. For a requirement only the existence of a value
    counts. -/
def ofExpression (id : ActionId) (rule : Nat) (role : Role) (lookups : Lookups) (verbose : Bool)
    (e : Expression) : Except ExpressionError Action :=
  match e.root.compile lookups (role = .requirement) with
  | .error fault => .error (.uncompilable e.text fault)
  | .ok compiled => .ok ⟨id, rule, role, e, compiled, verbose, 0⟩

/-- Reads and compiles an expression of a rule. -/
def ofText (id : ActionId) (rule : Nat) (role : Role) (lookups : Lookups) (verbose : Bool)
    (text : String) : Except ExpressionError Action :=
  match Expression.parse text with
  | .error e => .error (.unreadable text e)
  | .ok e => ofExpression id rule role lookups verbose e

/-- The path under the functions of the action's expression. -/
def path (a : Action) : Path := a.expression.root.path

/-- Files an action in the index. -/
def file (index : RouteIndex) (a : Action) : RouteIndex := (index.enter a.id a.path).2

/-- The action as it is once it is filed: it knows under how many paths. -/
def registered (a : Action) : Action := { a with informs := a.path.filings.length }

/-- Whether the action cannot succeed without a candidate from the index. A check for a
    missing value can, and actions that start from a variable are not informed by the
    index. -/
def mustHave (a : Action) : Bool := 0 < a.informs && !a.expression.usesIsNull

/-- How many candidates are kept for the action: none where it does not depend on the
    tree. -/
def capacity (a : Action) : Nat := if a.compiled.fixed?.isSome then 0 else 1

end Action

end AgentRules
