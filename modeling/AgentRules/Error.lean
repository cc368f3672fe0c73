/-
  What can be wrong with the expressions of a rule.
-/
import AgentRules.Expr.Error
import AgentRules.Program.Compile

namespace AgentRules

/-- Why an expression is refused, with its text. -/
inductive ExpressionError
  | unreadable (text : String) (error : ReadError)
  | uncompilable (text : String) (fault : CompileFault)
  /-- The expression is that of a variable whose name an earlier variable has. -/
  | repeatedVariable (text name : String)
  /-- The expression is that of a variable, but does not depend on the tree. -/
  | fixedVariable (text name : String)
  /-- The expression starts from a variable that is not declared before it. -/
  | unknownVariable (text name : String)

namespace ExpressionError

/-- The error in words. -/
def message : ExpressionError → String
  | unreadable text error => s!"syntax error in \"{text}\": {error.message}"
  | uncompilable text fault => fault.message text
  | repeatedVariable text name =>
    s!"invalid expression \"{text}\": variable @{name} is declared twice"
  | fixedVariable text name => s!"invalid expression \"{text}\": variable @{name} has a fixed value"
  | unknownVariable text name => s!"unknown variable \"@{name}\" in \"{text}\""

end ExpressionError

/-- Why a rule is refused: the fault of one of its expressions. -/
structure RuleError where
  rule : String
  cause : ExpressionError

namespace RuleError

/-- The error in words. -/
def message (e : RuleError) : String := s!"rule \"{e.rule}\": {e.cause.message}"

end RuleError

end AgentRules
