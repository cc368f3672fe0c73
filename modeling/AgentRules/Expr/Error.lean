/-
  What can be wrong with the text of an expression.
-/
import AgentRules.Range.Error

namespace AgentRules

/-- The longest expression that is read, in bytes. -/
def maxExpressionBytes : Nat := 8192

/-- The deepest nesting that is read: functions around a path, and the path. -/
def maxNesting : Nat := 32

/-- Why a text is no expression. -/
inductive ReadFault
  /-- Something follows the expression. -/
  | trailing
  /-- The functions are nested too deeply. -/
  | tooDeep
  /-- Neither a literal nor a path nor a function starts here. -/
  | noStart
  /-- No function has this name, and it is not the root of paths either. -/
  | unknownFunction (name : String)
  /-- The check for a missing value stands inside another function. -/
  | innerIsNull
  /-- A name is missing. -/
  | noName
  /-- Another character than the one that must stand here. -/
  | expected (c : Char)
  /-- A range is opened, and the rest of the text does not close it. -/
  | unclosed (c : Char)
  /-- A literal is opened, and the rest of the text does not close it. -/
  | openLiteral
  /-- A descent into something that is no kind of node below a root. -/
  | notDescendable (name : String)
  | range (error : RangeError)
  deriving DecidableEq

namespace ReadFault

/-- The fault in words. -/
def message : ReadFault → String
  | trailing => "unexpected trailing input"
  | tooDeep => s!"nesting exceeds {maxNesting} levels"
  | noStart => "expected a literal, a path or a function"
  | unknownFunction name => s!"unknown function or path root \"{name}\""
  | innerIsNull => "IsNull is only allowed at the top of an expression"
  | noName => "expected a name"
  | expected c => s!"expected '{c}'"
  | unclosed c => s!"missing '{c}'"
  | openLiteral => "unterminated literal"
  | notDescendable name => s!"\"{name}\" is not a fragment that can be descended into"
  | range error => error.message

end ReadFault

/-- Why a text is not read. -/
inductive ReadError
  /-- The text is longer than any expression that is read. -/
  | tooLong (bytes : Nat)
  /-- The text has a fault, at an offset in bytes. -/
  | fault (fault : ReadFault) (offset : Nat)
  deriving DecidableEq

namespace ReadError

/-- The error in words. -/
def message : ReadError → String
  | tooLong bytes => s!"expression is {bytes} bytes, maximum is {maxExpressionBytes}"
  | fault f offset => s!"{f.message} at offset {offset}"

end ReadError

end AgentRules
