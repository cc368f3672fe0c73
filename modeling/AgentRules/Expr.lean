/-
  Expressions: what a rule asks of a tree.

  An expression takes a value from somewhere and may put it through functions. Where the
  value comes from is a `Path`: a literal, a walk from the root of the tree, or a walk
  from where a variable of the same rule ended. Each function takes one value and gives
  one, so the functions around a path form a list, and a `Term` is that list, outermost
  function first, over its path.
-/
import AgentRules.Range.Child
import AgentRules.Range.Word
import AgentRules.Text.Basic

namespace AgentRules

/-! ### Paths -/

/-- A comparison of a value with a written text. -/
inductive Test
  | equals
  | notEquals
  | startsWith
  | endsWith
  | contains
  deriving DecidableEq, Repr

namespace Test

/-- Whether a value passes a test against a text. Letters are compared as they are. -/
def holds (t : Test) (text value : String) : Bool :=
  match t with
  | equals => value == text
  | notEquals => value != text
  | startsWith => text.toList.isPrefixOf value.toList
  | endsWith => text.toList.isSuffixOf value.toList
  | contains => Text.occursIn text.toList value.toList

/-- The sign that a test is written with. -/
def sign : Test → String
  | equals => "="
  | notEquals => "!="
  | startsWith => "\x7b"
  | endsWith => "\x7d"
  | contains => "~"

end Test

/-- One step of a path. -/
inductive PathStep
  /-- Go down to the children of a kind whose index lies in a range. -/
  | down (kind : Fragment) (range : ChildRange)
  /-- Stay, and require that the value passes a test. -/
  | test (test : Test) (text : String)
  /-- Stay, and go on with some words of the value. -/
  | words (range : WordRange)
  deriving DecidableEq, Repr

/-- Where a value comes from. -/
inductive Path
  /-- The value is written down. -/
  | literal (text : String)
  /-- The value is found by steps from above the root of the tree; the first step goes down
      to the root itself. -/
  | fromRoot (steps : List PathStep)
  /-- The value is found by steps from the node where a variable ended. -/
  | fromVariable (name : String) (steps : List PathStep)
  deriving DecidableEq, Repr

/-! ### Functions around a path -/

/-- A function around a path. -/
inductive Wrapper
  /-- Succeeds when there is no value inside. -/
  | isNull
  /-- Puts a text before the value, after it, or both. -/
  | concat (before after : Option String)
  | normalizeBrand
  | cleanVersion
  /-- The value's entry in a table, or a default. -/
  | lookUp (table : String) (default : Option String)
  /-- The entry of the longest key that the value starts with, or a default. -/
  | lookUpPrefix (table : String) (default : Option String)
  /-- The value itself, provided that it starts with some key of a table. -/
  | isInLookUpPrefix (table : String)
  /-- Some words of the value. -/
  | words (range : WordRange)
  deriving DecidableEq, Repr

/-- A path under functions, the outermost function first. -/
structure Term where
  wrappers : List Wrapper
  path : Path
  deriving DecidableEq, Repr

namespace Term

/-- One more function around a term. -/
def wrap (w : Wrapper) (t : Term) : Term := ⟨w :: t.wrappers, t.path⟩

end Term

/-- An expression together with the text it was read from. -/
structure Expression where
  text : String
  root : Term
  deriving DecidableEq, Repr

namespace Expression

/-- Whether the expression asks that there be no value. -/
def usesIsNull (e : Expression) : Bool := e.root.wrappers.head? = some .isNull

/-- The variable that the expression starts from, if it starts from one. -/
def variableName? (e : Expression) : Option String :=
  match e.root.path with
  | .fromVariable name _ => some name
  | _ => none

end Expression

end AgentRules
