/-
  From expressions to programs.

  Compiling looks up the tables an expression names and puts the steps that remain after
  the route of its path into the order in which they are done: those of the path, then the
  functions around it, innermost first. Functions over a literal are done at once, and the
  expression becomes a fixed value.

  A requirement only cares that there is a value. For it the steps at the end that cannot
  fail are dropped.
-/
import AgentRules.Expr.Route
import AgentRules.Program

namespace AgentRules

/-- Why an expression that can be read has no program. -/
inductive CompileFault
  /-- It names a table that is not there. -/
  | unknownTable (table : String)
  /-- The check for a missing value stands inside another function. -/
  | innerIsNull
  /-- The check for a missing value stands over a literal, which is never missing. -/
  | isNullOverLiteral
  /-- A step makes nothing of the literal it is applied to, directly or after others. -/
  | noValue (step : Step) (literal : String)

namespace CompileFault

/-- The fault of an expression in words. -/
def message (text : String) : CompileFault → String
  | unknownTable table => s!"unknown lookup table \"{table}\" in \"{text}\""
  | innerIsNull => s!"invalid expression \"{text}\": IsNull is only allowed at the top level"
  | isNullOverLiteral => s!"invalid expression \"{text}\": IsNull over a fixed value"
  | noValue step literal =>
    let reason := s!"{step.render} produces no value from the fixed value \"{literal}\""
    s!"invalid expression \"{text}\": {reason}"

end CompileFault

/-- What an expression is compiled to. -/
inductive Compiled
  /-- The expression does not depend on the tree. -/
  | fixed (value : String)
  | program (program : Program)

namespace Compiled

/-- Whether two expressions do the same, given that tables of one name are the same
    table. -/
def same : Compiled → Compiled → Bool
  | fixed v, fixed v' => v == v'
  | program p, program p' => p.same p'
  | _, _ => false

/-- The value of an expression that does not depend on the tree. -/
def fixed? : Compiled → Option String
  | fixed value => some value
  | program _ => none

end Compiled

namespace Lookups

/-- The table that an expression names. -/
def require (l : Lookups) (name : String) : Except CompileFault LookupTable :=
  match l.get? name with
  | some table => .ok table
  | none => .error (.unknownTable name)

end Lookups

namespace Wrapper

/-- The step that a function is done by. A default in the expression goes before that of
    the table. -/
def compile (lookups : Lookups) : Wrapper → Except CompileFault Step
  | isNull => .error .innerIsNull
  | concat before after => .ok (.concat before after)
  | normalizeBrand => .ok .normalizeBrand
  | cleanVersion => .ok .cleanVersion
  | lookUp table default =>
    (lookups.require table).map fun t => .lookUp t (default.or t.default)
  | lookUpPrefix table default =>
    (lookups.require table).map fun t => .lookUpPrefix t (default.or t.default)
  | isInLookUpPrefix table => (lookups.require table).map .isInLookUpPrefix
  | words range => .ok (.words range)

/-- The steps of several functions, from the outermost to the innermost; the outermost
    that has none decides on the fault. -/
def compileAll (lookups : Lookups) : List Wrapper → Except CompileFault (List Step)
  | [] => .ok []
  | w :: ws =>
    match w.compile lookups with
    | .error fault => .error fault
    | .ok step => (compileAll lookups ws).map (step :: ·)

end Wrapper

namespace Step

/-- Applies steps to a value in a row; `literal` is what the first of them began with. -/
def foldLiteral (literal : String) (value : String) : List Step → Except CompileFault String
  | [] => .ok value
  | step :: steps =>
    match step.transform value with
    | some value => foldLiteral literal value steps
    | none => .error (.noValue step literal)

/-- Drops the steps at the end that cannot fail. -/
def prune (steps : List Step) : List Step := (steps.reverse.dropWhile (!·.canFail)).reverse

end Step

namespace Term

/-- Splits off the check for a missing value, where it is the outermost function. -/
def splitIsNull (t : Term) : Bool × List Wrapper :=
  match t.wrappers with
  | .isNull :: wrappers => (true, wrappers)
  | wrappers => (false, wrappers)

/-- Compiles an expression; `pruned` says whether only the existence of a value counts. -/
def compile (lookups : Lookups) (pruned : Bool) (t : Term) : Except CompileFault Compiled :=
  let (isNull, wrappers) := t.splitIsNull
  match Wrapper.compileAll lookups wrappers with
  | .error fault => .error fault
  | .ok functions =>
    match t.path with
    | .literal text =>
      if isNull then .error .isNullOverLiteral
      else (Step.foldLiteral text text functions.reverse).map .fixed
    | path =>
      let steps := path.remaining.map Step.ofPathStep ++ functions.reverse
      .ok (.program ⟨if pruned then Step.prune steps else steps, isNull⟩)

end Term

end AgentRules
