/-
  Programs: what is left of an expression to be done for a candidate.

  A program is a list of steps. Most steps turn the value they are given into another one,
  or refuse it. A descent branches: it tries the children of one kind in order, each with
  its own value, and the first child from which the rest of the program gets through
  decides. The result is the node where the program ended and the value it ended with.
-/
import AgentRules.Expr
import AgentRules.Lookup
import AgentRules.Text.Quoted
import AgentRules.Tree.Place
import AgentRules.Value.Brand
import AgentRules.Value.Version

namespace AgentRules

/-! ### Steps -/

/-- One step of a program. The tables that a step needs are part of it, and so is the
    value that stands in for a missing entry. -/
inductive Step
  | down (kind : Fragment) (range : ChildRange)
  | test (test : Test) (text : String)
  | words (range : WordRange)
  | concat (before after : Option String)
  | normalizeBrand
  | cleanVersion
  | lookUp (table : LookupTable) (default : Option String)
  | lookUpPrefix (table : LookupTable) (default : Option String)
  | isInLookUpPrefix (table : LookupTable)

namespace Step

/-- The step of a program that does a step of a path. -/
def ofPathStep : PathStep → Step
  | .down kind range => down kind range
  | .test t text => test t text
  | .words range => words range

/-- Whether there are a place and a value on which the step does not get through. -/
def canFail : Step → Bool
  | concat .. | normalizeBrand | cleanVersion => false
  | lookUp _ default | lookUpPrefix _ default => default.isNone
  | down .. | test .. | words _ | isInLookUpPrefix _ => true

/-- What a step makes of a value. A descent goes by the children of a node and makes
    nothing of a value alone. -/
def transform (value : String) : Step → Option String
  | down .. => none
  | test t text => if t.holds text value then some value else none
  | words range => range.extract value
  | concat before after => some (before.getD "" ++ value ++ after.getD "")
  | normalizeBrand => some (Brand.normalize value)
  | cleanVersion => some (Version.clean value)
  | lookUp table default => (table.get? value).or default
  | lookUpPrefix table default => (table.longest? value).or default
  | isInLookUpPrefix table => if table.startsWithKey value then some value else none

/-- A step in a program listing. -/
def render : Step → String
  | down kind range => s!".({range.render}){kind.label}"
  | test t text => s!"{t.sign}{Text.quoted text}"
  | words range => s!"[{range.render}]"
  | concat before after =>
    let quotedBefore := Text.quoted (before.getD "")
    let quotedAfter := Text.quoted (after.getD "")
    s!"Concat[{quotedBefore};{quotedAfter}]"
  | normalizeBrand => "NormalizeBrand"
  | cleanVersion => "CleanVersion"
  | lookUp table _ => s!"LookUp[{table.name}]"
  | lookUpPrefix table _ => s!"LookUpPrefix[{table.name}]"
  | isInLookUpPrefix table => s!"IsInLookUpPrefix[{table.name}]"

/-- Whether two steps do the same, given that tables of one name are the same table. -/
def same : Step → Step → Bool
  | down k r, down k' r' => k == k' && r == r'
  | test t s, test t' s' => t == t' && s == s'
  | words r, words r' => r == r'
  | concat b a, concat b' a' => b == b' && a == a'
  | normalizeBrand, normalizeBrand => true
  | cleanVersion, cleanVersion => true
  | lookUp t d, lookUp t' d' => t.name == t'.name && d == d'
  | lookUpPrefix t d, lookUpPrefix t' d' => t.name == t'.name && d == d'
  | isInLookUpPrefix t, isInLookUpPrefix t' => t.name == t'.name
  | _, _ => false

end Step

/-! ### Programs -/

/-- The steps to be done for a candidate, and whether the question is that they fail. -/
structure Program where
  steps : List Step
  isNull : Bool

/-- Where a program ended: a node, and the value it ended with. -/
structure Result where
  place : Place
  value : String

namespace Program

/-- Does steps from a place with a value; the first way through decides. -/
def runSteps : List Step → Place → String → Option Result
  | [], place, value => some ⟨place, value⟩
  | .down kind range :: steps, place, _ =>
    place.children.findSome? fun child =>
      if child.node.kind = kind ∧ range.contains child.node.index then
        runSteps steps child child.node.value
      else none
  | step :: steps, place, value =>
    match step.transform value with
    | some value => runSteps steps place value
    | none => none

/-- Runs a program from a candidate. A program without steps accepts the candidate as it
    is. -/
def run (p : Program) (place : Place) (value : String) : Option Result :=
  runSteps p.steps place value

/-- A program listing. -/
def render (p : Program) : String :=
  let mark := if p.isNull then "IsNull " else ""
  let body :=
    if p.steps.isEmpty then "<candidate>" else String.intercalate " > " (p.steps.map Step.render)
  mark ++ body

/-- Whether two programs do the same, given that tables of one name are the same table. -/
def same (p q : Program) : Bool :=
  p.isNull == q.isNull && p.steps.length == q.steps.length &&
    (p.steps.zip q.steps).all fun (s, t) => s.same t

end Program

end AgentRules
