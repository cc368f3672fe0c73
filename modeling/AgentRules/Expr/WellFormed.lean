/-
  Well-formed terms.

  The type of terms holds more than can be written. It has a check for a missing value below
  another function, a concatenation without any text, a descent to the root of the tree, or
  functions without limit. A term is well-formed when it has none of these. What is compiled
  and filed relies on it; here it is said what it means, term by term, without the reader.
-/
import AgentRules.Expr.Error
import AgentRules.Expr
import AgentRules.Range.Number
import AgentRules.Text.Basic

namespace AgentRules

open Range (maxWordNumber)

/-- A name: ASCII letters, ASCII digits and underscores, at least one. -/
def IsName (s : String) : Prop := s.toList ≠ [] ∧ ∀ c ∈ s.toList, Text.isNameChar c

instance (s : String) : Decidable (IsName s) :=
  decidable_of_iff (s.toList ≠ [] ∧ s.toList.all Text.isNameChar)
    (and_congr Iff.rfl List.all_eq_true)

/-! ### Ranges -/

/-- A range of children that is not empty and stays below the bound of child indices. -/
def ChildRange.Bounded (r : ChildRange) : Prop := r.first ≤ r.last ∧ r.last < maxChildIndex

instance (r : ChildRange) : Decidable r.Bounded := inferInstanceAs (Decidable (_ ∧ _))

/-- The word ranges that have a written form. Ranges with two ends that count from the end
    have none unless the ends are the same, and no number is larger than `maxWordNumber`. -/
inductive WordRange.Parseable : WordRange → Prop
  /-- `N`: one word. -/
  | word {n : Nat} (hn : n ≤ maxWordNumber) : Parseable ⟨n, some n⟩
  /-- `-N`: one word, counted from the end. -/
  | fromEnd {n : Nat} (hpos : 0 < n) (hn : n ≤ maxWordNumber) : Parseable ⟨-n, some (-n)⟩
  /-- `A-B`: the words between two. -/
  | between {a b : Nat} (hab : a ≤ b) (hb : b ≤ maxWordNumber) : Parseable ⟨a, some b⟩
  /-- `A-`: all words from one on. -/
  | onward {a : Nat} (ha : a ≤ maxWordNumber) : Parseable ⟨a, none⟩

/-! ### Paths -/

/-- A step that may stand in a path after its start. The root of a tree is below no node, so
    nothing goes down to it. -/
def PathStep.WellFormed : PathStep → Prop
  | .down kind range => kind ≠ .agent ∧ range.Bounded
  | .test _ _ => True
  | .words range => range.Parseable

/-- A path whose steps are well-formed. From the root it starts with the step down to the
    root itself, the only node of its kind. -/
def Path.WellFormed : Path → Prop
  | .literal _ => True
  | .fromRoot steps =>
    ∃ rest, steps = .down .agent (.single 0) :: rest ∧ ∀ step ∈ rest, step.WellFormed
  | .fromVariable name steps => IsName name ∧ ∀ step ∈ steps, step.WellFormed

/-! ### Terms -/

namespace Wrapper

/-- Whether a wrapper takes words out of a value. It is written after a function and not as
    one, so it does not count as a level of nesting. -/
def isWords : Wrapper → Bool
  | words _ => true
  | _ => false

/-- The table that a function looks into. -/
def table? : Wrapper → Option String
  | lookUp table _ | lookUpPrefix table _ | isInLookUpPrefix table => some table
  | _ => none

/-- Whether a function may stand directly around a term. A concatenation needs a text; one
    without a text before the value would be mistaken over a literal, since the literal
    would be read as the text before. Words are taken only from what a function gives, and
    from the check for a missing value not even there. -/
def Fits (w : Wrapper) (inner : Term) : Prop :=
  match w with
  | concat none none => False
  | concat none (some _) => ∀ text, inner ≠ ⟨[], .literal text⟩
  | concat (some _) _ | isNull | normalizeBrand | cleanVersion => True
  | lookUp table _ | lookUpPrefix table _ | isInLookUpPrefix table => IsName table
  | words range =>
    range.Parseable ∧ ∃ v vs, inner.wrappers = v :: vs ∧ v ≠ .isNull ∧ v.isWords = false

end Wrapper

namespace Term

/-- How many functions stand around the path of a term. -/
def functions (t : Term) : Nat := t.wrappers.countP (!·.isWords)

/-- A term that can be written. -/
structure WellFormed (t : Term) : Prop where
  /-- The check for a missing value is the outermost function, if it occurs at all. -/
  isNull_outermost : .isNull ∉ t.wrappers.tail
  /-- Each function may stand around the term inside it. -/
  fits : ∀ w ws, w :: ws <:+ t.wrappers → w.Fits ⟨ws, t.path⟩
  path : t.path.WellFormed
  /-- The functions and the path are no more levels than are read. -/
  nesting : t.functions < maxNesting

end Term

end AgentRules
