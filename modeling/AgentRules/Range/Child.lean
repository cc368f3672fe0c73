/-
  Ranges of child indices.

  A descent names the siblings it looks at by a range of indices among the children of one
  kind. Ranges are written `*`, `2`, `1-3` or `2-`; the open form and the star end at the
  usual count of the kind. Ranges that are read or made by `ofBounds` stay below
  `maxChildIndex`, so an index of routes needs a bounded number of nodes for each.
-/
import AgentRules.Fragment
import AgentRules.Range.Number

namespace AgentRules

/-- The child indices from `first` to `last`. -/
structure ChildRange where
  first : Nat
  last : Nat
  deriving DecidableEq, Repr

namespace ChildRange

/-- The range of one index. -/
def single (i : Nat) : ChildRange := ⟨i, i⟩

/-- The range that a descent without a written range looks at. -/
def usual (kind : Fragment) : ChildRange := ⟨0, kind.usualCount - 1⟩

/-- A range by its two ends. It must not be empty, and not reach past the largest index. -/
def check (first last : Nat) : Except RangeFault ChildRange :=
  if last < first then .error .startAfterEnd
  else if maxChildIndex ≤ last then .error (.tooLarge last)
  else .ok ⟨first, last⟩

/-- Reads a range of children of a kind. -/
def read (text : List Char) (kind : Fragment) : Except RangeFault ChildRange :=
  let text := Text.trim text
  if text = ['*'] then .ok (usual kind)
  else
    match Text.splitAtMark '-' text with
    | none => do
      let n ← Range.readNumber text
      check n n
    | some (start, []) => do
      let first ← Range.readNumber start
      if maxChildIndex ≤ first then .error (.tooLarge first)
      else check first (max kind.usualCount (first + 1) - 1)
    | some (start, stop) => do
      let first ← Range.readNumber start
      let last ← Range.readNumber stop
      check first last

/-- Reads a range of children of a kind, or says what is wrong with the text. -/
def parse (text : String) (kind : Fragment) : Except RangeError ChildRange :=
  (read text.toList kind).mapError (⟨.number, text, ·⟩)

/-- The range between two indices, or what is wrong with it. -/
def ofBounds (first last : Nat) : Except RangeError ChildRange :=
  (check first last).mapError (⟨.number, s!"{first}-{last}", ·⟩)

/-- How many indices a range holds. -/
def length (r : ChildRange) : Nat := r.last - r.first + 1

/-- The indices of a range in ascending order. -/
def indices (r : ChildRange) : List Nat := List.range' r.first (r.last + 1 - r.first)

/-- Whether a range holds an index. -/
def contains (r : ChildRange) (i : Nat) : Bool := r.first ≤ i && i ≤ r.last

/-- The written form of a range. -/
def render (r : ChildRange) : String :=
  if r.first = r.last then toString r.first else s!"{r.first}-{r.last}"

end ChildRange

end AgentRules
