/-
  What can be wrong with a range.
-/
namespace AgentRules

/-- The two kinds of range: of child indices, and of words. -/
inductive RangeKind
  | number
  | word
  deriving DecidableEq

/-- Why a range is refused. -/
inductive RangeFault
  /-- The range starts after it ends. -/
  | startAfterEnd
  /-- The range holds an index that no child may have. -/
  | tooLarge (index : Nat)
  /-- Something other than ASCII digits stands where a number is expected. -/
  | notANumber
  /-- A number does not fit into 64 bits. -/
  | overflow
  /-- The word before the last one past the end was asked for. -/
  | zeroFromEnd
  deriving DecidableEq

/-- A refused range, with the text that was to be read. -/
structure RangeError where
  kind : RangeKind
  text : String
  fault : RangeFault
  deriving DecidableEq

/-- No child has this index or a larger one, as far as ranges can tell. -/
def maxChildIndex : Nat := 64

namespace RangeKind

/-- The word for a kind of range in messages. -/
def label : RangeKind → String
  | number => "number"
  | word => "word"

end RangeKind

namespace RangeFault

/-- The reason in words. -/
def message : RangeFault → String
  | startAfterEnd => "start is after end"
  | tooLarge index => s!"index {index} exceeds maximum {maxChildIndex - 1}"
  | notANumber => "expected a non-negative number"
  | overflow => "number too large to fit in target type"
  | zeroFromEnd => "words from the end count from -1"

end RangeFault

namespace RangeError

/-- The error in words. -/
def message (e : RangeError) : String :=
  s!"invalid {e.kind.label} range \"{e.text}\": {e.fault.message}"

end RangeError

end AgentRules
