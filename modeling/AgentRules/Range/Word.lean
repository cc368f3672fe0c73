/-
  Ranges of words.

  A word range takes some consecutive words out of a value. Words are numbered from zero;
  a negative number counts from the end, with -1 for the last word; a range without an
  end reaches to the last word. Whether a range addresses any words is decided when it
  meets a value, since only then the number of words is known.
-/
import AgentRules.Range.Number

namespace AgentRules

/-- The words from `first` to `last`, or from `first` on. -/
structure WordRange where
  first : Int
  last : Option Int
  deriving DecidableEq, Repr

namespace WordRange

/-- Reads a word range. -/
def read (text : List Char) : Except RangeFault WordRange :=
  match Text.trim text with
  | '-' :: number => do
    let n ← Range.readNumber number
    if n = 0 then .error .zeroFromEnd
    else .ok ⟨-Range.wordNumber n, some (-Range.wordNumber n)⟩
  | text =>
    match Text.splitAtMark '-' text with
    | none => do
      let n ← Range.readNumber text
      .ok ⟨Range.wordNumber n, some (Range.wordNumber n)⟩
    | some (start, []) => do
      let n ← Range.readNumber start
      .ok ⟨Range.wordNumber n, none⟩
    | some (start, stop) => do
      let first := Range.wordNumber (← Range.readNumber start)
      let last := Range.wordNumber (← Range.readNumber stop)
      if last < first then .error .startAfterEnd else .ok ⟨first, some (last : Int)⟩

/-- Reads a word range, or says what is wrong with the text. -/
def parse (text : String) : Except RangeError WordRange :=
  (read text.toList).mapError (⟨.word, text, ·⟩)

/-- A word range by its ends. It is refused only where it is empty for every value: both
    ends count from the front, and the first comes after the last. -/
def ofBounds (first : Int) (last : Option Int) : Except RangeError WordRange :=
  match last with
  | some last =>
    if 0 ≤ first ∧ 0 ≤ last ∧ last < first then
      .error ⟨.word, s!"{first}-{last}", .startAfterEnd⟩
    else .ok ⟨first, some last⟩
  | none => .ok ⟨first, none⟩

/-- The position among `count` words that a number addresses. -/
def resolve? (i : Int) (count : Nat) : Option Nat :=
  let position := if i < 0 then count + i else i
  if 0 ≤ position ∧ position < count then some position.toNat else none

/-- The words that a range takes out of a text, joined by single spaces. A range without an end
    reaches to the last word. -/
def extractChars (r : WordRange) (cs : List Char) : Option (List Char) := do
  let ws := Text.words cs
  let first ← resolve? r.first ws.length
  let last ← resolve? (r.last.getD (-1)) ws.length
  if last < first then none
  else some (Text.joinWords ((ws.drop first).take (last + 1 - first)))

/-- The words that a range takes out of a value, joined by single spaces. -/
def extract (r : WordRange) (s : String) : Option String :=
  (r.extractChars s.toList).map String.ofList

/-- The written form of a range. -/
def render (r : WordRange) : String :=
  match r.last with
  | some last => if last = r.first then toString r.first else s!"{r.first}-{last}"
  | none => s!"{r.first}-"

end WordRange

end AgentRules
