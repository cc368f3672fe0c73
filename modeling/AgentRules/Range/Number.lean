/-
  The numbers that ranges are written with.

  A number is a run of ASCII digits with blanks around it. It must fit into 64 bits; where
  a signed number is needed, a larger one than fits there is read as the largest.
-/
import AgentRules.Range.Error
import AgentRules.Text.Basic

namespace AgentRules.Range

open Text

/-- Reads a number. -/
def readNumber (cs : List Char) : Except RangeFault Nat :=
  let digits := trim cs
  if digits.isEmpty || !digits.all isAsciiDigit then .error .notANumber
  else
    let n := Nat.ofDigitChars 10 digits 0
    if n < UInt64.size then .ok n else .error .overflow

/-- The largest number of a word. -/
def maxWordNumber : Nat := 0x7fffffffffffffff

/-- A number as the number of a word: at most the largest there is. -/
def wordNumber (n : Nat) : Nat := min n maxWordNumber

end AgentRules.Range
