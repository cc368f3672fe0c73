/-
  Version numbers in one spelling.

  Versions come with underscores or dots between their components, with doubled and
  dangling separators, and with blanks around them. The clean form is built in one pass:
  after trimming, an underscore is read as a dot, and a dot is kept only if the text so far
  ends with a character other than a dot. Dots at the end of what the pass has built are
  dropped.
-/
import AgentRules.Text.Basic

namespace AgentRules.Version

open Text

/-- An underscore between components is read as a dot. -/
def readMark (c : Char) : Char := if c = '_' then '.' else c

/-- Adds a character to the clean text so far, which is held backwards: a dot only after a
    character other than a dot. -/
def push (out : List Char) (c : Char) : List Char :=
  let c := readMark c
  if c = '.' ∧ (out = [] ∨ out.head? = some '.') then out else c :: out

/-- The clean form of a version. -/
def cleanChars (cs : List Char) : List Char :=
  (((trim cs).foldl push []).dropWhile (· == '.')).reverse

/-- The clean form of a version. -/
def clean (s : String) : String := String.ofList (cleanChars s.toList)

end AgentRules.Version
