/-
  Brand names in one spelling.

  Sources spell a brand in any mixture of capital and small letters. A name of up to three
  characters is taken for an acronym and put into capitals. In a longer name each word,
  a run of alphanumeric characters, starts with a capital and goes on in small letters,
  and everything between the words stays as it is.
-/
import AgentRules.Text.Alphanumeric
import AgentRules.Text.Basic
import AgentRules.Text.Case

namespace AgentRules.Brand

open Text

/-- Gives each word a capital first letter and small other letters; `atStart` says
    whether the next alphanumeric character starts a word. Each letter is mapped by
    itself, so a sigma that ends a word does not become final. -/
def capitalizeFrom (atStart : Bool) : List Char → List Char
  | [] => []
  | c :: cs =>
    if isAlphanumeric c then
      (if atStart then capitalForm c else smallForm c) ++ capitalizeFrom false cs
    else c :: capitalizeFrom true cs

/-- The longest name, in characters, that is taken for an acronym. -/
def acronymLength : Nat := 3

/-- The one spelling of a brand name. -/
def normalizeChars (cs : List Char) : List Char :=
  let name := trim cs
  if name.length ≤ acronymLength then toCapital name else capitalizeFrom true name

/-- The one spelling of a brand name. -/
def normalize (s : String) : String := String.ofList (normalizeChars s.toList)

end AgentRules.Brand
