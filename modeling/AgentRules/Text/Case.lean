/-
  Small and capital letters.

  A single character has a small and a capital form, each of one to three characters
  (`ß` becomes `SS`). A whole text is put into small letters character by character, with
  one exception: a capital sigma that ends a word becomes the final sigma `ς`, so its
  small form depends on the characters around it. For this reason the small form of a
  text is in general not the small forms of its parts put together.
-/
import AgentRules.Text.Case.Table

namespace AgentRules.Text

/-! ### Single characters -/

/-- The characters a letter turns into under one of the two mappings, given by its
    sequences and its runs. A character that neither lists stays as it is. -/
def mapLetter (sequences : List (Nat × List Nat)) (runs : List CaseRun) (c : Char) : List Char :=
  match sequences.lookup c.toNat with
  | some ns => ns.map Char.ofNat
  | none =>
    match CaseRun.find? runs c.toNat with
    | some n => [Char.ofNat n]
    | none => [c]

/-- The small form of a character by itself. -/
def smallForm (c : Char) : List Char := mapLetter smallSequences smallRuns c

/-- The capital form of a character. -/
def capitalForm (c : Char) : List Char := mapLetter capitalSequences capitalRuns c

/-! ### Whole texts -/

/-- Whether the first character that is not ignored for case is a cased letter. -/
def startsCased (cs : List Char) : Bool :=
  match cs.dropWhile caseIgnorableChars.contains with
  | c :: _ => casedChars.contains c
  | [] => false

/-- A sigma ends a word when a cased letter comes before it and none comes after it;
    `before` is the text in front of it read backwards. -/
def endsWord (before after : List Char) : Bool := startsCased before && !startsCased after

/-- Puts the rest of a text into small letters; `before` is what precedes it, read
    backwards. -/
def toSmallFrom (before : List Char) : List Char → List Char
  | [] => []
  | c :: cs =>
    (if c = 'Σ' then [if endsWord before cs then 'ς' else 'σ'] else smallForm c) ++
      toSmallFrom (c :: before) cs

/-- A text in small letters. -/
def toSmall (cs : List Char) : List Char := toSmallFrom [] cs

/-- A text in capital letters. -/
def toCapital (cs : List Char) : List Char := cs.flatMap capitalForm

end AgentRules.Text
