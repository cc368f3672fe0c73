/-
  Characters and texts.

  Expressions and ranges are written with ASCII names and numbers, whatever script their
  literals are in, so characters of other scripts are neither letters nor digits here. Blank
  is the Unicode property White_Space, and everything in this project that trims, splits into
  words or skips the space between two tokens uses this one class.

  A Unicode property with more than a few runs of code points is stored as a table. All tables
  of this project are those of Unicode 17.0.
-/
namespace AgentRules

/-! ### Tables of characters -/

/-- A set of characters: the ascending runs of code points it consists of, each by its first and
    its last member. In this shape the data can be compared line by line with the published
    files, and membership is one pass that the kernel can evaluate as well as the compiled
    program. -/
abbrev CharTable := List (Nat × Nat)

namespace CharTable

/-- A character belongs to a table when one of the table's runs contains its code
    point. The search stops at the first run that ends at or after it. -/
def contains : CharTable → Char → Bool
  | [], _ => false
  | (first, last) :: runs, c => if c.toNat ≤ last then decide (first ≤ c.toNat) else contains runs c

end CharTable

namespace Text

/-! ### Letters, digits and names of ASCII -/

/-- An ASCII letter. -/
def isAsciiLetter (c : Char) : Bool :=
  (0x41 ≤ c.toNat && c.toNat ≤ 0x5A) || (0x61 ≤ c.toNat && c.toNat ≤ 0x7A)

/-- An ASCII digit. -/
def isAsciiDigit (c : Char) : Bool := 0x30 ≤ c.toNat && c.toNat ≤ 0x39

/-- A character of a name: an ASCII letter, an ASCII digit or an underscore. -/
def isNameChar (c : Char) : Bool := isAsciiLetter c || isAsciiDigit c || c == '_'

/-! ### Blanks and words -/

/-- A character is blank when it has the Unicode property White_Space. -/
def isBlank (c : Char) : Bool :=
  let n := c.toNat
  (0x9 ≤ n && n ≤ 0xD) || n == 0x20 || n == 0x85 || n == 0xA0 || n == 0x1680 ||
    (0x2000 ≤ n && n ≤ 0x200A) || n == 0x2028 || n == 0x2029 || n == 0x202F || n == 0x205F ||
    n == 0x3000

/-- Drops the blanks at the front. -/
def skipBlanks (cs : List Char) : List Char := cs.dropWhile isBlank

/-- Drops the blanks at the front and at the end. -/
def trim (cs : List Char) : List Char :=
  (skipBlanks (skipBlanks cs).reverse).reverse

/-- The words of a text: its maximal runs of characters that are not blank, in order. They are
    the parts between its blanks, without the empty ones. -/
def words (cs : List Char) : List (List Char) := (cs.splitOnP isBlank).filter (· ≠ [])

/-- Joins words by single spaces. -/
def joinWords (ws : List (List Char)) : List Char := [' '].intercalate ws

/-! ### Parts of a text -/

/-- Whether `part` stands somewhere in the text. -/
def occursIn (part : List Char) : List Char → Bool
  | [] => part.isEmpty
  | c :: cs => part.isPrefixOf (c :: cs) || occursIn part cs

/-- Splits a text at the first occurrence of `mark`, which belongs to neither part;
    `none` when the text has no `mark`. -/
def splitAtMark (mark : Char) : List Char → Option (List Char × List Char)
  | [] => none
  | c :: cs =>
    if c = mark then some ([], cs)
    else (splitAtMark mark cs).map fun (before, after) => (c :: before, after)

/-- Length of a text in the bytes of its UTF-8 form. -/
def byteLength (cs : List Char) : Nat := cs.foldr (fun c size => c.utf8Size + size) 0

end Text

end AgentRules
