/-
  Reading JSON texts.

  The reader is strict: it takes what the standard's grammar allows and nothing else, no
  comments, no trailing commas, no leading zeros, and nothing but space after the value.
  What remains of the text bounds both the nesting of values and the length of arrays and
  objects, so the length of the text is enough fuel for both.
-/
import AgentRules.Json
import AgentRules.Text.Basic

namespace AgentRules.Json

open Text (isAsciiDigit)

/-! ### Space and numbers -/

/-- The four characters that may stand between tokens. -/
def isSpace (c : Char) : Bool := c == ' ' || c == '\t' || c == '\n' || c == '\r'

/-- Drops the space at the front. -/
def skipSpace (cs : List Char) : List Char := cs.dropWhile isSpace

/-- Reads digits, at least one. -/
def digits (cs : List Char) : Option (List Char × List Char) :=
  match cs.takeWhile isAsciiDigit with
  | [] => none
  | ds => some (ds, cs.dropWhile isAsciiDigit)

/-- Reads the digits before the point: a zero, or digits that do not start with one. -/
def wholeDigits : List Char → Option (List Char × List Char)
  | '0' :: cs => some (['0'], cs)
  | cs => digits cs

/-- Reads a fraction, if one is there, and says whether one was. -/
def fraction : List Char → Option (Bool × List Char)
  | '.' :: cs => (digits cs).map fun (_, rest) => (true, rest)
  | cs => some (false, cs)

/-- Drops the sign of an exponent. -/
def skipSign : List Char → List Char
  | '+' :: cs => cs
  | '-' :: cs => cs
  | cs => cs

/-- Reads an exponent, if one is there, and says whether one was. -/
def exponent : List Char → Option (Bool × List Char)
  | 'e' :: cs => (digits (skipSign cs)).map fun (_, rest) => (true, rest)
  | 'E' :: cs => (digits (skipSign cs)).map fun (_, rest) => (true, rest)
  | cs => some (false, cs)

/-- Reads a number after its sign. -/
def unsigned (negative : Bool) (cs : List Char) : Option (Json × List Char) := do
  let (whole, cs) ← wholeDigits cs
  let (hasFraction, cs) ← fraction cs
  let (hasExponent, cs) ← exponent cs
  let n := Nat.ofDigitChars 10 whole 0
  if hasFraction || hasExponent || (negative && n == 0) then some (decimal, cs)
  else some (integer (if negative then -n else n), cs)

/-- Reads a number. -/
def number : List Char → Option (Json × List Char)
  | '-' :: cs => unsigned true cs
  | cs => unsigned false cs

/-! ### Texts -/

/-- The value of a hexadecimal digit. -/
def hexDigit? (c : Char) : Option Nat :=
  if '0' ≤ c ∧ c ≤ '9' then some (c.toNat - '0'.toNat)
  else if 'a' ≤ c ∧ c ≤ 'f' then some (c.toNat - 'a'.toNat + 10)
  else if 'A' ≤ c ∧ c ≤ 'F' then some (c.toNat - 'A'.toNat + 10)
  else none

/-- The value of four hexadecimal digits. -/
def hexValue? (a b c d : Char) : Option Nat := do
  some ((((← hexDigit? a) * 16 + (← hexDigit? b)) * 16 + (← hexDigit? c)) * 16 + (← hexDigit? d))

/-- The character that a short escape stands for. -/
def shortEscape? : Char → Option Char
  | '"' => some '"'
  | '\\' => some '\\'
  | '/' => some '/'
  | 'b' => some '\x08'
  | 'f' => some '\x0c'
  | 'n' => some '\n'
  | 'r' => some '\r'
  | 't' => some '\t'
  | _ => none

/-- Reads a text after its opening quote, as code points in which halves of surrogate
    pairs are still apart. -/
def textBody : List Char → Option (List Nat × List Char)
  | [] => none
  | '"' :: cs => some ([], cs)
  | '\\' :: 'u' :: a :: b :: c :: d :: cs => do
    let n ← hexValue? a b c d
    let (ns, rest) ← textBody cs
    some (n :: ns, rest)
  | '\\' :: c :: cs => do
    let e ← shortEscape? c
    let (ns, rest) ← textBody cs
    some (e.toNat :: ns, rest)
  | c :: cs =>
    if c.toNat < 0x20 then none
    else do
      let (ns, rest) ← textBody cs
      some (c.toNat :: ns, rest)

/-- Puts surrogate pairs together; none where a half is alone. -/
def joinPairs : List Nat → Option (List Char)
  | [] => some []
  | n :: ns =>
    if 0xD800 ≤ n ∧ n < 0xDC00 then
      match ns with
      | m :: ms =>
        if 0xDC00 ≤ m ∧ m < 0xE000 then
          (joinPairs ms).map (Char.ofNat (0x10000 + (n - 0xD800) * 0x400 + (m - 0xDC00)) :: ·)
        else none
      | [] => none
    else if 0xDC00 ≤ n ∧ n < 0xE000 then none
    else (joinPairs ns).map (Char.ofNat n :: ·)

/-- Reads a text after its opening quote. -/
def quotedText (cs : List Char) : Option (Option String × List Char) :=
  (textBody cs).map fun (ns, rest) => ((joinPairs ns).map String.ofList, rest)

/-! ### Values -/

/-- Reads a given word. -/
def word (w : List Char) (value : Json) (cs : List Char) : Option (Json × List Char) :=
  (w.isPrefixOf? cs).map (value, ·)

/-- Reads the items of an array, after its opening bracket or a comma, to the closing
    bracket. -/
def items (item : List Char → Option (Json × List Char)) :
    Nat → List Char → Option (List Json × List Char)
  | 0, _ => none
  | fuel + 1, cs => do
    let (j, cs) ← item cs
    match skipSpace cs with
    | ',' :: cs => do
      let (js, cs) ← items item fuel cs
      some (j :: js, cs)
    | ']' :: cs => some ([j], cs)
    | _ => none

/-- Reads the members of an object, after its opening brace or a comma, to the closing
    brace. -/
def members (item : List Char → Option (Json × List Char)) :
    Nat → List Char → Option (List (Option String × Json) × List Char)
  | 0, _ => none
  | fuel + 1, cs =>
    match skipSpace cs with
    | '"' :: cs => do
      let (name, cs) ← quotedText cs
      match skipSpace cs with
      | ':' :: cs => do
        let (j, cs) ← item cs
        match skipSpace cs with
        | ',' :: cs => do
          let (ms, cs) ← members item fuel cs
          some ((name, j) :: ms, cs)
        | '\x7d' :: cs => some ([(name, j)], cs)
        | _ => none
      | _ => none
    | _ => none

/-- Reads a value, nested at most `depth` deep and with at most `length` items side by
    side. -/
def value (length : Nat) : Nat → List Char → Option (Json × List Char)
  | 0, _ => none
  | depth + 1, cs =>
    match skipSpace cs with
    | '\x7b' :: cs =>
      match skipSpace cs with
      | '\x7d' :: cs => some (object [], cs)
      | cs => (members (value length depth) length cs).map fun (ms, rest) => (object ms, rest)
    | '[' :: cs =>
      match skipSpace cs with
      | ']' :: cs => some (array [], cs)
      | cs => (items (value length depth) length cs).map fun (js, rest) => (array js, rest)
    | '"' :: cs => (quotedText cs).map fun (t, rest) => (text t, rest)
    | 'n' :: cs => word ['u', 'l', 'l'] null cs
    | 't' :: cs => word ['r', 'u', 'e'] (bool true) cs
    | 'f' :: cs => word ['a', 'l', 's', 'e'] (bool false) cs
    | cs => number cs

/-- Reads a text as one JSON value. -/
def parse? (s : String) : Option Json := do
  let cs := s.toList
  let fuel := cs.length + 1
  let (j, rest) ← value fuel fuel cs
  match skipSpace rest with
  | [] => some j
  | _ => none

end AgentRules.Json
