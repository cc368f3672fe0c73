/-
  The smallest parts of an expression text: single signs, names, quoted literals and the
  text of a range.

  Reading works on what is left of the text. A reader takes the remaining characters and
  answers with what it read and what then remains. A failure carries the remaining
  characters at the place of the fault; since they are an end of the whole text, they
  tell the offset.
-/
import AgentRules.Expr.Error
import AgentRules.Text.Basic

namespace AgentRules

/-- A fault, and what remained of the text at the place of the fault. -/
structure ReadFailure where
  fault : ReadFault
  rest : List Char
  deriving DecidableEq

/-- What a reader answers: as a rule a part of the expression and the text after it. -/
abbrev Reading := Except ReadFailure

namespace Reading

open Text

/-- Reads one given character. -/
def sign (c : Char) : List Char → Reading (List Char)
  | [] => .error ⟨.expected c, []⟩
  | d :: cs => if d = c then .ok cs else .error ⟨.expected c, d :: cs⟩

/-- Reads a name: letters, digits and underscores of ASCII, at least one. -/
def name (cs : List Char) : Reading (String × List Char) :=
  match cs.takeWhile isNameChar with
  | [] => .error ⟨.noName, cs⟩
  | c :: word => .ok (String.ofList (c :: word), cs.dropWhile isNameChar)

/-- The text of a literal whose opening quote has been read, and what follows its closing
    quote. A backslash before a double quote or a backslash stands for that character;
    before any other character it stands for itself. -/
def literalBody : List Char → Option (List Char × List Char)
  | [] => none
  | '"' :: cs => some ([], cs)
  | '\\' :: c :: cs =>
    (literalBody cs).map fun (text, rest) =>
      (if c = '"' ∨ c = '\\' then c :: text else '\\' :: c :: text, rest)
  | c :: cs => (literalBody cs).map fun (text, rest) => (c :: text, rest)

/-- Reads a quoted literal. -/
def literal : List Char → Reading (String × List Char)
  | '"' :: body =>
    match literalBody body with
    | some (text, rest) => .ok (String.ofList text, rest)
    | none => .error ⟨.openLiteral, '"' :: body⟩
  | cs => .error ⟨.expected '"', cs⟩

/-- Reads everything up to a closing character, and that character. -/
def upTo (close : Char) (cs : List Char) : Reading (List Char × List Char) :=
  match splitAtMark close cs with
  | some (text, rest) => .ok (text, rest)
  | none => .error ⟨.unclosed close, cs⟩

/-! ### Readers get on

What remains after a successful reader is shorter than what it was given. -/

theorem sign_length {c : Char} {cs rest : List Char} (h : sign c cs = .ok rest) :
    rest.length < cs.length := by
  cases cs with
  | nil => simp [sign] at h
  | cons d cs =>
    simp only [sign] at h
    split at h
    · cases h; simp
    · cases h

theorem name_length {cs rest : List Char} {s : String} (h : name cs = .ok (s, rest)) :
    rest.length < cs.length := by
  unfold name at h
  split at h
  · cases h
  · next c word htake =>
    cases h
    have hsplit :=
      congrArg List.length (List.takeWhile_append_dropWhile (p := isNameChar) (l := cs))
    rw [htake, List.length_append, List.length_cons] at hsplit
    omega

theorem literalBody_length {cs text rest : List Char} (h : literalBody cs = some (text, rest)) :
    rest.length < cs.length := by
  fun_induction literalBody cs generalizing text rest with
  | case1 => cases h
  | case2 cs => cases h; simp
  | case3 c cs ih =>
    obtain ⟨⟨t, r⟩, ht, hr⟩ := Option.map_eq_some_iff.1 h
    cases hr
    have := ih ht
    simp only [List.length_cons]
    omega
  | case4 c cs _ _ ih =>
    obtain ⟨⟨t, r⟩, ht, hr⟩ := Option.map_eq_some_iff.1 h
    cases hr
    have := ih ht
    simp only [List.length_cons]
    omega

theorem literal_length {cs rest : List Char} {s : String} (h : literal cs = .ok (s, rest)) :
    rest.length < cs.length := by
  unfold literal at h
  split at h
  · next body =>
    split at h
    · next text rest' hb =>
      cases h
      have := literalBody_length hb
      simp only [List.length_cons]
      omega
    · cases h
  · cases h

theorem splitAtMark_length {mark : Char} {cs text rest : List Char}
    (h : splitAtMark mark cs = some (text, rest)) : rest.length < cs.length := by
  induction cs generalizing text with
  | nil => cases h
  | cons c cs ih =>
    simp only [splitAtMark] at h
    split at h
    · cases h; simp
    · obtain ⟨⟨t, r⟩, ht, hr⟩ := Option.map_eq_some_iff.1 h
      cases hr
      exact Nat.lt_succ_of_lt (ih ht)

theorem upTo_length {close : Char} {cs text rest : List Char}
    (h : upTo close cs = .ok (text, rest)) : rest.length < cs.length := by
  unfold upTo at h
  split at h
  · next hs => cases h; exact splitAtMark_length hs
  · cases h

theorem skipBlanks_length (cs : List Char) : (skipBlanks cs).length ≤ cs.length :=
  (List.dropWhile_sublist isBlank).length_le

end Reading

end AgentRules
