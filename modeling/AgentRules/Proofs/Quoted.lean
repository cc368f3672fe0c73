/-
  Reading quoted texts back.

  A quoted text shows where it ends, and its text can be told from it. There is a reader for
  the form of one character (`unquoteChar_append`), and it finds no character where a double
  quote ends the text. So of two texts that start with quoted texts and are the same, the
  quoted texts are the same, and so is what follows them (`quote_append_inj`). A form that
  did without one of its escapes would be the start of another.
-/
import AgentRules.Proofs.Lexeme
import AgentRules.Text.Quoted
import Mathlib.Tactic.SplitIfs

namespace AgentRules.Text

/-! ### Code points -/

/-- The value of a lower-case hexadecimal digit. -/
def hexDigit (c : Char) : Nat := if c.toNat ≤ 0x39 then c.toNat - 0x30 else c.toNat - 0x57

/-- The number that hexadecimal digits stand for. -/
def hexValue (ds : List Char) : Nat := ds.foldl (fun n d => 16 * n + hexDigit d) 0

theorem hexDigit_digitChar {d : Nat} (h : d < 16) : hexDigit (Nat.digitChar d) = d := by
  have hall : ∀ d : Fin 16, hexDigit (Nat.digitChar d) = d := by decide
  exact hall ⟨d, h⟩

theorem hexValue_toDigits (n : Nat) : hexValue (Nat.toDigits 16 n) = n := by
  induction n using Nat.strongRecOn with
  | ind n ih =>
    rw [Nat.toDigits_eq_if (by decide)]
    split
    · next h =>
      rw [hexValue, List.foldl_cons, List.foldl_nil, hexDigit_digitChar h, Nat.mul_zero,
        Nat.zero_add]
    · next h =>
      have hrest := ih (n / 16) (by omega)
      have hdigit := hexDigit_digitChar (Nat.mod_lt n (by decide : 16 > 0))
      rw [hexValue] at hrest
      rw [hexValue, List.foldl_append, hrest, List.foldl_cons, List.foldl_nil, hdigit]
      omega

theorem brace_notMem_toDigits (n : Nat) : '\x7d' ∉ Nat.toDigits 16 n := by
  induction n using Nat.strongRecOn with
  | ind n ih =>
    rw [Nat.toDigits_eq_if (by decide)]
    split
    · simp
    · next h =>
      have hrest : '\x7d' ∉ Nat.toDigits 16 (n / 16) := ih (n / 16) (by omega)
      simp [hrest]

/-! ### Characters -/

/-- The character that stands behind a backslash for another, or for itself. -/
def shortEscape : Char → Char
  | '0' => '\x00'
  | 't' => '\t'
  | 'n' => '\n'
  | 'r' => '\r'
  | c => c

/-- Reads what stands behind a backslash in a quoted text. -/
def unescape : List Char → Option (Char × List Char)
  | [] => none
  | 'u' :: '\x7b' :: code =>
    (splitAtMark '\x7d' code).map fun (digits, rest) => (Char.ofNat (hexValue digits), rest)
  | c :: rest => some (shortEscape c, rest)

/-- Reads one character inside a quoted text, and gives what follows it; nothing at the
    double quote that ends the text. -/
def unquoteChar : List Char → Option (Char × List Char)
  | [] => none
  | c :: rest => if c = '"' then none else if c = '\\' then unescape rest else some (c, rest)

/-- **The form of a character is read back.** -/
theorem unquoteChar_append (c : Char) (rest : List Char) :
    unquoteChar (quoteChar c ++ rest) = some (c, rest) := by
  unfold quoteChar
  split_ifs with h0 ht hn hr hq hb hp
  · rw [h0]; rfl
  · rw [ht]; rfl
  · rw [hn]; rfl
  · rw [hr]; rfl
  · rw [hq]; rfl
  · rw [hb]; rfl
  · simp [unquoteChar, hq, hb]
  · have hsplit := splitAtMark_append (brace_notMem_toDigits c.toNat) rest
    simp [codeEscape, unquoteChar, unescape, hsplit, hexValue_toDigits]

/-! ### Texts -/

/-- **A quoted text shows its text and where it ends.** -/
theorem quote_append_inj {as bs x y : List Char} (h : quote as ++ x = quote bs ++ y) :
    as = bs ∧ x = y := by
  have hbody : ∀ as bs : List Char,
      as.flatMap quoteChar ++ '"' :: x = bs.flatMap quoteChar ++ '"' :: y → as = bs ∧ x = y := by
    intro as
    induction as with
    | nil =>
      intro bs h
      cases bs with
      | nil => exact ⟨rfl, by simpa using h⟩
      | cons b bs =>
        have hread := congrArg unquoteChar h
        rw [List.flatMap_cons, List.append_assoc, unquoteChar_append] at hread
        cases hread
    | cons a as ih =>
      intro bs h
      have hread := congrArg unquoteChar h
      rw [List.flatMap_cons, List.append_assoc, unquoteChar_append] at hread
      cases bs with
      | nil => cases hread
      | cons b bs =>
        rw [List.flatMap_cons, List.append_assoc, unquoteChar_append] at hread
        obtain ⟨rfl, hrest⟩ := Prod.mk.inj (Option.some.inj hread)
        obtain ⟨rfl, hxy⟩ := ih bs hrest
        exact ⟨rfl, hxy⟩
  refine hbody as bs ?_
  simpa [quote] using h

end AgentRules.Text
