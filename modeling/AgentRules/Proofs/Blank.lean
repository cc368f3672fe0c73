/-
  Skipping blanks and trimming.

  Skipping takes away the blanks at the front of a text and stops at the first other
  character. Trimming does so at both ends (`trim_append`), and leaves alone just the texts
  that have no blank at an end (`trim_eq_self_iff`).
-/
import AgentRules.Text.Basic
import Mathlib.Data.List.Infix
import Mathlib.Data.List.TakeWhile

namespace AgentRules.Text

/-! ### Blank characters -/

theorem isBlank_of_isAsciiDigit {c : Char} (h : isAsciiDigit c) : isBlank c = false := by
  simp only [isAsciiDigit, Bool.and_eq_true, decide_eq_true_eq] at h
  simp only [isBlank, Bool.or_eq_false_iff, Bool.and_eq_false_iff, beq_eq_false_iff_ne,
    decide_eq_false_iff_not]
  omega

theorem isBlank_of_isNameChar {c : Char} (h : isNameChar c) : isBlank c = false := by
  simp only [isNameChar, isAsciiLetter, isAsciiDigit, Bool.or_eq_true, Bool.and_eq_true,
    decide_eq_true_eq, beq_iff_eq] at h
  obtain h | rfl := h
  · simp only [isBlank, Bool.or_eq_false_iff, Bool.and_eq_false_iff, beq_eq_false_iff_ne,
      decide_eq_false_iff_not]
    omega
  · decide

/-! ### Skipping -/

theorem skipBlanks_suffix (cs : List Char) : skipBlanks cs <:+ cs := List.dropWhile_suffix _

theorem skipBlanks_eq_self_iff (cs : List Char) :
    skipBlanks cs = cs ↔ ∀ c, cs.head? = some c → ¬isBlank c := by
  rw [skipBlanks, List.dropWhile_eq_self_iff]
  cases cs <;> simp

theorem skipBlanks_append {blanks : List Char} (h : ∀ c ∈ blanks, isBlank c) (cs : List Char) :
    skipBlanks (blanks ++ cs) = skipBlanks cs :=
  List.dropWhile_append_of_pos h

theorem skipBlanks_of_blank {cs : List Char} (h : ∀ c ∈ cs, isBlank c) : skipBlanks cs = [] := by
  rw [← List.append_nil cs, skipBlanks_append h]
  rfl

theorem skipBlanks_cons {c : Char} (h : isBlank c = false) (cs : List Char) :
    skipBlanks (c :: cs) = c :: cs :=
  List.dropWhile_cons_of_neg (by simp [h])

theorem isBlank_of_skipBlanks {cs rest : List Char} {c : Char} (h : skipBlanks cs = c :: rest) :
    isBlank c = false := by
  have := List.head?_dropWhile_not isBlank cs
  rw [← skipBlanks, h] at this
  simpa using this

@[simp]
theorem skipBlanks_skipBlanks (cs : List Char) : skipBlanks (skipBlanks cs) = skipBlanks cs := by
  cases h : skipBlanks cs with
  | nil => rfl
  | cons c rest => exact skipBlanks_cons (isBlank_of_skipBlanks h) rest

/-- Skipping stops at the first character that is not blank, with everything after it. -/
theorem skipBlanks_append_of_head {core : List Char} (hcore : core ≠ [])
    (hhead : ∀ c ∈ core.head?, isBlank c = false) (cs : List Char) :
    skipBlanks (core ++ cs) = core ++ cs := by
  cases core with
  | nil => exact absurd rfl hcore
  | cons c core => exact skipBlanks_cons (hhead c rfl) (core ++ cs)

/-! ### Trimming -/

/-- **Trimming takes the blanks off both ends of a text, and no more.** -/
theorem trim_append {before core after : List Char} (hbefore : ∀ c ∈ before, isBlank c)
    (hafter : ∀ c ∈ after, isBlank c) (hcore : core ≠ [])
    (hhead : ∀ c ∈ core.head?, isBlank c = false)
    (hlast : ∀ c ∈ core.getLast?, isBlank c = false) :
    trim (before ++ (core ++ after)) = core := by
  -- Seen from the end, the blanks behind come first, and then the text itself.
  have hback : skipBlanks (core ++ after).reverse = core.reverse := by
    rw [List.reverse_append, skipBlanks_append fun c hc => hafter c (List.mem_reverse.mp hc)]
    rw [← List.append_nil core.reverse]
    exact skipBlanks_append_of_head (by simpa using hcore) (by simpa using hlast) []
  rw [trim, skipBlanks_append hbefore, skipBlanks_append_of_head hcore hhead, hback,
    List.reverse_reverse]

theorem trim_prefix_skipBlanks (cs : List Char) : trim cs <+: skipBlanks cs := by
  rw [trim, ← List.reverse_suffix, List.reverse_reverse]
  exact skipBlanks_suffix _

theorem trim_isInfix (cs : List Char) : trim cs <:+: cs :=
  (trim_prefix_skipBlanks cs).isInfix.trans (skipBlanks_suffix cs).isInfix

/-- What is trimmed off a text are blanks. -/
theorem exists_eq_append_trim (cs : List Char) :
    ∃ before after, cs = before ++ (trim cs ++ after) ∧ (∀ c ∈ before, isBlank c) ∧
      ∀ c ∈ after, isBlank c := by
  have hskip : ∀ cs, ∃ before, cs = before ++ skipBlanks cs ∧ ∀ c ∈ before, isBlank c := fun cs =>
    ⟨cs.takeWhile isBlank, List.takeWhile_append_dropWhile.symm, fun c hc =>
      List.mem_takeWhile_imp hc⟩
  obtain ⟨before, hfront, hbefore⟩ := hskip cs
  obtain ⟨after, hback, hafter⟩ := hskip (skipBlanks cs).reverse
  refine ⟨before, after.reverse, ?_, hbefore, fun c hc => hafter c (List.mem_reverse.mp hc)⟩
  rw [List.reverse_eq_iff, List.reverse_append] at hback
  rw [trim, ← hback, ← hfront]

/-- Trimming leaves a text as it is exactly if it neither starts nor ends with a blank. -/
theorem trim_eq_self_iff (cs : List Char) :
    trim cs = cs ↔
      (∀ c, cs.head? = some c → ¬isBlank c) ∧ ∀ c, cs.getLast? = some c → ¬isBlank c := by
  have hback : (∀ c, cs.getLast? = some c → ¬isBlank c) ↔ skipBlanks cs.reverse = cs.reverse := by
    rw [skipBlanks_eq_self_iff, List.head?_reverse]
  rw [← skipBlanks_eq_self_iff, hback, trim]
  constructor
  · intro h
    -- Nothing is dropped in either step, since the length is the same in the end.
    have hlength := congrArg List.length h
    have hfront := (skipBlanks_suffix cs).length_le
    have hrest := (skipBlanks_suffix (skipBlanks cs).reverse).length_le
    rw [List.length_reverse] at hlength hrest
    have hskip : skipBlanks cs = cs := (skipBlanks_suffix cs).eq_of_length (by omega)
    rw [hskip] at h
    exact ⟨hskip, List.reverse_eq_iff.mp h⟩
  · rintro ⟨hfront, hrest⟩
    rw [hfront, hrest, List.reverse_reverse]

/-- A trimmed text neither starts nor ends with a blank. -/
@[simp]
theorem trim_trim (cs : List Char) : trim (trim cs) = trim cs := by
  rw [trim_eq_self_iff]
  constructor
  · intro c hc
    obtain ⟨rest, hskip⟩ := trim_prefix_skipBlanks cs
    obtain ⟨text, htext⟩ := List.head?_eq_some_iff.mp hc
    rw [htext, List.cons_append] at hskip
    simp [isBlank_of_skipBlanks hskip.symm]
  · intro c hc
    rw [trim, List.getLast?_reverse] at hc
    obtain ⟨text, htext⟩ := List.head?_eq_some_iff.mp hc
    simp [isBlank_of_skipBlanks htext]

end AgentRules.Text
