/-
  Small letters at the start of a longer text.

  Each character of a text is put into small letters by itself, but for a capital sigma, whose
  small form depends on what stands around it. A text that goes on therefore need not start
  with the small form of what it started with. It fails to do so in one case: the text ended
  with a final sigma, and what follows is a letter, so that the sigma is no longer the end of
  a word (`toSmall_prefix_append_iff`).

  The proof compares the small form of a text that stands alone with its small form in front
  of another (`toSmallBetween`), one character at a time.
-/
import AgentRules.Text.Case
import Mathlib.Data.List.Infix
import Mathlib.Data.List.TakeWhile

namespace AgentRules.Text

/-! ### Texts in front of others -/

/-- The small form of a text which stands between two others; the one before it is read
    backwards. -/
def toSmallBetween (before after : List Char) : List Char → List Char
  | [] => []
  | c :: cs =>
    (if c = 'Σ' then [if endsWord before (cs ++ after) then 'ς' else 'σ'] else smallForm c) ++
      toSmallBetween (c :: before) after cs

theorem toSmallFrom_append (before cs after : List Char) :
    toSmallFrom before (cs ++ after) =
      toSmallBetween before after cs ++ toSmallFrom (cs.reverse ++ before) after := by
  induction cs generalizing before with
  | nil => rfl
  | cons c cs ih =>
    rw [List.cons_append, toSmallFrom, toSmallBetween, ih, List.append_assoc, List.reverse_cons,
      List.append_assoc]
    rfl

theorem toSmallFrom_eq (before cs : List Char) :
    toSmallFrom before cs = toSmallBetween before [] cs := by
  have happend := toSmallFrom_append before cs []
  rwa [List.append_nil, toSmallFrom, List.append_nil] at happend

/-- How long a small form is does not depend on what stands around the text. -/
theorem length_toSmallBetween (before after after' cs : List Char) :
    (toSmallBetween before after cs).length = (toSmallBetween before after' cs).length := by
  induction cs generalizing before with
  | nil => rfl
  | cons c cs ih =>
    rw [toSmallBetween, toSmallBetween, List.length_append, List.length_append, ih]
    by_cases hc : c = 'Σ'
    · simp [hc]
    · simp [hc]

/-! ### Sigmas in front of others -/

theorem startsCased_append_of_ignored {cs : List Char}
    (h : ∀ c ∈ cs, caseIgnorableChars.contains c) (after : List Char) :
    startsCased (cs ++ after) = startsCased after := by
  rw [startsCased, startsCased, List.dropWhile_append_of_pos h]

theorem startsCased_of_ignored {cs : List Char} (h : ∀ c ∈ cs, caseIgnorableChars.contains c) :
    startsCased cs = false := by
  have hend := startsCased_append_of_ignored h []
  rwa [List.append_nil] at hend

theorem startsCased_append_of_not_ignored {cs : List Char}
    (h : ¬∀ c ∈ cs, caseIgnorableChars.contains c) (after : List Char) :
    startsCased (cs ++ after) = startsCased cs := by
  have hne : cs.dropWhile caseIgnorableChars.contains ≠ [] := by
    rwa [Ne, List.dropWhile_eq_nil_iff]
  obtain ⟨c, rest, hdrop⟩ := List.exists_cons_of_ne_nil hne
  rw [startsCased, startsCased, List.dropWhile_append, hdrop]
  rfl

/-- Whether a sigma ends a word depends on a text further behind only if nothing but characters
    that are ignored for case stands between the two. -/
theorem endsWord_append_eq_iff (before cs after : List Char) :
    endsWord before (cs ++ after) = endsWord before cs ↔
      ¬(startsCased before ∧ (∀ c ∈ cs, caseIgnorableChars.contains c) ∧ startsCased after) := by
  by_cases h : ∀ c ∈ cs, caseIgnorableChars.contains c
  · rw [endsWord, endsWord, startsCased_append_of_ignored h, startsCased_of_ignored h, eq_true h]
    cases startsCased before <;> cases startsCased after <;> decide
  · rw [endsWord, endsWord, startsCased_append_of_not_ignored h]
    exact iff_of_true rfl fun hlost => h hlost.2.1

/-- Whether a text has a capital sigma that ends a word where the text stands alone, but not in
    front of another text: a cased letter comes before the sigma, all characters behind it are
    ignored for case, and the other text starts with a cased letter. What comes before the text
    is read backwards. -/
def FinalSigmaLost (before text after : List Char) : Prop :=
  ∃ front ignored, text = front ++ 'Σ' :: ignored ∧ startsCased (front.reverse ++ before) ∧
    (∀ c ∈ ignored, caseIgnorableChars.contains c) ∧ startsCased after

theorem finalSigmaLost_cons (before after : List Char) (c : Char) (cs : List Char) :
    FinalSigmaLost before (c :: cs) after ↔
      (c = 'Σ' ∧ startsCased before ∧ (∀ d ∈ cs, caseIgnorableChars.contains d) ∧
        startsCased after) ∨ FinalSigmaLost (c :: before) cs after := by
  constructor
  · rintro ⟨front, ignored, htext, hbefore, hignored, hafter⟩
    cases front with
    | nil =>
      obtain ⟨rfl, rfl⟩ := List.cons.inj htext
      exact .inl ⟨rfl, hbefore, hignored, hafter⟩
    | cons d front =>
      obtain ⟨rfl, rfl⟩ := List.cons.inj htext
      refine .inr ⟨front, ignored, rfl, ?_, hignored, hafter⟩
      simpa using hbefore
  · rintro (⟨rfl, hbefore, hignored, hafter⟩ | ⟨front, ignored, rfl, hbefore, hignored, hafter⟩)
    · exact ⟨[], cs, rfl, hbefore, hignored, hafter⟩
    · refine ⟨c :: front, ignored, rfl, ?_, hignored, hafter⟩
      simpa using hbefore

/-- **Another text behind changes nothing but a final sigma.** -/
theorem toSmallBetween_eq_iff (before text after : List Char) :
    toSmallBetween before after text = toSmallBetween before [] text ↔
      ¬FinalSigmaLost before text after := by
  induction text generalizing before with
  | nil =>
    refine iff_of_true rfl ?_
    rintro ⟨front, ignored, htext, -⟩
    simp at htext
  | cons c cs ih =>
    rw [finalSigmaLost_cons, not_or, ← ih, toSmallBetween, toSmallBetween, List.append_nil]
    by_cases hc : c = 'Σ'
    · have hsigma : ∀ b b' : Bool,
          [if b then 'ς' else 'σ'] = [if b' then 'ς' else 'σ'] ↔ b = b' := by
        decide
      have hsplit : ∀ {a b : Char} {as bs : List Char},
          [a] ++ as = [b] ++ bs ↔ [a] = [b] ∧ as = bs := by
        simp
      rw [if_pos hc, if_pos hc, hsplit, hsigma, endsWord_append_eq_iff]
      simp only [hc, true_and]
    · rw [if_neg hc, if_neg hc, List.append_cancel_left_eq]
      simp only [hc, false_and, not_false_iff, true_and]

/-- **The small form of a text starts with that of a start of it**, unless this start ends with a
    final sigma that the rest of the text turns into another small sigma. -/
theorem toSmall_prefix_append_iff (text after : List Char) :
    toSmall text <+: toSmall (text ++ after) ↔ ¬FinalSigmaLost [] text after := by
  rw [toSmall, toSmall, toSmallFrom_eq, toSmallFrom_append, ← toSmallBetween_eq_iff]
  have hlength := length_toSmallBetween [] [] after text
  constructor
  · intro hprefix
    have hstart := List.prefix_of_prefix_length_le hprefix (List.prefix_append _ _) hlength.le
    exact (hstart.eq_of_length hlength).symm
  · intro heq
    rw [heq]
    exact List.prefix_append _ _

end AgentRules.Text
