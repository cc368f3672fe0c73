/-
  Texts that are split into parts, and parts that are joined.

  A text is split at the characters of some class, and none of the parts has such a character.
  Parts that have none and are not empty can be joined by a character of the class, and are
  found again when the join is split (`filter_splitOnP_intercalate`).
-/
import Mathlib.Data.List.Infix

namespace AgentRules

/-! ### Splitting -/

/-- No part of a text that is split at the characters of a class has one of these. -/
theorem not_of_mem_splitOnP {p : Char → Bool} {text part : List Char} (h : part ∈ text.splitOnP p) :
    ∀ c ∈ part, ¬p c := by
  induction text generalizing part with
  | nil =>
    rw [List.splitOnP_nil, List.mem_singleton] at h
    rw [h]
    exact fun c hc => absurd hc List.not_mem_nil
  | cons d cs ih =>
    obtain ⟨first, others, hsplit⟩ := List.exists_cons_of_ne_nil (List.splitOnP_ne_nil p cs)
    rw [List.splitOnP_cons_eq_if_modifyHead, hsplit] at h
    rw [hsplit] at ih
    by_cases hd : p d
    · rw [if_pos hd] at h
      rcases List.mem_cons.mp h with rfl | hmem
      · exact fun c hc => absurd hc List.not_mem_nil
      · exact ih hmem
    · rw [if_neg hd, List.modifyHead_cons] at h
      rcases List.mem_cons.mp h with rfl | hmem
      · have hfirst : ∀ c ∈ first, ¬p c := ih List.mem_cons_self
        exact List.forall_mem_cons.mpr ⟨hd, hfirst⟩
      · exact ih (List.mem_cons_of_mem _ hmem)

/-- No part of a text that is split at a character has this character. -/
theorem notMem_of_mem_splitOn {x : Char} {text part : List Char} (h : part ∈ text.splitOn x) :
    x ∉ part := by
  rw [List.splitOn_eq_splitOnP] at h
  exact fun hx => not_of_mem_splitOnP h x hx (beq_self_eq_true x)

/-! ### Joining -/

theorem mem_intercalate (x : Char) {parts : List (List Char)} {part : List Char}
    (h : part ∈ parts) {c : Char} (hc : c ∈ part) : c ∈ [x].intercalate parts := by
  induction parts with
  | nil => exact absurd h List.not_mem_nil
  | cons p ps ih =>
    cases ps with
    | nil =>
      rw [List.mem_singleton] at h
      rwa [List.intercalate_singleton, ← h]
    | cons q ps =>
      rw [List.intercalate_cons_cons, List.mem_append, List.mem_append]
      rcases List.mem_cons.mp h with rfl | hmem
      · exact .inl (.inl hc)
      · exact .inr (ih hmem)

/-- A join of parts that are not empty and have no separator does not end with one. -/
theorem getLast?_intercalate_ne {x : Char} {parts : List (List Char)}
    (h : ∀ p ∈ parts, p ≠ [] ∧ x ∉ p) : ([x].intercalate parts).getLast? ≠ some x := by
  induction parts with
  | nil => simp
  | cons p ps ih =>
    obtain ⟨⟨hne, hp⟩, hps⟩ := List.forall_mem_cons.mp h
    cases ps with
    | nil =>
      rw [List.intercalate_singleton]
      exact fun hlast => hp (List.mem_of_getLast? hlast)
    | cons q ps =>
      obtain ⟨c, cs, hq⟩ := List.exists_cons_of_ne_nil (hps q List.mem_cons_self).1
      have hc : c ∈ [x].intercalate (q :: ps) :=
        mem_intercalate x List.mem_cons_self (hq ▸ List.mem_cons_self)
      have hlast : ([x].intercalate (q :: ps)).getLast?.isSome :=
        List.getLast?_isSome.mpr (List.ne_nil_of_mem hc)
      rw [List.intercalate_cons_cons, List.getLast?_append, Option.or_of_isSome hlast]
      exact ih hps

/-- **Parts are found again in their join**, if each has a character and none that the text is
    split at. -/
theorem filter_splitOnP_intercalate {p : Char → Bool} {x : Char} (hx : p x)
    {parts : List (List Char)} (h : ∀ part ∈ parts, part ≠ [] ∧ ∀ c ∈ part, ¬p c) :
    (([x].intercalate parts).splitOnP p).filter (· ≠ []) = parts := by
  induction parts with
  | nil => rfl
  | cons part parts ih =>
    obtain ⟨⟨hne, hpart⟩, hparts⟩ := List.forall_mem_cons.mp h
    have hclear : ∀ c ∈ part, p c = false := fun c hc => Bool.eq_false_iff.mpr (hpart c hc)
    have hkeep : ∀ others, (part :: others).filter (· ≠ []) = part :: others.filter (· ≠ []) :=
      fun others => List.filter_cons_of_pos (decide_eq_true hne)
    cases parts with
    | nil =>
      rw [List.intercalate_singleton, List.splitOnP_eq_singleton hclear, hkeep]
      rfl
    | cons next parts =>
      rw [List.intercalate_cons_cons, List.append_assoc, List.singleton_append,
        List.splitOnP_append_cons_of_forall_mem hclear x hx, hkeep, ih hparts]

end AgentRules
