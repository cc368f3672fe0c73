/-
  What a range takes out of the words of a text.

  A range takes the words from one place to another. Either place is counted from the front or
  from the end, and a place that no word has makes the range give nothing
  (`resolve?_eq_some_iff`). Otherwise it gives the words of a stretch, joined by single spaces
  (`extractChars_eq_some_iff`). When the join is split again the same words come out, since no
  word has a blank.
-/
import AgentRules.Proofs.Parts
import AgentRules.Range.Word

namespace AgentRules

open Text

namespace WordRange

/-! ### Places of words -/

/-- The place that a number means among so many words. A number below zero counts from the end.
    There need be no word at this place. -/
def place (count : Nat) (i : Int) : Int := if i < 0 then count + i else i

/-- The place of the last word that a range takes among so many. -/
def lastPlace (r : WordRange) (count : Nat) : Int :=
  match r.last with
  | some last => place count last
  | none => count - 1

/-- **A number addresses a word exactly if there is one at its place.** -/
theorem resolve?_eq_some_iff {i : Int} {count p : Nat} :
    resolve? i count = some p ↔ place count i = p ∧ p < count := by
  have hresolve : resolve? i count =
      if 0 ≤ place count i ∧ place count i < count then some (place count i).toNat else none := rfl
  rw [hresolve]
  constructor
  · intro h
    split at h
    · next hwithin =>
      cases h
      omega
    · cases h
  · rintro ⟨hplace, hlt⟩
    rw [hplace, if_pos (by omega), Int.toNat_natCast]

theorem place_last (r : WordRange) (count : Nat) :
    place count (r.last.getD (-1)) = r.lastPlace count := by
  rw [lastPlace]
  cases r.last with
  | some last => rfl
  | none =>
    rw [Option.getD_none, place, if_pos (by decide)]
    rfl

/-! ### Stretches of words -/

/-- **A range gives the words between its places**, if there are words at both and the first is
    not behind the last. -/
theorem extractChars_eq_some_iff {r : WordRange} {cs text : List Char} :
    r.extractChars cs = some text ↔
      ∃ first last : Nat, place (words cs).length r.first = first ∧
        r.lastPlace (words cs).length = last ∧ first ≤ last ∧ last < (words cs).length ∧
        joinWords (((words cs).drop first).take (last + 1 - first)) = text := by
  have hextract : r.extractChars cs = some text ↔
      ∃ first, resolve? r.first (words cs).length = some first ∧
        ∃ last, resolve? (r.last.getD (-1)) (words cs).length = some last ∧
          (if last < first then none
            else some (joinWords (((words cs).drop first).take (last + 1 - first)))) =
              some text := by
    simp only [extractChars, Option.bind_eq_bind, Option.bind_eq_some_iff]
  rw [hextract]
  simp only [resolve?_eq_some_iff, place_last]
  constructor
  · rintro ⟨first, ⟨hfirst, -⟩, last, ⟨hlast, hlt⟩, h⟩
    split at h
    · cases h
    · next hle => exact ⟨first, last, hfirst, hlast, Nat.le_of_not_lt hle, hlt, Option.some.inj h⟩
  · rintro ⟨first, last, hfirst, hlast, hle, hlt, rfl⟩
    refine ⟨first, ⟨hfirst, Nat.lt_of_le_of_lt hle hlt⟩, last, ⟨hlast, hlt⟩, ?_⟩
    rw [if_neg (Nat.not_lt.mpr hle)]

/-- A stretch of a list, from one place to another, and what stands around it. -/
theorem exists_stretch {α : Type} {as : List α} {i j : Nat} (hij : i ≤ j) (hj : j < as.length) :
    ∃ before after, as = before ++ (as.drop i).take (j + 1 - i) ++ after ∧ before.length = i ∧
      ((as.drop i).take (j + 1 - i)).length = j + 1 - i := by
  refine ⟨as.take i, (as.drop i).drop (j + 1 - i), ?_, ?_, ?_⟩
  · rw [List.append_assoc, List.take_append_drop, List.take_append_drop]
  · rw [List.length_take]
    omega
  · rw [List.length_take, List.length_drop]
    omega

/-- Some of the words of a text are the words of their join. -/
theorem words_joinWords {cs : List Char} {taken : List (List Char)}
    (h : ∀ w ∈ taken, w ∈ words cs) : words (joinWords taken) = taken := by
  apply filter_splitOnP_intercalate rfl
  intro w hw
  obtain ⟨hmem, hne⟩ := List.mem_filter.mp (h w hw)
  exact ⟨of_decide_eq_true hne, not_of_mem_splitOnP hmem⟩

/-- **What a range takes out of a value.** The words of the value are the parts between its
    blanks that are not empty. A number finds a word exactly if there is one at its place, so
    both ends of what is taken lie among the words. The range gives nothing unless there are
    words at both of its places and the first is not behind the last. Otherwise it gives the
    words in between, which are found again when the result is split. -/
theorem extract_exact (r : WordRange) (s : String) :
    let ws := (s.toList.splitOnP isBlank).filter (· ≠ [])
    let first := place ws.length r.first
    let last := r.lastPlace ws.length
    (∀ i p, resolve? i ws.length = some p ↔ place ws.length i = p ∧ p < ws.length) ∧
      (r.extract s = none ∧ ¬(0 ≤ first ∧ first ≤ last ∧ last < ws.length) ∨
        ∃ before taken after, ws = before ++ taken ++ after ∧
          first = before.length ∧ last + 1 = before.length + taken.length ∧ taken ≠ [] ∧
          r.extract s = some (String.ofList ([' '].intercalate taken)) ∧
          (([' '].intercalate taken).splitOnP isBlank).filter (· ≠ []) = taken) := by
  intro ws first last
  have hextract : r.extract s = (r.extractChars s.toList).map String.ofList := rfl
  refine ⟨fun i p => resolve?_eq_some_iff, ?_⟩
  rw [hextract]
  cases htext : r.extractChars s.toList with
  | none =>
    left
    refine ⟨rfl, ?_⟩
    rintro ⟨hpos, hle, hlt⟩
    obtain ⟨i, hi⟩ := Int.eq_ofNat_of_zero_le hpos
    obtain ⟨j, hj⟩ := Int.eq_ofNat_of_zero_le (Int.le_trans hpos hle)
    have hij : i ≤ j := by omega
    have hcount : j < (words s.toList).length := by
      have hint : (j : Int) < ws.length := hj ▸ hlt
      exact Int.ofNat_lt.mp hint
    have hsome := extractChars_eq_some_iff.mpr ⟨i, j, hi, hj, hij, hcount, rfl⟩
    rw [htext] at hsome
    cases hsome
  | some text =>
    right
    obtain ⟨i, j, hi, hj, hij, hlt, rfl⟩ := extractChars_eq_some_iff.mp htext
    obtain ⟨before, after, hsplit, hbefore, htaken⟩ := exists_stretch hij hlt
    refine ⟨before, _, after, hsplit, ?_, ?_, ?_, rfl, ?_⟩
    · rw [hbefore]
      exact hi
    · rw [hbefore, htaken]
      have hlast : last = j := hj
      omega
    · rw [← List.length_pos_iff, htaken]
      omega
    · apply words_joinWords
      intro w hw
      exact List.mem_of_mem_drop (List.mem_of_mem_take hw)

example : extract ⟨1, some (-1)⟩ " Linux\tx86_64  6.1 " = some "x86_64 6.1" := by decide +kernel

end WordRange

end AgentRules
