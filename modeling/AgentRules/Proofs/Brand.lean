/-
  Brand names that are spelled already.

  A name that is spelled in the one way is not always spelled that way again. A letter such as
  `ß` turns into several characters, and these are taken for letters of their own the next
  time: an acronym may have become too long for one, and only the first of two capitals starts
  the word.

  A spelled name is trimmed (`trim_normalizeChars`), so that only its letters matter. It keeps
  its spelling exactly if it is short enough for an acronym or its words are capitalized
  (`normalizeChars_normalizeChars_iff`). A name that does not grow when it is spelled keeps its
  spelling in any case, since each letter then turns into a single character that is its own
  form (`capitalizeFrom_capitalizeFrom_of_length`).
-/
import AgentRules.Proofs.Blank
import AgentRules.Proofs.LetterForms
import AgentRules.Value.Brand

namespace AgentRules

namespace Text

/-- A text that starts and ends with parts that are not empty and have no blanks is trimmed. -/
theorem trim_eq_self_of_ends {cs front back rest rest' : List Char} (hfront : cs = front ++ rest)
    (hback : cs = rest' ++ back) (hne : front ≠ []) (hne' : back ≠ [])
    (h : ∀ c ∈ front, ¬isBlank c) (h' : ∀ c ∈ back, ¬isBlank c) : trim cs = cs := by
  rw [trim_eq_self_iff]
  constructor
  · intro c hc
    rw [hfront, List.head?_append_of_ne_nil front hne] at hc
    exact h c (List.mem_of_mem_head? hc)
  · intro c hc
    rw [hback, List.getLast?_append_of_ne_nil rest' hne'] at hc
    exact h' c (List.mem_of_mem_getLast? hc)

theorem toCapital_toCapital (cs : List Char) : toCapital (toCapital cs) = toCapital cs := by
  have hself : ∀ c ∈ toCapital cs, capitalForm c = [c] := by
    intro c hc
    obtain ⟨d, -, hmem⟩ := List.mem_flatMap.mp hc
    exact final_capital.mapLetter_of_mem hmem
  rw [toCapital, List.flatMap_congr hself]
  simp

end Text

namespace Brand

open Text

/-! ### Letters in their places -/

/-- The form of a letter: capital where it starts a word, and small otherwise. -/
def letterForm (atStart : Bool) (c : Char) : List Char :=
  if atStart then capitalForm c else smallForm c

section Letter

variable {atStart : Bool} {c d : Char}

theorem letterForm_ne_nil (atStart : Bool) (c : Char) : letterForm atStart c ≠ [] := by
  cases atStart with
  | false => exact final_small.mapLetter_ne_nil c
  | true => exact final_capital.mapLetter_ne_nil c

theorem letterForm_of_mem (h : d ∈ letterForm atStart c) : letterForm atStart d = [d] := by
  cases atStart with
  | false => exact final_small.mapLetter_of_mem h
  | true => exact final_capital.mapLetter_of_mem h

theorem isBlank_of_mem_letterForm (hc : ¬isBlank c) (h : d ∈ letterForm atStart c) :
    ¬isBlank d := by
  cases atStart with
  | false => exact final_small.isBlank_of_mem hc h
  | true => exact final_capital.isBlank_of_mem hc h

theorem isAlphanumeric_of_letterForm (hc : isAlphanumeric c) (h : letterForm atStart c = [d]) :
    isAlphanumeric d := by
  cases atStart with
  | false => exact final_small.isAlphanumeric_of_eq_singleton hc h
  | true => exact final_capital.isAlphanumeric_of_eq_singleton hc h

theorem length_letterForm_pos (atStart : Bool) (c : Char) : 0 < (letterForm atStart c).length :=
  List.length_pos_of_ne_nil (letterForm_ne_nil atStart c)

end Letter

/-! ### Words with capitals -/

theorem capitalizeFrom_of_alphanumeric {c : Char} (hc : isAlphanumeric c) (atStart : Bool)
    (cs : List Char) :
    capitalizeFrom atStart (c :: cs) = letterForm atStart c ++ capitalizeFrom false cs := by
  rw [capitalizeFrom, if_pos hc, letterForm]

theorem capitalizeFrom_of_not_alphanumeric {c : Char} (hc : ¬isAlphanumeric c) (atStart : Bool)
    (cs : List Char) : capitalizeFrom atStart (c :: cs) = c :: capitalizeFrom true cs := by
  rw [capitalizeFrom, if_neg hc]

/-- Whether a letter behind a text starts a word. -/
def startsWord (before : List Char) : Bool := !before.getLast?.any isAlphanumeric

theorem startsWord_concat (before : List Char) (c : Char) :
    startsWord (before ++ [c]) = !isAlphanumeric c := by
  simp [startsWord]

/-- Whether the words of a text are capitalized: each letter that starts a word is its own
    capital form, and each other letter is its own small form. -/
def Capitalized (text : List Char) : Prop :=
  ∀ front c back, text = front ++ c :: back → isAlphanumeric c →
    letterForm (startsWord front) c = [c]

theorem capitalizeFrom_append (before cs cs' : List Char) :
    capitalizeFrom (startsWord before) (cs ++ cs') =
      capitalizeFrom (startsWord before) cs ++ capitalizeFrom (startsWord (before ++ cs)) cs' := by
  induction cs generalizing before with
  | nil => rw [List.append_nil]; rfl
  | cons c cs ih =>
    have hrest := ih (before ++ [c])
    rw [startsWord_concat, List.append_assoc, List.singleton_append] at hrest
    rw [List.cons_append]
    by_cases hc : isAlphanumeric c
    · rw [hc, Bool.not_true] at hrest
      rw [capitalizeFrom_of_alphanumeric hc, capitalizeFrom_of_alphanumeric hc, hrest,
        List.append_assoc]
    · rw [Bool.eq_false_iff.mpr hc, Bool.not_false] at hrest
      rw [capitalizeFrom_of_not_alphanumeric hc, capitalizeFrom_of_not_alphanumeric hc, hrest,
        List.cons_append]

theorem length_le_length_capitalizeFrom (atStart : Bool) (cs : List Char) :
    cs.length ≤ (capitalizeFrom atStart cs).length := by
  induction cs generalizing atStart with
  | nil => exact Nat.le_refl _
  | cons c cs ih =>
    by_cases hc : isAlphanumeric c
    · have hform := length_letterForm_pos atStart c
      have hrest := ih false
      rw [capitalizeFrom_of_alphanumeric hc, List.length_append, List.length_cons]
      omega
    · have hrest := ih true
      rw [capitalizeFrom_of_not_alphanumeric hc, List.length_cons, List.length_cons]
      omega

/-- A letter whose form has one character is spelled as this form, and the rest does not grow
    either, if the text as a whole does not. -/
theorem exists_letterForm_eq_singleton {atStart : Bool} {c : Char} {cs : List Char}
    (hc : isAlphanumeric c)
    (h : (capitalizeFrom atStart (c :: cs)).length = (c :: cs).length) :
    (∃ d, letterForm atStart c = [d]) ∧ (capitalizeFrom false cs).length = cs.length := by
  have hform := length_letterForm_pos atStart c
  have hrest := length_le_length_capitalizeFrom false cs
  rw [capitalizeFrom_of_alphanumeric hc, List.length_append, List.length_cons] at h
  constructor
  · rw [← List.length_eq_one_iff]
    omega
  · omega

/-- **A text that does not grow keeps its capitals.** -/
theorem capitalizeFrom_capitalizeFrom_of_length {atStart : Bool} {cs : List Char}
    (h : (capitalizeFrom atStart cs).length = cs.length) :
    capitalizeFrom atStart (capitalizeFrom atStart cs) = capitalizeFrom atStart cs := by
  induction cs generalizing atStart with
  | nil => rfl
  | cons c cs ih =>
    by_cases hc : isAlphanumeric c
    · obtain ⟨⟨d, hform⟩, hrest⟩ := exists_letterForm_eq_singleton hc h
      have hd : isAlphanumeric d := isAlphanumeric_of_letterForm hc hform
      have hself : letterForm atStart d = [d] :=
        letterForm_of_mem (hform ▸ List.mem_singleton_self d)
      rw [capitalizeFrom_of_alphanumeric hc, hform, List.singleton_append,
        capitalizeFrom_of_alphanumeric hd, hself, ih hrest]
      rfl
    · rw [capitalizeFrom_of_not_alphanumeric hc, List.length_cons, List.length_cons,
        Nat.add_right_cancel_iff] at h
      rw [capitalizeFrom_of_not_alphanumeric hc, capitalizeFrom_of_not_alphanumeric hc, ih h]

/-- What holds of every place in a text holds of the first one and of all others. -/
theorem forall_place_cons {P : List Char → Char → Prop} (c : Char) (cs : List Char) :
    (∀ front d back, c :: cs = front ++ d :: back → P front d) ↔
      P [] c ∧ ∀ front d back, cs = front ++ d :: back → P (c :: front) d := by
  constructor
  · intro h
    exact ⟨h [] c cs rfl, fun front d back heq => h (c :: front) d back (by rw [heq]; rfl)⟩
  · rintro ⟨hfirst, hrest⟩ front d back heq
    cases front with
    | nil =>
      obtain ⟨rfl, -⟩ := List.cons.inj heq
      exact hfirst
    | cons b front =>
      obtain ⟨rfl, hcs⟩ := List.cons.inj heq
      exact hrest front d back hcs

/-- Behind another text, giving capitals changes nothing exactly if each letter has the form
    that belongs to its place. -/
theorem capitalizeFrom_eq_self_iff (before text : List Char) :
    capitalizeFrom (startsWord before) text = text ↔
      ∀ front c back, text = front ++ c :: back → isAlphanumeric c →
        letterForm (startsWord (before ++ front)) c = [c] := by
  induction text generalizing before with
  | nil => simp [capitalizeFrom]
  | cons c cs ih =>
    have hrest := ih (before ++ [c])
    simp only [startsWord_concat, List.append_assoc, List.singleton_append] at hrest
    rw [forall_place_cons (P := fun front d =>
      isAlphanumeric d → letterForm (startsWord (before ++ front)) d = [d]), List.append_nil,
      ← hrest]
    by_cases hc : isAlphanumeric c
    · rw [capitalizeFrom_of_alphanumeric hc, hc, Bool.not_true]
      constructor
      · intro h
        have hlength := congrArg List.length h
        rw [← capitalizeFrom_of_alphanumeric hc] at hlength
        obtain ⟨⟨d, hform⟩, -⟩ := exists_letterForm_eq_singleton hc hlength
        rw [hform, List.singleton_append] at h
        obtain ⟨rfl, hcs⟩ := List.cons.inj h
        exact ⟨fun _ => hform, hcs⟩
      · rintro ⟨hform, hcs⟩
        rw [hform rfl, hcs]
        rfl
    · rw [capitalizeFrom_of_not_alphanumeric hc, Bool.eq_false_iff.mpr hc, Bool.not_false]
      simp

theorem capitalizeFrom_eq_self_iff_capitalized (text : List Char) :
    capitalizeFrom true text = text ↔ Capitalized text :=
  capitalizeFrom_eq_self_iff [] text

/-! ### Spelled names -/

/-- A character other than a blank is spelled by some characters, none of which is a blank. -/
theorem capitalizeFrom_singleton {c : Char} (hc : ¬isBlank c) (atStart : Bool) :
    capitalizeFrom atStart [c] ≠ [] ∧ ∀ d ∈ capitalizeFrom atStart [c], ¬isBlank d := by
  by_cases halpha : isAlphanumeric c
  · have hform : capitalizeFrom atStart [c] = letterForm atStart c := by
      rw [capitalizeFrom_of_alphanumeric halpha]
      exact List.append_nil _
    rw [hform]
    exact ⟨letterForm_ne_nil atStart c, fun d hd => isBlank_of_mem_letterForm hc hd⟩
  · rw [capitalizeFrom_of_not_alphanumeric halpha]
    simpa [capitalizeFrom] using hc

/-- **A spelled name is trimmed.** -/
theorem trim_normalizeChars (cs : List Char) : trim (normalizeChars cs) = normalizeChars cs := by
  have hname : trim (trim cs) = trim cs := trim_trim cs
  rw [normalizeChars]
  generalize trim cs = name at hname ⊢
  rw [trim_eq_self_iff] at hname
  obtain ⟨hfirst, hlast⟩ := hname
  rcases List.eq_nil_or_concat name with rfl | ⟨front, d, hconcat⟩
  · rfl
  · rw [List.concat_eq_append] at hconcat
    obtain ⟨c, rest, hcons⟩ := List.exists_cons_of_ne_nil (by simp [hconcat] : name ≠ [])
    have hc : ¬isBlank c := hfirst c (by rw [hcons]; rfl)
    have hd : ¬isBlank d := hlast d (by rw [hconcat, List.getLast?_concat])
    split
    · have hfront : toCapital name = capitalForm c ++ toCapital rest := by
        rw [hcons]
        rfl
      have hback : toCapital name = toCapital front ++ capitalForm d := by
        rw [hconcat, toCapital, List.flatMap_append, List.flatMap_singleton]
        rfl
      exact trim_eq_self_of_ends hfront hback (final_capital.mapLetter_ne_nil c)
        (final_capital.mapLetter_ne_nil d) (fun e he => final_capital.isBlank_of_mem hc he)
        (fun e he => final_capital.isBlank_of_mem hd he)
    · obtain ⟨hne, hblank⟩ := capitalizeFrom_singleton hc true
      obtain ⟨hne', hblank'⟩ := capitalizeFrom_singleton hd (startsWord front)
      have hfront := capitalizeFrom_append [] [c] rest
      have hback := capitalizeFrom_append [] front [d]
      rw [List.singleton_append, ← hcons] at hfront
      rw [← hconcat] at hback
      exact trim_eq_self_of_ends hfront hback hne hne' hblank hblank'

/-- **Which spelled names keep their spelling.** Either the name is an acronym, or its words are
    capitalized. -/
theorem normalizeChars_normalizeChars_iff (cs : List Char) :
    normalizeChars (normalizeChars cs) = normalizeChars cs ↔
      (normalizeChars cs).length ≤ acronymLength ∨ Capitalized (normalizeChars cs) := by
  have htrim := trim_normalizeChars cs
  have hagain : normalizeChars (normalizeChars cs) =
      if (normalizeChars cs).length ≤ acronymLength then toCapital (normalizeChars cs)
      else capitalizeFrom true (normalizeChars cs) := by
    rw [normalizeChars, htrim]
  rw [hagain]
  by_cases hshort : (normalizeChars cs).length ≤ acronymLength
  · rw [if_pos hshort]
    -- A long name does not get shorter, so the name itself was short.
    have hname : normalizeChars cs = toCapital (trim cs) := by
      have hlength := length_le_length_capitalizeFrom true (trim cs)
      rw [normalizeChars] at hshort ⊢
      split at hshort
      · next h => rw [if_pos h]
      · next h => omega
    rw [hname, toCapital_toCapital]
    simp [← hname, hshort]
  · rw [if_neg hshort, capitalizeFrom_eq_self_iff_capitalized]
    simp [hshort]

/-- **When a name that is spelled stays as it is.** It does so exactly if it has at most as many
    characters as an acronym or its words are capitalized. This is the case for every name
    that does not grow when it is spelled. -/
theorem normalize_stable_iff (s : String) :
    (normalize (normalize s) = normalize s ↔
        (normalize s).length ≤ acronymLength ∨ Capitalized (normalize s).toList) ∧
      ((normalize s).length = (trim s.toList).length → normalize (normalize s) = normalize s) := by
  have hchars : ∀ s, (normalize s).toList = normalizeChars s.toList := fun _ => String.toList_ofList
  have hiff : normalize (normalize s) = normalize s ↔
      (normalizeChars s.toList).length ≤ acronymLength ∨ Capitalized (normalizeChars s.toList) := by
    rw [← String.toList_inj, hchars, hchars, normalizeChars_normalizeChars_iff]
  rw [← String.length_toList, hchars]
  refine ⟨hiff, fun hlength => hiff.mpr ?_⟩
  rw [normalizeChars] at hlength ⊢
  split at hlength
  · next hshort =>
    left
    rw [if_pos hshort, hlength]
    exact hshort
  · next hlong =>
    right
    rw [if_neg hlong, ← capitalizeFrom_eq_self_iff_capitalized]
    exact capitalizeFrom_capitalizeFrom_of_length hlength

/-- Three letters that each turn into two are no acronym any more. -/
theorem normalize_grows :
    normalize "ßßß" = "SSSSSS" ∧ normalize (normalize "ßßß") = "Ssssss" := by
  decide +kernel

end Brand

end AgentRules
