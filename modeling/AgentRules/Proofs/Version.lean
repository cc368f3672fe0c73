/-
  The clean form of a version, from its components.

  The pass over a version keeps a dot or drops it by what it has written so far. Its result
  can be said without that: the text is split at its dots, empty components are left out, and
  the others are joined by single dots (`cleanChars_eq`). The proof follows the components
  through the pass (`dropWhile_foldl_push`).

  So a clean form has no underscore and no empty component. It need not be trimmed, however.
  Trimming comes first, and a blank that stands behind dots at an end of the text comes to
  the end when these are dropped. Where this happens the clean form is not in its own clean
  form, and it happens nowhere else (`clean_canonical`).
-/
import AgentRules.Proofs.Blank
import AgentRules.Proofs.Parts
import AgentRules.Value.Version
import Mathlib.Data.List.Find
import Mathlib.Data.List.TakeWhile

namespace AgentRules

namespace Version

open Text

/-! ### One step of the pass -/

/-- A character that separates components. -/
def isMark (c : Char) : Bool := c == '.' || c == '_'

theorem not_isMark_iff (c : Char) : ¬isMark c ↔ c ≠ '.' ∧ c ≠ '_' := by
  simp [isMark]

theorem readMark_of_isMark {c : Char} (h : isMark c) : readMark c = '.' := by
  unfold readMark
  split
  · rfl
  · next hne => simpa [isMark, hne] using h

theorem readMark_of_not_isMark {c : Char} (h : ¬isMark c) : readMark c = c :=
  if_neg ((not_isMark_iff c).mp h).2

theorem readMark_readMark (c : Char) : readMark (readMark c) = readMark c := by
  by_cases hc : isMark c
  · rw [readMark_of_isMark hc]
    rfl
  · rw [readMark_of_not_isMark hc, readMark_of_not_isMark hc]

/-- Whether a text that is held backwards is empty or ends with a dot. -/
def AtDot (out : List Char) : Prop := out = [] ∨ out.head? = some '.'

theorem push_of_atDot {out : List Char} {c : Char} (h : isMark c) (hout : AtDot out) :
    push out c = out :=
  if_pos ⟨readMark_of_isMark h, hout⟩

theorem push_of_not_atDot {out : List Char} {c : Char} (h : isMark c) (hout : ¬AtDot out) :
    push out c = '.' :: out := by
  rw [push, if_neg fun hboth => hout hboth.2, readMark_of_isMark h]

theorem push_of_not_isMark {c : Char} (h : ¬isMark c) (out : List Char) :
    push out c = c :: out := by
  have hdot : readMark c ≠ '.' := by
    rw [readMark_of_not_isMark h]
    exact ((not_isMark_iff c).mp h).1
  rw [push, if_neg fun hboth => hdot hboth.1, readMark_of_not_isMark h]

/-- A step writes a dot or nothing for a separator, and any other character as it is. Nothing
    is written before the first such character. -/
theorem push_cases (out : List Char) (c : Char) :
    (isMark c ∧ push out c = out) ∨ (isMark c ∧ out ≠ [] ∧ push out c = '.' :: out) ∨
      (¬isMark c ∧ push out c = c :: out) := by
  by_cases hc : isMark c
  · by_cases hout : AtDot out
    · exact .inl ⟨hc, push_of_atDot hc hout⟩
    · exact .inr (.inl ⟨hc, fun hnil => hout (.inl hnil), push_of_not_atDot hc hout⟩)
  · exact .inr (.inr ⟨hc, push_of_not_isMark hc out⟩)

/-! ### What the pass keeps -/

theorem underscore_notMem_foldl_push {out : List Char} (h : '_' ∉ out) (cs : List Char) :
    '_' ∉ cs.foldl push out := by
  induction cs generalizing out with
  | nil => exact h
  | cons c cs ih =>
    apply ih
    obtain ⟨-, hpush⟩ | ⟨-, -, hpush⟩ | ⟨hc, hpush⟩ := push_cases out c
    · rwa [hpush]
    · rw [hpush]
      simpa using h
    · rw [hpush, List.mem_cons, not_or]
      exact ⟨((not_isMark_iff c).mp hc).2.symm, h⟩

theorem length_foldl_push_le (out cs : List Char) :
    (cs.foldl push out).length ≤ out.length + cs.length := by
  induction cs generalizing out with
  | nil => exact Nat.le_refl _
  | cons c cs ih =>
    have hrest := ih (push out c)
    have hstep : (push out c).length ≤ out.length + 1 := by
      obtain ⟨-, hpush⟩ | ⟨-, -, hpush⟩ | ⟨-, hpush⟩ := push_cases out c
      · rw [hpush]
        omega
      · rw [hpush, List.length_cons]
      · rw [hpush, List.length_cons]
    rw [List.foldl_cons, List.length_cons]
    omega

/-- The last character other than separators is the last one of the text. -/
theorem find?_foldl_push (out cs : List Char) :
    (cs.foldl push out).find? (!isMark ·) = (cs.reverse ++ out).find? (!isMark ·) := by
  induction cs generalizing out with
  | nil => rfl
  | cons c cs ih =>
    have hstep : (push out c).find? (!isMark ·) = (c :: out).find? (!isMark ·) := by
      obtain ⟨hc, hpush⟩ | ⟨hc, -, hpush⟩ | ⟨-, hpush⟩ := push_cases out c
      · rw [hpush, List.find?_cons_of_neg (by simp [hc])]
      · rw [hpush, List.find?_cons_of_neg (by simp [isMark]), List.find?_cons_of_neg (by simp [hc])]
      · rw [hpush]
    rw [List.foldl_cons, ih, List.find?_append, hstep, ← List.find?_append, List.reverse_cons,
      List.append_assoc]
    rfl

/-- The first character that is written is the first one other than separators. -/
theorem getLast?_foldl_push (out cs : List Char) :
    (cs.foldl push out).getLast? = out.getLast?.or (cs.find? (!isMark ·)) := by
  induction cs generalizing out with
  | nil => simp
  | cons c cs ih =>
    rw [List.foldl_cons, ih]
    obtain ⟨hc, hpush⟩ | ⟨hc, hne, hpush⟩ | ⟨hc, hpush⟩ := push_cases out c
    · rw [hpush, List.find?_cons_of_neg (by simp [hc])]
    · have hlast : out.getLast?.isSome := List.getLast?_isSome.mpr hne
      have hsame : ('.' :: out).getLast? = out.getLast? := by
        rw [← List.singleton_append, List.getLast?_append, Option.or_of_isSome hlast]
      rw [hpush, hsame, List.find?_cons_of_neg (by simp [hc])]
    · rw [hpush, List.find?_cons_of_pos (by simp [hc]), ← List.singleton_append,
        List.getLast?_append, Option.or_assoc]
      rfl

/-! ### The pass along components -/

/-- The components of a version: what stands between its dots and underscores, unless it is
    empty. -/
def components (cs : List Char) : List (List Char) :=
  ((cs.map fun c => if c = '_' then '.' else c).splitOn '.').filter (· ≠ [])

theorem of_mem_components {cs p : List Char} (h : p ∈ components cs) :
    p ≠ [] ∧ '.' ∉ p := by
  obtain ⟨hmem, hne⟩ := List.mem_filter.mp h
  exact ⟨of_decide_eq_true hne, notMem_of_mem_splitOn hmem⟩

theorem foldl_push_map_readMark (out cs : List Char) :
    (cs.map readMark).foldl push out = cs.foldl push out := by
  have hpush : ∀ out c, push out (readMark c) = push out c := by
    intro out c
    rw [push, push, readMark_readMark]
  rw [List.foldl_map]
  simp only [hpush]

/-- A part without separators is written as it is. -/
theorem foldl_push_of_not_isMark {p : List Char} (h : ∀ c ∈ p, ¬isMark c) (out : List Char) :
    p.foldl push out = p.reverse ++ out := by
  induction p generalizing out with
  | nil => rfl
  | cons c p ih =>
    obtain ⟨hc, hp⟩ := List.forall_mem_cons.mp h
    rw [List.foldl_cons, push_of_not_isMark hc, ih hp, List.reverse_cons, List.append_assoc]
    rfl

/-- **The pass leaves out empty parts.** From a point where no dot would be written, it writes
    the other parts with single dots between them, and at most dots after them. -/
theorem dropWhile_foldl_push {parts : List (List Char)} (h : ∀ p ∈ parts, ∀ c ∈ p, ¬isMark c)
    {out : List Char} (hout : AtDot out) :
    ((['.'].intercalate parts).foldl push out).dropWhile (· == '.') =
      ((['.'].intercalate (parts.filter (· ≠ []))).reverse ++ out).dropWhile (· == '.') := by
  induction parts generalizing out with
  | nil => rfl
  | cons p ps ih =>
    obtain ⟨hp, hps⟩ := List.forall_mem_cons.mp h
    cases ps with
    | nil =>
      rw [List.intercalate_singleton, foldl_push_of_not_isMark hp]
      by_cases hnil : p = []
      · simp [hnil]
      · simp [hnil]
    | cons q ps =>
      rw [List.intercalate_cons_cons, List.append_assoc, List.foldl_append,
        foldl_push_of_not_isMark hp, List.singleton_append, List.foldl_cons]
      by_cases hnil : p = []
      · -- The dot behind an empty part is not written.
        rw [hnil, List.reverse_nil, List.nil_append, push_of_atDot rfl hout, ih hps hout]
        simp
      · have hdot : ¬AtDot (p.reverse ++ out) := by
          rintro (hempty | hhead)
          · simp [hnil] at hempty
          · have hlast : p.getLast?.isSome := List.getLast?_isSome.mpr hnil
            rw [List.head?_append, List.head?_reverse, Option.or_of_isSome hlast] at hhead
            exact hp '.' (List.mem_of_getLast? hhead) rfl
        have hkeep : (p :: q :: ps).filter (· ≠ []) = p :: (q :: ps).filter (· ≠ []) :=
          List.filter_cons_of_pos (by simpa using hnil)
        rw [push_of_not_atDot rfl hdot, ih hps (.inr rfl), hkeep]
        generalize (q :: ps).filter (· ≠ []) = kept
        cases kept with
        | nil => simp
        | cons r rs => simp [List.intercalate_cons_cons]

/-- **The clean form is made of the components of the trimmed text**, joined by single dots. -/
theorem cleanChars_eq (cs : List Char) :
    cleanChars cs = ['.'].intercalate (components (trim cs)) := by
  have hparts : ∀ p ∈ ((trim cs).map readMark).splitOn '.', ∀ c ∈ p, ¬isMark c := by
    intro p hp c hc
    have hmem : c ∈ (trim cs).map readMark := by
      have hjoin := mem_intercalate '.' hp hc
      rwa [List.intercalate_splitOn] at hjoin
    have hdot : c ≠ '.' := fun heq => notMem_of_mem_splitOn hp (heq ▸ hc)
    obtain ⟨d, -, rfl⟩ := List.mem_map.mp hmem
    intro hmark
    rw [← readMark_readMark, readMark_of_isMark hmark] at hdot
    exact hdot rfl
  have hstart : AtDot [] := .inl rfl
  have hpass := dropWhile_foldl_push hparts hstart
  rw [List.intercalate_splitOn, foldl_push_map_readMark, List.append_nil] at hpass
  have hlast : (['.'].intercalate (components (trim cs))).reverse.head? ≠ some '.' := by
    rw [List.head?_reverse]
    exact getLast?_intercalate_ne fun p hp => of_mem_components hp
  rw [cleanChars, hpass]
  exact List.reverse_eq_iff.mpr (List.dropWhile_beq_eq_self_of_head?_ne hlast)

/-- **A clean version is its components joined by single dots.** The text is trimmed, its
    underscores are read as dots, it is split at the dots, and of the parts those that are not
    empty are joined in their order. -/
theorem clean_eq_join (s : String) :
    clean s = String.ofList (['.'].intercalate
      ((((trim s.toList).map fun c => if c = '_' then '.' else c).splitOn '.').filter
        (· ≠ []))) := by
  have hclean : clean s = String.ofList (cleanChars s.toList) := rfl
  rw [hclean, cleanChars_eq, components]

example : clean "._10__15_.7 " = "10.15.7" := by decide +kernel

/-! ### Clean forms -/

theorem underscore_notMem_cleanChars (cs : List Char) : '_' ∉ cleanChars cs := by
  intro h
  rw [cleanChars, List.mem_reverse] at h
  have hmem : '_' ∈ (trim cs).foldl push [] := (List.dropWhile_suffix _).mem h
  exact underscore_notMem_foldl_push List.not_mem_nil _ hmem

theorem length_cleanChars_le (cs : List Char) : (cleanChars cs).length ≤ (trim cs).length := by
  have hfold := length_foldl_push_le [] (trim cs)
  have hdrop := (List.dropWhile_suffix (l := (trim cs).foldl push []) (· == '.')).length_le
  rw [List.length_nil] at hfold
  rw [cleanChars, List.length_reverse]
  omega

/-- Split at its dots, a clean form gives the components that it was made of. -/
theorem splitOn_cleanChars {cs : List Char} (h : components (trim cs) ≠ []) :
    (cleanChars cs).splitOn '.' = components (trim cs) := by
  rw [cleanChars_eq]
  exact List.splitOn_intercalate '.' (fun p hp => (of_mem_components hp).2) h

/-- A clean form has the components of the text that it was made from. -/
theorem components_cleanChars (cs : List Char) :
    components (cleanChars cs) = components (trim cs) := by
  have hmap : ((cleanChars cs).map fun c => if c = '_' then '.' else c) = cleanChars cs := by
    have hread : ∀ c ∈ cleanChars cs, (if c = '_' then '.' else c) = id c := by
      intro c hc
      have hne : c ≠ '_' := fun heq => underscore_notMem_cleanChars cs (heq ▸ hc)
      exact if_neg hne
    rw [List.map_congr_left hread, List.map_id]
  rw [components, hmap]
  by_cases hnil : components (trim cs) = []
  · rw [cleanChars_eq, hnil]
    rfl
  · rw [splitOn_cleanChars hnil]
    exact List.filter_eq_self.mpr fun p hp => decide_eq_true (of_mem_components hp).1

/-- What is dropped at the front leaves the end as it is, unless all is dropped. -/
theorem getLast?_dropWhile {p : Char → Bool} {cs : List Char} {c : Char}
    (h : cs.getLast? = some c) (hc : ¬p c) : (cs.dropWhile p).getLast? = some c := by
  have hne : cs.dropWhile p ≠ [] := by
    rw [Ne, List.dropWhile_eq_nil_iff]
    exact fun hall => hc (hall c (List.mem_of_getLast? h))
  rw [← List.takeWhile_append_dropWhile (p := p) (l := cs), List.getLast?_append,
    Option.or_of_isSome (List.getLast?_isSome.mpr hne)] at h
  exact h

/-- A clean form starts with the first character other than separators. -/
theorem head?_cleanChars (cs : List Char) :
    (cleanChars cs).head? = (trim cs).find? (!isMark ·) := by
  have hlast : ((trim cs).foldl push []).getLast? = (trim cs).find? (!isMark ·) := by
    rw [getLast?_foldl_push, List.getLast?_nil, Option.none_or]
  rw [cleanChars, List.head?_reverse, ← hlast]
  cases hfound : ((trim cs).foldl push []).getLast? with
  | none =>
    rw [List.getLast?_eq_none_iff.mp hfound]
    rfl
  | some c =>
    have hmark := List.find?_some (hlast.symm.trans hfound)
    refine getLast?_dropWhile hfound fun hdot => ?_
    rw [beq_iff_eq.mp hdot] at hmark
    exact absurd hmark (by decide)

/-- A clean form ends with the last character other than separators. -/
theorem getLast?_cleanChars (cs : List Char) :
    (cleanChars cs).getLast? = (trim cs).reverse.find? (!isMark ·) := by
  have hdot : ∀ c ∈ (trim cs).foldl push [], (!(c == '.')) = (!isMark c) := by
    intro c hc
    have hne : c ≠ '_' := fun heq =>
      underscore_notMem_foldl_push List.not_mem_nil (trim cs) (heq ▸ hc)
    simp [isMark, hne]
  rw [cleanChars, List.getLast?_reverse, ← List.find?_not_eq_head?_dropWhile,
    List.find?_congr hdot, find?_foldl_push, List.append_nil]

/-- Whether a blank stands first or last in a text but for dots and underscores. -/
def BlankBehindMarks (cs : List Char) : Prop :=
  ∃ c, isBlank c ∧ (cs.find? (!isMark ·) = some c ∨ cs.reverse.find? (!isMark ·) = some c)

theorem trim_cleanChars_iff (cs : List Char) :
    trim (cleanChars cs) = cleanChars cs ↔ ¬BlankBehindMarks (trim cs) := by
  rw [trim_eq_self_iff, head?_cleanChars, getLast?_cleanChars]
  constructor
  · rintro ⟨hfirst, hlast⟩ ⟨c, hblank, hc | hc⟩
    · exact hfirst c hc hblank
    · exact hlast c hc hblank
  · intro h
    exact ⟨fun c hc hblank => h ⟨c, hblank, .inl hc⟩, fun c hc hblank => h ⟨c, hblank, .inr hc⟩⟩

/-- Only trimming can change a clean form. -/
theorem cleanChars_cleanChars_iff (cs : List Char) :
    cleanChars (cleanChars cs) = cleanChars cs ↔ trim (cleanChars cs) = cleanChars cs := by
  constructor
  · intro h
    -- A character that is trimmed off would be missing in the end.
    have hlength : (cleanChars cs).length ≤ (trim (cleanChars cs)).length := by
      have hle := length_cleanChars_le (cleanChars cs)
      rwa [h] at hle
    exact (trim_isInfix (cleanChars cs)).eq_of_length_le hlength
  · intro h
    rw [cleanChars_eq, h, components_cleanChars, ← cleanChars_eq]

/-- **What a clean version is.** It has no underscore, and unless it is empty none of its
    components is. It is its own clean form exactly if it is trimmed, and this is so exactly if
    no blank stands behind the dots and underscores at an end of the trimmed text. -/
theorem clean_canonical (s : String) :
    '_' ∉ (clean s).toList ∧
      (clean s ≠ "" → [] ∉ (clean s).toList.splitOn '.') ∧
      (clean (clean s) = clean s ↔ trim (clean s).toList = (clean s).toList) ∧
      (trim (clean s).toList = (clean s).toList ↔ ¬BlankBehindMarks (trim s.toList)) := by
  have hchars : ∀ s, (clean s).toList = cleanChars s.toList := fun _ => String.toList_ofList
  refine ⟨?_, fun hne => ?_, ?_, ?_⟩
  · rw [hchars]
    exact underscore_notMem_cleanChars s.toList
  · have hcomponents : components (trim s.toList) ≠ [] := by
      intro hnil
      apply hne
      rw [← String.toList_inj, hchars, cleanChars_eq, hnil]
      rfl
    rw [hchars, splitOn_cleanChars hcomponents]
    exact fun hmem => (of_mem_components hmem).1 rfl
  · rw [← String.toList_inj, hchars, hchars]
    exact cleanChars_cleanChars_iff s.toList
  · rw [hchars]
    exact trim_cleanChars_iff s.toList

/-- A blank behind a dot is left at the front of the clean form, and is trimmed off when this is
    cleaned once more. -/
theorem clean_keeps_blank :
    (clean ". 5").toList = [' ', '5'] ∧ clean (clean ". 5") = "5" := by
  decide +kernel

end Version

end AgentRules
