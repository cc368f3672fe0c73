/-
  Reading what tokens spell.

  A text that spells tokens is read token by token. Each reader for a smallest part gives
  back what the token was made from, and hands over exactly where the token ends. A name
  ends where no further character of a name follows; all other tokens end by themselves.
-/
import AgentRules.Expr.Grammar
import AgentRules.Expr.WellFormed
import AgentRules.Proofs.Blank

namespace AgentRules

namespace Text

/-! ### Marks and lengths -/

theorem splitAtMark_append {mark : Char} {text : List Char} (h : mark ∉ text)
    (rest : List Char) : splitAtMark mark (text ++ mark :: rest) = some (text, rest) := by
  induction text with
  | nil => simp [splitAtMark]
  | cons c cs ih =>
    rw [List.mem_cons, not_or] at h
    rw [List.cons_append, splitAtMark, if_neg (Ne.symm h.1), ih h.2]
    rfl

theorem splitAtMark_eq_some {mark : Char} {cs front back : List Char}
    (h : splitAtMark mark cs = some (front, back)) : cs = front ++ mark :: back := by
  induction cs generalizing front with
  | nil => cases h
  | cons c cs ih =>
    rw [splitAtMark] at h
    split at h
    · next hc =>
      cases h
      rw [hc]
      rfl
    · obtain ⟨⟨before, after⟩, hsplit, heq⟩ := Option.map_eq_some_iff.mp h
      cases heq
      rw [ih hsplit]
      rfl

/-- Two texts that are the same are the same before the first mark, and behind it. -/
theorem append_mark_inj {mark : Char} {as bs x y : List Char} (ha : mark ∉ as) (hb : mark ∉ bs)
    (h : as ++ mark :: x = bs ++ mark :: y) : as = bs ∧ x = y := by
  have hsplit := splitAtMark_append ha x
  rw [h, splitAtMark_append hb y] at hsplit
  obtain ⟨hbefore, hbehind⟩ := Prod.mk.inj (Option.some.inj hsplit)
  exact ⟨hbefore.symm, hbehind.symm⟩

theorem splitAtMark_eq_none {mark : Char} {text : List Char} (h : mark ∉ text) :
    splitAtMark mark text = none := by
  induction text with
  | nil => rfl
  | cons c cs ih =>
    rw [List.mem_cons, not_or] at h
    rw [splitAtMark, if_neg (Ne.symm h.1), ih h.2]
    rfl

@[simp] theorem byteLength_nil : byteLength [] = 0 := rfl

@[simp] theorem byteLength_cons (c : Char) (cs : List Char) :
    byteLength (c :: cs) = c.utf8Size + byteLength cs := rfl

@[simp] theorem byteLength_append (cs ds : List Char) :
    byteLength (cs ++ ds) = byteLength cs + byteLength ds := by
  induction cs with
  | nil => simp
  | cons c cs ih => simp [ih, Nat.add_assoc]

theorem byteLength_toList (s : String) : byteLength s.toList = s.utf8ByteSize := by
  have hlength (cs : List Char) : byteLength cs = (String.ofList cs).utf8ByteSize := by
    induction cs with
    | nil => rfl
    | cons c cs ih =>
      rw [String.ofList_cons, String.utf8ByteSize_append, String.utf8ByteSize_singleton, ← ih]
      rfl
  rw [hlength, String.ofList_toList]

end Text

open Text

/-! ### Spelling -/

/-- The first token is spelled first, and the others from where it ends. -/
theorem spells_cons {t : Token} {ts : List Token} {cs rest : List Char} :
    Spells (t :: ts) cs rest ↔ ∃ mid, Spells [t] cs mid ∧ Spells ts mid rest := by
  constructor
  · rintro ⟨blanks, mid, hblanks, rfl, h⟩
    exact ⟨mid, ⟨blanks, mid, hblanks, rfl, rfl⟩, h⟩
  · rintro ⟨mid, ⟨blanks, _, hblanks, rfl, rfl⟩, h⟩
    exact ⟨blanks, _, hblanks, rfl, h⟩

theorem spells_append {ts ts' : List Token} {cs rest : List Char} :
    Spells (ts ++ ts') cs rest ↔ ∃ mid, Spells ts cs mid ∧ Spells ts' mid rest := by
  induction ts generalizing cs with
  | nil => simp [Spells]
  | cons t ts ih =>
    rw [List.cons_append, spells_cons]
    constructor
    · rintro ⟨first, ht, h⟩
      obtain ⟨mid, hts, hts'⟩ := ih.mp h
      exact ⟨mid, spells_cons.mpr ⟨first, ht, hts⟩, hts'⟩
    · rintro ⟨mid, h, hts'⟩
      obtain ⟨first, ht, hts⟩ := spells_cons.mp h
      exact ⟨first, ht, ih.mpr ⟨mid, hts, hts'⟩⟩

/-- Tokens that are spelled before a rest are spelled by the same text before any other. -/
theorem Spells.split {ts : List Token} {cs rest : List Char} (h : Spells ts cs rest) :
    ∃ text, cs = text ++ rest ∧ (∀ c ∈ text, isBlank c ∨ ∃ t ∈ ts, c ∈ t.chars) ∧
      ∀ other, Spells ts (text ++ other) other := by
  induction ts generalizing cs with
  | nil => exact ⟨[], h, by simp, fun other => rfl⟩
  | cons t ts ih =>
    obtain ⟨blanks, after, hblanks, rfl, h⟩ := h
    obtain ⟨text, rfl, hmem, htext⟩ := ih h
    refine ⟨blanks ++ (t.chars ++ text), by simp, fun c hc => ?_,
      fun other => ⟨blanks, text ++ other, hblanks, by simp, htext other⟩⟩
    rw [List.mem_append, List.mem_append] at hc
    obtain hc | hc | hc := hc
    · exact .inl (hblanks c hc)
    · exact .inr ⟨t, List.mem_cons_self, hc⟩
    · exact (hmem c hc).imp_right fun ⟨u, hu, hcu⟩ => ⟨u, List.mem_cons_of_mem t hu, hcu⟩

/-- Tokens are spelled by their characters in a row, each after its own blanks. -/
theorem spells_flatMap {pieces : List (List Char × Token)}
    (h : pieces.all fun p => p.1.all isBlank) (rest : List Char) :
    Spells (pieces.map Prod.snd) (pieces.flatMap (fun p => p.1 ++ p.2.chars) ++ rest) rest := by
  induction pieces with
  | nil => rfl
  | cons p pieces ih =>
    rw [List.all_cons, Bool.and_eq_true] at h
    exact ⟨p.1, _, List.all_eq_true.mp h.1, by simp, ih h.2⟩

/-- The blanks before a token are skipped if the token itself does not start with one. -/
theorem Spells.skipBlanks_eq {t : Token} {cs rest : List Char} {c : Char}
    (h : Spells [t] cs rest) (hc : t.chars.head? = some c) (hblank : isBlank c = false) :
    skipBlanks cs = t.chars ++ rest := by
  obtain ⟨blanks, _, hblanks, rfl, rfl⟩ := h
  rw [skipBlanks_append hblanks]
  refine skipBlanks_append_of_head (fun hnil => by simp [hnil] at hc) (fun d hd => ?_) _
  rw [hc] at hd
  exact Option.some.inj hd ▸ hblank

theorem Spells.skipBlanks_sign {cs rest : List Char} {c : Char} (h : Spells [.sign c] cs rest)
    (hblank : isBlank c = false) : skipBlanks cs = c :: rest :=
  h.skipBlanks_eq rfl hblank

/-! ### Where names end -/

/-- A text that does not go on with a character of a name. -/
def Breaks (cs : List Char) : Prop := ∀ c ∈ cs.head?, isNameChar c = false

theorem breaks_of_skipBlanks {cs : List Char} (h : Breaks (skipBlanks cs)) : Breaks cs := by
  cases cs with
  | nil => exact fun _ hc => by cases hc
  | cons c cs =>
    intro d hd
    obtain rfl : c = d := Option.some.inj hd
    cases hblank : isBlank c with
    | true =>
      refine Bool.eq_false_iff.mpr fun hname => ?_
      rw [isBlank_of_isNameChar hname] at hblank
      cases hblank
    | false => exact h c (by rw [skipBlanks_cons hblank]; rfl)

/-- A token that starts with no character of a name ends a name before it. -/
theorem Spells.breaks {t : Token} {cs rest : List Char} {c : Char} (h : Spells [t] cs rest)
    (hc : t.chars.head? = some c) (hblank : isBlank c = false) (hname : isNameChar c = false) :
    Breaks cs := by
  refine breaks_of_skipBlanks ?_
  rw [h.skipBlanks_eq hc hblank]
  intro d hd
  rw [List.head?_append, hc] at hd
  exact Option.some.inj hd ▸ hname

/-! ### Readers for the smallest parts -/

namespace Reading

theorem sign_complete {c : Char} {cs rest : List Char} (hblank : isBlank c = false)
    (h : Spells [.sign c] cs rest) : sign c (skipBlanks cs) = .ok rest := by
  rw [h.skipBlanks_sign hblank]
  exact if_pos rfl

/-- A name is read to its end, which the break after it marks. -/
theorem name_append {s : String} (hs : IsName s) {rest : List Char} (hrest : Breaks rest) :
    name (s.toList ++ rest) = .ok (s, rest) := by
  have hstop : rest.takeWhile isNameChar = [] ∧ rest.dropWhile isNameChar = rest := by
    cases rest with
    | nil => exact ⟨rfl, rfl⟩
    | cons c rest => simp [hrest c rfl]
  have htake : (s.toList ++ rest).takeWhile isNameChar = s.toList := by
    rw [List.takeWhile_append_of_pos hs.2, hstop.1, List.append_nil]
  have hdrop : (s.toList ++ rest).dropWhile isNameChar = rest := by
    rw [List.dropWhile_append_of_pos hs.2, hstop.2]
  unfold name
  rw [htake, hdrop]
  split
  · next hnil => exact absurd hnil hs.1
  · next c word hcons => rw [← hcons, String.ofList_toList]

theorem name_complete {s : String} {cs rest : List Char} (hs : IsName s) (hrest : Breaks rest)
    (h : Spells [.name s] cs rest) : name (skipBlanks cs) = .ok (s, rest) := by
  obtain ⟨c, hc⟩ := Option.isSome_iff_exists.mp (List.isSome_head?.mpr hs.1)
  rw [h.skipBlanks_eq hc (isBlank_of_isNameChar (hs.2 c (List.mem_of_mem_head? hc)))]
  exact name_append hs hrest

/-- Escapes are undone, and the first quote that is not escaped ends a literal. -/
theorem literalBody_escape (cs rest : List Char) :
    literalBody (cs.flatMap Token.escape ++ '"' :: rest) = some (cs, rest) := by
  induction cs with
  | nil => rfl
  | cons c cs ih =>
    rw [List.flatMap_cons, List.append_assoc, Token.escape]
    -- A character that is not escaped neither ends the literal nor starts an escape.
    by_cases hc : c = '"' ∨ c = '\\'
    · rw [if_pos hc, List.cons_append, List.cons_append, List.nil_append, literalBody, ih]
      simp [hc]
    · rw [if_neg hc, List.cons_append, List.nil_append]
      rw [not_or] at hc
      rw [literalBody, ih]
      · rfl
      · exact hc.1
      · exact fun _ _ h _ => hc.2 h

theorem literal_complete {s : String} {cs rest : List Char} (h : Spells [.literal s] cs rest) :
    literal (skipBlanks cs) = .ok (s, rest) := by
  rw [h.skipBlanks_eq rfl (by decide)]
  simp only [Token.chars, List.cons_append, List.append_assoc, List.nil_append, literal,
    literalBody_escape, String.ofList_toList]

theorem upTo_append {close : Char} {text : List Char} (h : close ∉ text) (rest : List Char) :
    upTo close (text ++ close :: rest) = .ok (text, rest) := by
  rw [upTo, splitAtMark_append h]

end Reading

end AgentRules
