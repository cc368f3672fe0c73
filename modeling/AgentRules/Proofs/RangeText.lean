/-
  Ranges and their texts.

  Both kinds of range are read in the same way: blanks at the ends are dropped, and a dash
  splits what remains into numbers. So it is shown once what this makes of the tokens of one
  number, of two numbers around a dash, and of a number before a dash. A range that is
  written in tokens is read from any text that spells them (`WordRange.read_complete`,
  `ChildRange.read_complete`), and whatever is read has the form and the bounds that ranges
  have to have (`WordRange.read_sound`, `ChildRange.read_sound`).
-/
import AgentRules.Proofs.Lexeme

namespace AgentRules

open Text Range

/-! ### Numbers -/

namespace Numeral

variable {n : Nat} {ds : List Char}

theorem isBlank_eq_false (h : Numeral n ds) {c : Char} (hc : c ∈ ds) : isBlank c = false :=
  isBlank_of_isAsciiDigit (h.digits c hc)

theorem notMem (h : Numeral n ds) {c : Char} (hc : isAsciiDigit c = false) : c ∉ ds := fun hmem =>
  absurd (h.digits c hmem) (by simp [hc])

/-- Blanks around a number do not count. -/
theorem readNumber_eq (h : Numeral n ds) (hn : n < UInt64.size) (before after : List Char)
    (hbefore : ∀ c ∈ before, isBlank c) (hafter : ∀ c ∈ after, isBlank c) :
    readNumber (before ++ (ds ++ after)) = .ok n := by
  have htrim : trim (before ++ (ds ++ after)) = ds :=
    trim_append hbefore hafter h.nonempty
      (fun c hc => h.isBlank_eq_false (List.mem_of_mem_head? hc))
      (fun c hc => h.isBlank_eq_false (List.mem_of_mem_getLast? hc))
  have hdigits : ds.all isAsciiDigit = true := List.all_eq_true.mpr h.digits
  simp only [readNumber, htrim, hdigits, h.value, List.isEmpty_eq_false_iff.mpr h.nonempty,
    Bool.not_true, Bool.or_self, Bool.false_eq_true, if_false, hn, if_true]

end Numeral

/-! ### Numbers and a dash -/

/-- A text that starts with a digit. -/
def StartsWithDigit (cs : List Char) : Prop := ∃ c rest, cs = c :: rest ∧ isAsciiDigit c

/-- The text of one number. -/
structure OfNumber (text : List Char) (a : Nat) : Prop where
  start : StartsWithDigit (trim text)
  split : splitAtMark '-' (trim text) = none
  value : readNumber (trim text) = .ok a

/-- The text of two numbers around a dash. -/
structure OfInterval (text : List Char) (a b : Nat) : Prop where
  start : StartsWithDigit (trim text)
  split : ∃ front back, splitAtMark '-' (trim text) = some (front, back) ∧ back ≠ [] ∧
    readNumber front = .ok a ∧ readNumber back = .ok b

/-- The text of a number before a dash. -/
structure OfOnward (text : List Char) (a : Nat) : Prop where
  start : StartsWithDigit (trim text)
  split : ∃ front, splitAtMark '-' (trim text) = some (front, []) ∧ readNumber front = .ok a

section Split

variable {a b : Nat} {as bs text after : List Char}

theorem Numeral.startsWithDigit (h : Numeral a as) (cs : List Char) :
    StartsWithDigit (as ++ cs) := by
  cases has : as with
  | nil => exact absurd has h.nonempty
  | cons c as => exact ⟨c, as ++ cs, rfl, h.digits c (has ▸ List.mem_cons_self)⟩

theorem StartsWithDigit.head_ne {cs : List Char} (h : StartsWithDigit cs) {c : Char}
    (hc : isAsciiDigit c = false) (rest : List Char) : cs ≠ c :: rest := by
  obtain ⟨d, rest', rfl, hd⟩ := h
  rintro ⟨⟩
  rw [hc] at hd
  cases hd

/-- Trimming a text that starts with a number leaves everything from that number on. -/
theorem Numeral.trim_eq (h : Numeral a as) {before : List Char} (core : List Char)
    (hbefore : ∀ c ∈ before, isBlank c) (hafter : ∀ c ∈ after, isBlank c)
    (hlast : ∀ c ∈ (as ++ core).getLast?, isBlank c = false) :
    trim (before ++ (as ++ core ++ after)) = as ++ core := by
  refine trim_append hbefore hafter (by simp [h.nonempty]) (fun c hc => ?_) hlast
  obtain ⟨d, rest, hcons, hd⟩ := h.startsWithDigit core
  rw [hcons] at hc
  exact Option.some.inj hc ▸ isBlank_of_isAsciiDigit hd

theorem ofNumber_of_spells (ha : Numeral a as) (hsize : a < UInt64.size)
    (h : Spells [.digits as] text after) (hafter : ∀ c ∈ after, isBlank c) : OfNumber text a := by
  obtain ⟨before, after, hbefore, rfl, rfl⟩ := h
  have htrim : trim (before ++ (as ++ after)) = as := by
    have := ha.trim_eq [] hbefore hafter
      (fun c hc => ha.isBlank_eq_false (by simpa using List.mem_of_mem_getLast? hc))
    simpa using this
  have hread : readNumber as = .ok a := by
    simpa using ha.readNumber_eq hsize [] [] (by simp) (by simp)
  constructor
  · rw [Token.chars, htrim]
    simpa using ha.startsWithDigit []
  · rw [Token.chars, htrim]
    exact splitAtMark_eq_none (ha.notMem (by decide))
  · rw [Token.chars, htrim, hread]

/-- A number and the blanks after it hold no dash. -/
theorem Numeral.dash_notMem_append (h : Numeral a as) {blanks : List Char}
    (hblanks : ∀ c ∈ blanks, isBlank c) : '-' ∉ as ++ blanks := by
  rw [List.mem_append, not_or]
  exact ⟨h.notMem (by decide), fun hmem => absurd (hblanks '-' hmem) (by decide)⟩

theorem ofInterval_of_spells (ha : Numeral a as) (hsize : a < UInt64.size) (hb : Numeral b bs)
    (hsize' : b < UInt64.size) (h : Spells [.digits as, .sign '-', .digits bs] text after)
    (hafter : ∀ c ∈ after, isBlank c) : OfInterval text a b := by
  obtain ⟨before, _, hbefore, rfl, blanks, _, hblanks, rfl, blanks', after, hblanks', rfl, rfl⟩ := h
  have htrim : trim (before ++ (as ++ (blanks ++ '-' :: (blanks' ++ bs)) ++ after)) =
      as ++ (blanks ++ '-' :: (blanks' ++ bs)) := by
    refine ha.trim_eq _ hbefore hafter fun c hc => hb.isBlank_eq_false ?_
    -- The text ends with the second number, so nothing is trimmed off it.
    have hends : (as ++ (blanks ++ '-' :: (blanks' ++ bs))).getLast? = bs.getLast? := by
      simp [List.getLast?_append, List.getLast?_cons, List.getLast?_eq_some_getLast hb.nonempty]
    exact List.mem_of_mem_getLast? (hends ▸ hc)
  simp only [Token.chars, List.append_assoc, List.cons_append, List.nil_append] at htrim ⊢
  refine ⟨htrim ▸ ha.startsWithDigit _, as ++ blanks, blanks' ++ bs, ?_, by simp [hb.nonempty], ?_,
    ?_⟩
  · rw [htrim, ← List.append_assoc, splitAtMark_append (ha.dash_notMem_append hblanks)]
  · exact ha.readNumber_eq hsize [] blanks (by simp) hblanks
  · simpa using hb.readNumber_eq hsize' blanks' [] hblanks' (by simp)

theorem ofOnward_of_spells (ha : Numeral a as) (hsize : a < UInt64.size)
    (h : Spells [.digits as, .sign '-'] text after) (hafter : ∀ c ∈ after, isBlank c) :
    OfOnward text a := by
  obtain ⟨before, _, hbefore, rfl, blanks, after, hblanks, rfl, rfl⟩ := h
  have htrim : trim (before ++ (as ++ (blanks ++ ['-']) ++ after)) = as ++ (blanks ++ ['-']) := by
    refine ha.trim_eq _ hbefore hafter fun c hc => ?_
    simp only [← List.append_assoc, List.getLast?_concat, Option.mem_some_iff] at hc
    exact hc ▸ rfl
  simp only [Token.chars, List.append_assoc, List.cons_append, List.nil_append] at htrim ⊢
  refine ⟨htrim ▸ ha.startsWithDigit _, as ++ blanks, ?_, ?_⟩
  · rw [htrim, ← List.append_assoc, splitAtMark_append (ha.dash_notMem_append hblanks)]
  · exact ha.readNumber_eq hsize [] blanks (by simp) hblanks

/-- A dash before a number is the first character of its text. -/
theorem trim_of_spells_fromEnd (ha : Numeral a as) (hsize : a < UInt64.size)
    (h : Spells [.sign '-', .digits as] text after) (hafter : ∀ c ∈ after, isBlank c) :
    ∃ number, trim text = '-' :: number ∧ readNumber number = .ok a := by
  obtain ⟨before, _, hbefore, rfl, blanks, after, hblanks, rfl, rfl⟩ := h
  refine ⟨blanks ++ as, ?_, by simpa using ha.readNumber_eq hsize blanks [] hblanks (by simp)⟩
  have htrim := trim_append hbefore hafter (List.cons_ne_nil '-' (blanks ++ as))
    (fun c hc => Option.some.inj hc ▸ by decide) fun c hc => ha.isBlank_eq_false ?_
  · simpa [Token.chars] using htrim
  · rw [← List.cons_append, List.getLast?_append, List.getLast?_eq_some_getLast ha.nonempty] at hc
    exact Option.some.inj hc ▸ List.getLast_mem ha.nonempty

end Split

theorem wordNumber_le (n : Nat) : wordNumber n ≤ maxWordNumber := Nat.min_le_right ..

theorem wordNumber_eq {n : Nat} (h : n ≤ maxWordNumber) : wordNumber n = n := Nat.min_eq_left h

/-- Naming the text of a fault changes no answer that is none. -/
theorem mapError_eq_ok {ε δ α : Type} {x : Except ε α} {f : ε → δ} {a : α} :
    x.mapError f = .ok a ↔ x = .ok a := by
  cases x <;> constructor <;> intro h <;> cases h <;> rfl

/-! ### Word ranges -/

namespace WordRange

variable {r : WordRange}

theorem Parseable.first_le (h : r.Parseable) : r.first ≤ maxWordNumber := by
  cases h <;> dsimp only <;> omega

theorem Parseable.neg_le_first (h : r.Parseable) : -(maxWordNumber : Int) ≤ r.first := by
  cases h <;> dsimp only <;> omega

theorem Parseable.last_le (h : r.Parseable) {last : Int} (hlast : r.last = some last) :
    last ≤ maxWordNumber := by
  cases h <;> cases hlast <;> omega

theorem Parseable.first_le_last (h : r.Parseable) {last : Int} (hlast : r.last = some last) :
    r.first ≤ last := by
  cases h <;> cases hlast <;> dsimp only <;> omega

/-- One number is one word. -/
theorem read_number {text : List Char} {n : Nat} (h : OfNumber text n) :
    read text = .ok ⟨wordNumber n, some (wordNumber n)⟩ := by
  unfold read
  split
  · next number hdash => exact absurd hdash (h.start.head_ne (by decide) number)
  · rw [h.split, h.value]
    rfl

/-- Two numbers are the ends, if they are in order. -/
theorem read_between {text : List Char} {a b : Nat} (h : OfInterval text a b)
    (hab : wordNumber a ≤ wordNumber b) :
    read text = .ok ⟨wordNumber a, some (wordNumber b)⟩ := by
  obtain ⟨front, back, hsplit, hback, ha, hb⟩ := h.split
  unfold read
  split
  · next number hdash => exact absurd hdash (h.start.head_ne (by decide) number)
  · rw [hsplit]
    split
    · next hnone => cases hnone
    · next hnil => cases hnil; exact absurd rfl hback
    · next hsome =>
      cases hsome
      rw [ha, hb]
      exact if_neg (Nat.not_lt.mpr hab)

/-- A number before a dash is the first word of all that follow. -/
theorem read_onward {text : List Char} {a : Nat} (h : OfOnward text a) :
    read text = .ok ⟨wordNumber a, none⟩ := by
  obtain ⟨front, hsplit, ha⟩ := h.split
  unfold read
  split
  · next number hdash => exact absurd hdash (h.start.head_ne (by decide) number)
  · rw [hsplit]
    dsimp only
    rw [ha]
    rfl

/-- A dash before a number counts from the end. -/
theorem read_fromEnd {text number : List Char} {n : Nat} (htrim : trim text = '-' :: number)
    (hn : readNumber number = .ok n) (hpos : 0 < n) :
    read text = .ok ⟨-wordNumber n, some (-wordNumber n)⟩ := by
  unfold read
  split
  · next rest hdash =>
    cases htrim.symm.trans hdash
    rw [hn]
    exact if_neg (Nat.pos_iff_ne_zero.mp hpos)
  · next hne => exact absurd htrim (hne number)

/-- The tokens of a word range hold no closing bracket. -/
theorem WrittenAs.notMem {ts : List Token} (h : r.WrittenAs ts) : ∀ t ∈ ts, ']' ∉ t.chars := by
  cases h with
  | word hn | fromEnd _ hn | onward hn =>
    have := hn.notMem (show isAsciiDigit ']' = false by decide)
    simpa [Token.chars] using this
  | between ha hb =>
    have := ha.notMem (show isAsciiDigit ']' = false by decide)
    have := hb.notMem (show isAsciiDigit ']' = false by decide)
    simp_all [Token.chars]

/-- **A word range is read from every text that spells it.** -/
theorem read_complete (hr : r.Parseable) {ts : List Token} {text blanks : List Char}
    (hts : r.WrittenAs ts) (h : Spells ts text blanks) (hblanks : ∀ c ∈ blanks, isBlank c) :
    read text = .ok r := by
  have hsize {n : Nat} (hn : n ≤ maxWordNumber) : n < UInt64.size :=
    Nat.lt_of_le_of_lt hn (by decide)
  cases hts with
  | @word n _ hn =>
    have hle : n ≤ maxWordNumber := Int.ofNat_le.mp hr.first_le
    rw [read_number (ofNumber_of_spells hn (hsize hle) h hblanks), wordNumber_eq hle]
  | @fromEnd n _ hpos hn =>
    have hle : n ≤ maxWordNumber := Int.ofNat_le.mp (Int.neg_le_neg_iff.mp hr.neg_le_first)
    obtain ⟨number, htrim, hread⟩ := trim_of_spells_fromEnd hn (hsize hle) h hblanks
    rw [read_fromEnd htrim hread hpos, wordNumber_eq hle]
  | @between a b _ _ ha hb =>
    have hab : a ≤ b := Int.ofNat_le.mp (hr.first_le_last rfl)
    have hle : b ≤ maxWordNumber := Int.ofNat_le.mp (hr.last_le rfl)
    have hle' : a ≤ maxWordNumber := Nat.le_trans hab hle
    have hform := ofInterval_of_spells ha (hsize hle') hb (hsize hle) h hblanks
    have ha' := wordNumber_eq hle'
    have hb' := wordNumber_eq hle
    rw [read_between hform (by rwa [ha', hb']), ha', hb']
  | @onward a _ ha =>
    have hle : a ≤ maxWordNumber := Int.ofNat_le.mp hr.first_le
    rw [read_onward (ofOnward_of_spells ha (hsize hle) h hblanks), wordNumber_eq hle]

/-- **Whatever is read is a word range that has a written form.** -/
theorem read_sound {text : List Char} (h : read text = .ok r) : r.Parseable := by
  unfold read at h
  split at h
  · obtain ⟨n, -, h⟩ := Reading.bind_eq_ok h
    split at h
    · cases h
    · next hn =>
      cases h
      exact .fromEnd (Nat.lt_min.mpr ⟨Nat.pos_of_ne_zero hn, by decide⟩) (wordNumber_le n)
  · split at h
    · obtain ⟨n, -, h⟩ := Reading.bind_eq_ok h
      cases h
      exact .word (wordNumber_le n)
    · obtain ⟨n, -, h⟩ := Reading.bind_eq_ok h
      cases h
      exact .onward (wordNumber_le n)
    · obtain ⟨a, -, h⟩ := Reading.bind_eq_ok h
      obtain ⟨b, -, h⟩ := Reading.bind_eq_ok h
      dsimp only at h
      split at h
      · cases h
      · next hle => cases h; exact .between (Nat.le_of_not_lt hle) (wordNumber_le b)

end WordRange

/-! ### Ranges of children -/

namespace ChildRange

variable {kind : Fragment} {r : ChildRange}

/-- A range is made of its two ends exactly if it is within the bounds. -/
theorem check_eq_ok {first last : Nat} :
    check first last = .ok r ↔ r = ⟨first, last⟩ ∧ r.Bounded := by
  unfold check
  constructor
  · intro h
    split at h
    · cases h
    · next hle =>
      split at h
      · cases h
      · next hlt => cases h; exact ⟨rfl, Nat.le_of_not_lt hle, Nat.lt_of_not_le hlt⟩
  · rintro ⟨rfl, hle, hlt⟩
    rw [if_neg (Nat.not_lt.mpr hle), if_neg (Nat.not_le.mpr hlt)]

theorem bounded_usual (kind : Fragment) : (usual kind).Bounded := by
  cases kind <;> decide

/-- One number is a range of one index. -/
theorem read_number {text : List Char} {n : Nat} (h : OfNumber text n) :
    read text kind = check n n := by
  unfold read
  dsimp only
  rw [if_neg (h.start.head_ne (by decide) []), h.split, h.value]
  rfl

/-- Two numbers are the ends. -/
theorem read_between {text : List Char} {a b : Nat} (h : OfInterval text a b) :
    read text kind = check a b := by
  obtain ⟨front, back, hsplit, hback, ha, hb⟩ := h.split
  unfold read
  dsimp only
  rw [if_neg (h.start.head_ne (by decide) []), hsplit]
  split
  · next hnone => cases hnone
  · next hnil => cases hnil; exact absurd rfl hback
  · next hsome =>
    cases hsome
    rw [ha, hb]
    rfl

/-- A number before a dash is the first index of those up to the usual count. -/
theorem read_onward {text : List Char} {a : Nat} (h : OfOnward text a) (hlt : a < maxChildIndex) :
    read text kind = check a (max kind.usualCount (a + 1) - 1) := by
  obtain ⟨front, hsplit, ha⟩ := h.split
  unfold read
  dsimp only
  rw [if_neg (h.start.head_ne (by decide) []), hsplit]
  dsimp only
  rw [ha]
  exact if_neg (Nat.not_le.mpr hlt)

/-- The tokens of a range hold no closing parenthesis. -/
theorem WrittenAs.notMem {ts : List Token} (h : r.WrittenAs kind ts) :
    ∀ t ∈ ts, ')' ∉ t.chars := by
  cases h with
  | usual => simp [Token.chars]
  | single hn | onward hn =>
    have := hn.notMem (show isAsciiDigit ')' = false by decide)
    simpa [Token.chars] using this
  | between ha hb =>
    have := ha.notMem (show isAsciiDigit ')' = false by decide)
    have := hb.notMem (show isAsciiDigit ')' = false by decide)
    simp_all [Token.chars]

/-- **A range is read from every text that spells it.** -/
theorem read_complete (hr : r.Bounded) {ts : List Token} {text blanks : List Char}
    (hts : r.WrittenAs kind ts) (h : Spells ts text blanks) (hblanks : ∀ c ∈ blanks, isBlank c) :
    read text kind = .ok r := by
  have hsize {n : Nat} (hn : n < maxChildIndex) : n < UInt64.size :=
    Nat.lt_trans hn (by decide)
  have hcheck : check r.first r.last = .ok r := check_eq_ok.mpr ⟨rfl, hr⟩
  cases hts with
  | usual =>
    obtain ⟨before, after, hbefore, rfl, rfl⟩ := h
    have htrim := trim_append hbefore hblanks (List.cons_ne_nil '*' [])
      (fun c hc => Option.some.inj hc ▸ by decide) (fun c hc => Option.some.inj hc ▸ by decide)
    exact if_pos htrim
  | single hn =>
    rw [read_number (ofNumber_of_spells hn (hsize hr.2) h hblanks), hcheck]
  | between ha hb =>
    have hlt := Nat.lt_of_le_of_lt hr.1 hr.2
    rw [read_between (ofInterval_of_spells ha (hsize hlt) hb (hsize hr.2) h hblanks), hcheck]
  | onward ha =>
    have hlt := Nat.lt_of_le_of_lt hr.1 hr.2
    rw [read_onward (ofOnward_of_spells ha (hsize hlt) h hblanks) hlt, hcheck]

/-- **Whatever is read is within the bounds.** -/
theorem read_sound {text : List Char} (h : read text kind = .ok r) : r.Bounded := by
  unfold read at h
  dsimp only at h
  split at h
  · cases h
    exact bounded_usual kind
  · split at h
    · obtain ⟨n, -, h⟩ := Reading.bind_eq_ok h
      exact (check_eq_ok.mp h).2
    · obtain ⟨first, -, h⟩ := Reading.bind_eq_ok h
      split at h
      · cases h
      · exact (check_eq_ok.mp h).2
    · obtain ⟨first, -, h⟩ := Reading.bind_eq_ok h
      obtain ⟨last, -, h⟩ := Reading.bind_eq_ok h
      exact (check_eq_ok.mp h).2

end ChildRange

end AgentRules
