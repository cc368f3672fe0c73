/-
  What range texts mean.

  A word range is read from exactly the texts that write one or two numbers in one of four
  forms, and addresses the words of these numbers (`WordRange.read_eq_ok_iff`). A range of
  either kind, however it was made, is read back from the form that it is shown in.

  The numbers of a range are those of a machine. Reading adds one to a number, takes one away or
  turns the sign around. To see that no result is too large for its type, the readers are given
  a second time with every result checked (`readChecked?`), and the checks never fail.
-/
import AgentRules.Proofs.Writing

namespace AgentRules

open Text Range

/-! ### Numbers in texts -/

/-- Blanks before the first token do not count. -/
theorem Spells.blanks_append {t : Token} {ts : List Token} {blanks cs rest : List Char}
    (hblanks : ∀ c ∈ blanks, isBlank c) (h : Spells (t :: ts) cs rest) :
    Spells (t :: ts) (blanks ++ cs) rest := by
  obtain ⟨inner, after, hinner, rfl, h⟩ := h
  refine ⟨blanks ++ inner, after, fun c hc => ?_, by rw [List.append_assoc], h⟩
  rcases List.mem_append.mp hc with hc | hc
  · exact hblanks c hc
  · exact hinner c hc

/-- A number is read from its digits, with blanks around them. -/
theorem spells_of_readNumber {cs : List Char} {n : Nat} (h : readNumber cs = .ok n) :
    ∃ ds blanks, Numeral n ds ∧ n < UInt64.size ∧ (∀ c ∈ blanks, isBlank c) ∧
      ∀ rest, Spells [.digits ds] (cs ++ rest) (blanks ++ rest) := by
  obtain ⟨before, after, hcs, hbefore, hafter⟩ := exists_eq_append_trim cs
  unfold readNumber at h
  dsimp only at h
  split at h
  · cases h
  · next hdigits =>
    split at h
    · next hsize =>
      cases h
      rw [Bool.or_eq_true, not_or, Bool.not_eq_true, Bool.not_eq_true', Bool.not_eq_false,
        List.isEmpty_eq_false_iff, List.all_eq_true] at hdigits
      refine ⟨trim cs, after, ⟨hdigits.1, hdigits.2, rfl⟩, hsize, hafter, fun rest => ?_⟩
      refine ⟨before, after ++ rest, hbefore, ?_, rfl⟩
      conv_lhs => rw [hcs]
      rw [Token.chars, List.append_assoc, List.append_assoc]
    · cases h

namespace WordRange

/-! ### Word ranges -/

/-- The word range that the tokens of its numbers address. A number that is too large for the
    number of a word counts as the largest of these. -/
inductive AddressedBy : WordRange → List Token → Prop
  /-- `N`: one word. -/
  | word {n : Nat} {ds : List Char} (hn : Numeral n ds) (hsize : n < UInt64.size) :
      AddressedBy ⟨wordNumber n, some (wordNumber n)⟩ [.digits ds]
  /-- `-N`: one word, counted from the end. -/
  | fromEnd {n : Nat} {ds : List Char} (hn : Numeral n ds) (hsize : n < UInt64.size)
      (hpos : 0 < n) :
      AddressedBy ⟨-wordNumber n, some (-wordNumber n)⟩ [.sign '-', .digits ds]
  /-- `A-B`: the words between two. -/
  | between {a b : Nat} {as bs : List Char} (ha : Numeral a as) (hsize : a < UInt64.size)
      (hb : Numeral b bs) (hsize' : b < UInt64.size) (hab : wordNumber a ≤ wordNumber b) :
      AddressedBy ⟨wordNumber a, some (wordNumber b)⟩ [.digits as, .sign '-', .digits bs]
  /-- `A-`: all words from one on. -/
  | onward {a : Nat} {as : List Char} (ha : Numeral a as) (hsize : a < UInt64.size) :
      AddressedBy ⟨wordNumber a, none⟩ [.digits as, .sign '-']

/-- A text spells the numbers that address a range, and nothing else but blanks. -/
def SpelledIn (r : WordRange) (text : List Char) : Prop :=
  ∃ ts blanks, r.AddressedBy ts ∧ Spells ts text blanks ∧ ∀ c ∈ blanks, isBlank c

variable {r : WordRange} {text : List Char}

/-- A range is read from every text that spells the numbers which address it. -/
theorem SpelledIn.read_eq (h : r.SpelledIn text) : read text = .ok r := by
  obtain ⟨ts, blanks, hts, h, hblanks⟩ := h
  cases hts with
  | word hn hsize => exact read_number (ofNumber_of_spells hn hsize h hblanks)
  | fromEnd hn hsize hpos =>
    obtain ⟨number, htrim, hread⟩ := trim_of_spells_fromEnd hn hsize h hblanks
    exact read_fromEnd htrim hread hpos
  | between ha hsize hb hsize' hab =>
    exact read_between (ofInterval_of_spells ha hsize hb hsize' h hblanks) hab
  | onward ha hsize => exact read_onward (ofOnward_of_spells ha hsize h hblanks)

/-- The blanks that are trimmed off a text stand around what spells its numbers. -/
theorem spelledIn_of_trim {t : Token} {ts : List Token} {blanks : List Char}
    (hr : r.AddressedBy (t :: ts))
    (h : ∀ after, Spells (t :: ts) (trim text ++ after) (blanks ++ after))
    (hblanks : ∀ c ∈ blanks, isBlank c) : r.SpelledIn text := by
  obtain ⟨before, after, htext, hbefore, hafter⟩ := exists_eq_append_trim text
  have hspells := (h after).blanks_append hbefore
  rw [← htext] at hspells
  refine ⟨_, blanks ++ after, hr, hspells, fun c hc => ?_⟩
  rcases List.mem_append.mp hc with hc | hc
  · exact hblanks c hc
  · exact hafter c hc

/-- A dash behind blanks is a sign. -/
theorem spells_dash {blanks : List Char} (h : ∀ c ∈ blanks, isBlank c) (rest : List Char) :
    Spells [.sign '-'] (blanks ++ '-' :: rest) rest :=
  ⟨blanks, rest, h, rfl, rfl⟩

/-- The text of a range that is read spells the numbers which address the range. -/
theorem spelledIn_of_read (h : read text = .ok r) : r.SpelledIn text := by
  unfold read at h
  split at h
  · next number htrim =>
    obtain ⟨n, hn, h⟩ := Reading.bind_eq_ok h
    split at h
    · cases h
    · next hzero =>
      cases h
      obtain ⟨ds, blanks, hds, hsize, hblanks, hspells⟩ := spells_of_readNumber hn
      refine spelledIn_of_trim (.fromEnd hds hsize (Nat.pos_of_ne_zero hzero)) (fun after => ?_)
        hblanks
      rw [htrim]
      exact spells_cons.mpr ⟨_, spells_dash (List.forall_mem_nil _) _, hspells after⟩
  · split at h
    · obtain ⟨n, hn, h⟩ := Reading.bind_eq_ok h
      cases h
      obtain ⟨ds, blanks, hds, hsize, hblanks, hspells⟩ := spells_of_readNumber hn
      exact spelledIn_of_trim (.word hds hsize) hspells hblanks
    · next front hsplit =>
      obtain ⟨n, hn, h⟩ := Reading.bind_eq_ok h
      cases h
      obtain ⟨as, blanks, has, hsize, hblanks, hspells⟩ := spells_of_readNumber hn
      refine spelledIn_of_trim (.onward has hsize) (fun after => ?_) (List.forall_mem_nil _)
      rw [splitAtMark_eq_some hsplit, List.append_assoc]
      exact spells_cons.mpr ⟨_, hspells _, spells_dash hblanks after⟩
    · next front back _ hsplit =>
      obtain ⟨a, ha, h⟩ := Reading.bind_eq_ok h
      obtain ⟨b, hb, h⟩ := Reading.bind_eq_ok h
      dsimp only at h
      split at h
      · cases h
      · next hle =>
        cases h
        obtain ⟨as, blanks, has, hsize, hblanks, hspells⟩ := spells_of_readNumber ha
        obtain ⟨bs, blanks', hbs, hsize', hblanks', hspells'⟩ := spells_of_readNumber hb
        refine spelledIn_of_trim (.between has hsize hbs hsize' (Nat.le_of_not_lt hle))
          (fun after => ?_) hblanks'
        rw [splitAtMark_eq_some hsplit, List.append_assoc]
        have hback : Spells [.sign '-', .digits bs] (blanks ++ '-' :: (back ++ after))
            (blanks' ++ after) :=
          spells_cons.mpr ⟨_, spells_dash hblanks _, hspells' after⟩
        exact spells_cons.mpr ⟨_, hspells _, hback⟩

/-- **Which texts are read as a word range.** They are those that spell the numbers which address
    the range, and nothing else but blanks. -/
theorem read_eq_ok_iff : read text = .ok r ↔ r.SpelledIn text :=
  ⟨spelledIn_of_read, SpelledIn.read_eq⟩

end WordRange

/-! ### Ranges of children -/

namespace ChildRange

/-- **The written form of a range of children is read back**, whatever the kind of children. -/
theorem Bounded.read_render {r : ChildRange} (h : r.Bounded) (kind : Fragment) :
    read r.render.toList kind = .ok r := by
  obtain ⟨first, last⟩ := r
  have hdash : (toString "-").toList = ['-'] := rfl
  have htokens : ∃ ts, WrittenAs kind ⟨first, last⟩ ts ∧
      (render ⟨first, last⟩).toList = ts.flatMap Token.chars := by
    by_cases heq : first = last
    · rw [← heq]
      exact ⟨_, .single (.toDigits first), by simp [render, Token.chars]⟩
    · exact ⟨_, .between (.toDigits first) (.toDigits last), by
        simp [render, heq, hdash, Token.chars]⟩
  obtain ⟨ts, hts, hrender⟩ := htokens
  rw [hrender]
  exact read_complete h hts (spells_chars ts) (by simp)

end ChildRange

/-! ### Numbers of 64 bits -/

/-- The result of an operation on numbers of 64 bits, if it is such a number. -/
def unsigned? (n : Int) : Option Nat := if 0 ≤ n ∧ n < UInt64.size then some n.toNat else none

/-- The result of an operation on signed numbers of 64 bits, if it is such a number. -/
def signed? (n : Int) : Option Int :=
  if Int64.minValue.toInt ≤ n ∧ n ≤ Int64.maxValue.toInt then some n else none

theorem unsigned?_eq_some {n : Int} {m : Nat} (hn : n = m) (hm : m < UInt64.size) :
    unsigned? n = some m := by
  rw [unsigned?, if_pos (by omega), hn, Int.toNat_natCast]

theorem signed?_wordNumber (n : Nat) : signed? (wordNumber n) = some ↑(wordNumber n) := by
  have hle := wordNumber_le n
  have hmax : Int64.maxValue.toInt = maxWordNumber := by decide
  have hmin : Int64.minValue.toInt ≤ 0 := by decide
  exact if_pos (by omega)

theorem signed?_neg_wordNumber (n : Nat) : signed? (-wordNumber n) = some (-↑(wordNumber n)) := by
  have hle := wordNumber_le n
  have hmax : 0 ≤ Int64.maxValue.toInt := by decide
  have hmin : Int64.minValue.toInt ≤ -maxWordNumber := by decide
  exact if_pos (by omega)

/-- Reads a range of children, with the result of every operation on numbers checked. It gives
    nothing at all where one of them is no number of 64 bits. -/
def ChildRange.readChecked? (text : List Char) (kind : Fragment) :
    ExceptT RangeFault Option ChildRange :=
  let text := trim text
  if text = ['*'] then do
    let last ← unsigned? (kind.usualCount - 1)
    return ⟨0, last⟩
  else
    match splitAtMark '-' text with
    | none => do
      let n ← readNumber text
      check n n
    | some (start, []) => do
      let first ← readNumber start
      if maxChildIndex ≤ first then throw (.tooLarge first)
      else
        let next ← unsigned? (first + 1)
        let last ← unsigned? (max kind.usualCount next - 1)
        check first last
    | some (start, stop) => do
      let first ← readNumber start
      let last ← readNumber stop
      check first last

/-- Reads a word range, with the result of every operation on numbers checked. It gives nothing
    at all where one of them is no signed number of 64 bits. -/
def WordRange.readChecked? (text : List Char) : ExceptT RangeFault Option WordRange :=
  match trim text with
  | '-' :: number => do
    let n ← readNumber number
    if n = 0 then throw .zeroFromEnd
    else
      let n ← signed? (wordNumber n)
      let fromEnd ← signed? (-n)
      return ⟨fromEnd, some fromEnd⟩
  | text =>
    match splitAtMark '-' text with
    | none => do
      let n ← signed? (wordNumber (← readNumber text))
      return ⟨n, some n⟩
    | some (start, []) => do
      let first ← signed? (wordNumber (← readNumber start))
      return ⟨first, none⟩
    | some (start, stop) => do
      let first ← signed? (wordNumber (← readNumber start))
      let last ← signed? (wordNumber (← readNumber stop))
      if last < first then throw .startAfterEnd else return ⟨first, some last⟩

/-- Checked and unchecked readers go on alike from what both have read. -/
theorem run_liftM_bind {α β : Type} (x : Except RangeFault α)
    {f : α → ExceptT RangeFault Option β} {g : α → Except RangeFault β}
    (h : ∀ a, (f a).run = some (g a)) :
    (liftM x >>= f : ExceptT RangeFault Option β).run = some (x >>= g) := by
  cases x with
  | error fault => rfl
  | ok a => exact h a

/-- A number that passes its check is read on with. -/
theorem liftM_some_bind {α β : Type} (a : α) (f : α → ExceptT RangeFault Option β) :
    (liftM (some a) >>= f : ExceptT RangeFault Option β) = f a := rfl

/-- **No text makes the numbers of a range of children overflow.** -/
theorem ChildRange.readChecked?_eq (text : List Char) (kind : Fragment) :
    (readChecked? text kind).run = some (read text kind) := by
  have husual : 1 ≤ kind.usualCount ∧ kind.usualCount ≤ maxChildIndex := by
    cases kind <;> decide
  have hsize : maxChildIndex < UInt64.size := by decide
  unfold readChecked? read
  generalize trim text = text
  dsimp only
  split
  · have hlast : unsigned? (kind.usualCount - 1) = some (kind.usualCount - 1) :=
      unsigned?_eq_some (by omega) (by omega)
    rw [hlast]
    rfl
  · rcases splitAtMark '-' text with _ | ⟨start, _ | ⟨c, stop⟩⟩
    · exact run_liftM_bind _ fun n => rfl
    · refine run_liftM_bind _ fun first => ?_
      by_cases hlarge : maxChildIndex ≤ first
      · rw [if_pos hlarge, if_pos hlarge]
        rfl
      · have hnext : unsigned? (first + 1) = some (first + 1) :=
          unsigned?_eq_some (by omega) (by omega)
        have hlast : unsigned? (max kind.usualCount (first + 1) - 1) =
            some (max kind.usualCount (first + 1) - 1) :=
          unsigned?_eq_some (by omega) (by omega)
        rw [if_neg hlarge, if_neg hlarge, hnext, liftM_some_bind, hlast]
        rfl
    · refine run_liftM_bind _ fun first => ?_
      exact run_liftM_bind _ fun last => rfl

/-- **No text makes the numbers of a word range overflow.** -/
theorem WordRange.readChecked?_eq (text : List Char) :
    (readChecked? text).run = some (read text) := by
  by_cases hdash : ∃ number, trim text = '-' :: number
  · obtain ⟨number, htrim⟩ := hdash
    unfold readChecked? read
    rw [htrim]
    refine run_liftM_bind _ fun n => ?_
    by_cases hzero : n = 0
    · rw [if_pos hzero, if_pos hzero]
      rfl
    · rw [if_neg hzero, if_neg hzero, signed?_wordNumber, liftM_some_bind, signed?_neg_wordNumber]
      rfl
  · have hother : ∀ number, trim text = '-' :: number → False := fun number h => hdash ⟨number, h⟩
    unfold readChecked? read
    -- Both readers go on with the text as a number or an interval.
    simp only
    rcases splitAtMark '-' (trim text) with _ | ⟨start, _ | ⟨c, stop⟩⟩
    · refine run_liftM_bind _ fun n => ?_
      rw [signed?_wordNumber]
      rfl
    · refine run_liftM_bind _ fun first => ?_
      rw [signed?_wordNumber]
      rfl
    · refine run_liftM_bind _ fun first => ?_
      rw [signed?_wordNumber, liftM_some_bind]
      refine run_liftM_bind _ fun last => ?_
      rw [signed?_wordNumber, liftM_some_bind]
      by_cases hlast : wordNumber last < wordNumber first
      · rw [if_pos hlast, if_pos (Int.ofNat_lt.mpr hlast)]
        rfl
      · rw [if_neg hlast, if_neg (mt Int.ofNat_lt.mp hlast)]
        rfl

/-! ### Ranges are read back -/

/-- The ways in which a range of children is made from a text, from its two ends or for a kind. -/
inductive ChildRange.Made (r : ChildRange) : Prop
  | parsed {text : String} {kind : Fragment} (h : parse text kind = .ok r)
  | bounds {first last : Nat} (h : ofBounds first last = .ok r)
  | usual {kind : Fragment} (h : r = .usual kind)

theorem ChildRange.Made.bounded {r : ChildRange} (h : r.Made) : r.Bounded := by
  cases h with
  | parsed h => exact read_sound (mapError_eq_ok.mp h)
  | bounds h => exact (check_eq_ok.mp (mapError_eq_ok.mp h)).2
  | @usual kind h => exact h ▸ bounded_usual kind

/-- **Ranges stay in bounds and are read back from the form they are shown in**: a range of
    children with any kind, however it was made, and a word range that was read. What such a word
    range addresses are the numbers written in the text. No text makes the numbers of either
    reader overflow. -/
theorem ranges_read_back (text : String) (kind : Fragment) :
    (∀ r : ChildRange, r.Made →
      (r.first ≤ r.last ∧ r.last < maxChildIndex) ∧ ChildRange.parse r.render kind = .ok r) ∧
    (∀ r : WordRange, WordRange.parse text = .ok r →
      WordRange.parse r.render = .ok r ∧ r.SpelledIn text.toList) ∧
    (ChildRange.readChecked? text.toList kind).run = some (ChildRange.read text.toList kind) ∧
    (WordRange.readChecked? text.toList).run = some (WordRange.read text.toList) := by
  refine ⟨fun r hr => ⟨hr.bounded, ?_⟩, fun r hr => ⟨?_, ?_⟩, ChildRange.readChecked?_eq _ _,
    WordRange.readChecked?_eq _⟩
  · exact mapError_eq_ok.mpr (hr.bounded.read_render kind)
  · exact mapError_eq_ok.mpr (WordRange.read_sound (mapError_eq_ok.mp hr)).read_render
  · exact WordRange.read_eq_ok_iff.mp (mapError_eq_ok.mp hr)

/-- Numbers of 64 bits are cut down to the largest number of a word, and an open range of
    comments ends where another kind of children would not. -/
theorem ranges_read_back_capped :
    WordRange.parse " 3 - 18446744073709551615" = .ok ⟨3, some maxWordNumber⟩ ∧
      WordRange.parse "3-9223372036854775807" = .ok ⟨3, some maxWordNumber⟩ ∧
      ChildRange.parse " 1 -" .comments = .ok ⟨1, 1⟩ ∧
      ChildRange.parse "1" .product = .ok ⟨1, 1⟩ := by
  have hwords : WordRange.parse " 3 - 18446744073709551615" = .ok ⟨3, some maxWordNumber⟩ := by
    decide +kernel
  have hchildren : ChildRange.parse " 1 -" .comments = .ok ⟨1, 1⟩ := by decide +kernel
  have hback := ranges_read_back " 3 - 18446744073709551615" .product
  exact ⟨hwords, (hback.2.1 _ hwords).1, hchildren, (hback.1 _ (.parsed hchildren)).2⟩

end AgentRules
