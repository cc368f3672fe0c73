/-
  Forms of letters that are forms already.

  A capital form consists of characters that are their own capital forms, and a small form of
  characters that are their own small forms. No form has a blank unless it is that of a blank,
  and a form of one character is alphanumeric if the letter is.

  All this is a matter of tables with some three thousand letters, and each fact says that two
  sets of characters have no member in common, or that one is part of the other. So the sets
  are held as the bits of numbers (`codeBits`, `CharTable.bits`), where two whole sets are
  compared in one step (`final_capital`, `final_small`).
-/
import AgentRules.Text.Alphanumeric
import AgentRules.Text.Basic
import AgentRules.Text.Case
import Mathlib.Data.List.Chain
import Mathlib.Data.Nat.Bitwise

namespace AgentRules

/-! ### Sets of characters as bits -/

/-- The number whose bits are the given ones. -/
def codeBits (ns : List Nat) : Nat := ns.foldr (fun n bits => bits ||| 2 ^ n) 0

theorem testBit_codeBits (ns : List Nat) (n : Nat) : (codeBits ns).testBit n ↔ n ∈ ns := by
  induction ns with
  | nil => simp [codeBits]
  | cons m ns ih =>
    have hcons : codeBits (m :: ns) = codeBits ns ||| 2 ^ m := rfl
    rw [hcons, Nat.testBit_or, Bool.or_eq_true, ih, Nat.testBit_two_pow, decide_eq_true_eq,
      List.mem_cons, or_comm, eq_comm]

/-- Sets that have no bit in common have no member in common. -/
theorem not_testBit_of_and_eq_zero {as bs n : Nat} (h : as &&& bs = 0) (hn : as.testBit n) :
    ¬bs.testBit n := by
  intro hmem
  have hboth : (as &&& bs).testBit n = true := by
    rw [Nat.testBit_and, hn, hmem]
    rfl
  rw [h, Nat.zero_testBit] at hboth
  cases hboth

theorem testBit_of_or_eq {as bs n : Nat} (h : as ||| bs = bs) (hn : as.testBit n) :
    bs.testBit n := by
  rw [← h, Nat.testBit_or, hn]
  rfl

namespace CharTable

/-- The number whose bits are the code points of a table. -/
def bits (t : CharTable) : Nat :=
  t.foldr (fun run bits => bits ||| (2 ^ (run.2 + 1 - run.1) - 1) <<< run.1) 0

theorem testBit_bits (t : CharTable) (n : Nat) :
    t.bits.testBit n ↔ ∃ run ∈ t, run.1 ≤ n ∧ n ≤ run.2 := by
  induction t with
  | nil => simp [bits]
  | cons run t ih =>
    have hcons : bits (run :: t) = bits t ||| (2 ^ (run.2 + 1 - run.1) - 1) <<< run.1 := rfl
    have hrun : ((2 ^ (run.2 + 1 - run.1) - 1) <<< run.1).testBit n ↔ run.1 ≤ n ∧ n ≤ run.2 := by
      rw [Nat.testBit_shiftLeft, Nat.testBit_two_pow_sub_one, Bool.and_eq_true,
        decide_eq_true_eq, decide_eq_true_eq]
      omega
    rw [hcons, Nat.testBit_or, Bool.or_eq_true, ih, hrun, List.exists_mem_cons_iff, or_comm]

/-- Each run of a table starts after the one before it has ended. -/
def Ascending (t : CharTable) : Prop :=
  t.IsChain fun run run' => run.2 < run'.1 ∧ run'.1 ≤ run'.2

/-- In a table whose runs ascend, the search does not stop before the run that it is for. -/
theorem contains_of_mem {t : CharTable} (h : t.Ascending) {run : Nat × Nat} (hmem : run ∈ t)
    {c : Char} (hfirst : run.1 ≤ c.toNat) (hlast : c.toNat ≤ run.2) : t.contains c := by
  induction t with
  | nil => cases hmem
  | cons run' t ih =>
    rcases List.mem_cons.mp hmem with rfl | hmem
    · rw [contains, if_pos hlast, decide_eq_true hfirst]
    · have hskip : ¬c.toNat ≤ run'.2 := by
        have htrans : IsTrans (Nat × Nat) fun run run' => run.2 < run'.1 ∧ run'.1 ≤ run'.2 :=
          ⟨fun _ _ _ h h' => by omega⟩
        have hbefore := List.rel_of_pairwise_cons (List.isChain_iff_pairwise.mp h) hmem
        omega
      rw [contains, if_neg hskip]
      exact ih h.tail hmem

end CharTable

/-! ### The letters of a mapping -/

namespace CaseRun

/-- How many letters a run has. -/
def size (r : CaseRun) : Nat := (r.last - r.first) / r.step + 1

/-- The letters of a run. -/
def letters (r : CaseRun) : List Nat := List.range' r.first r.size r.step

/-- The characters that the letters of a run map to. -/
def targets (r : CaseRun) : List Nat := List.range' r.target r.size r.step

theorem find?_eq_some {runs : List CaseRun} {n m : Nat} (h : find? runs n = some m) :
    n ∈ runs.flatMap letters ∧ m ∈ runs.flatMap targets := by
  induction runs with
  | nil => cases h
  | cons r runs ih =>
    rw [List.flatMap_cons, List.flatMap_cons, List.mem_append, List.mem_append]
    rw [find?] at h
    split at h
    · next hlast =>
      split at h
      · next hmember =>
        cases h
        have hoffset : n - r.first = r.step * ((n - r.first) / r.step) :=
          (Nat.mul_div_cancel' (Nat.dvd_of_mod_eq_zero hmember.2)).symm
        have hlt : (n - r.first) / r.step < r.size :=
          Nat.lt_succ_of_le (Nat.div_le_div_right (Nat.sub_le_sub_right hlast r.first))
        refine ⟨.inl (List.mem_range'.mpr ⟨_, hlt, ?_⟩), .inl (List.mem_range'.mpr ⟨_, hlt, ?_⟩)⟩
        · omega
        · omega
      · cases h
    · exact (ih h).imp Or.inr Or.inr

end CaseRun

namespace Text

/-- The letters that a mapping lists. -/
def mappedLetters (sequences : List (Nat × List Nat)) (runs : List CaseRun) : List Nat :=
  runs.flatMap CaseRun.letters ++ sequences.map (·.1)

/-- The characters that occur in what a mapping lists for its letters. -/
def mappedTo (sequences : List (Nat × List Nat)) (runs : List CaseRun) : List Nat :=
  runs.flatMap CaseRun.targets ++ sequences.flatMap (·.2)

/-- The blank characters. -/
def blanks : CharTable :=
  [(0x9, 0xD), (0x20, 0x20), (0x85, 0x85), (0xA0, 0xA0), (0x1680, 0x1680), (0x2000, 0x200A),
    (0x2028, 0x2029), (0x202F, 0x202F), (0x205F, 0x205F), (0x3000, 0x3000)]

theorem testBit_blanks {c : Char} (h : isBlank c) : blanks.bits.testBit c.toNat := by
  simp only [isBlank, Bool.or_eq_true, Bool.and_eq_true, decide_eq_true_eq, beq_iff_eq] at h
  rw [CharTable.testBit_bits]
  simp only [blanks, List.exists_mem_cons_iff, List.not_mem_nil, false_and, exists_false, or_false]
  omega

/-- What the tables of a mapping have to satisfy for its forms to be final. -/
structure Final (sequences : List (Nat × List Nat)) (runs : List CaseRun) : Prop where
  valid : ∀ n ∈ mappedTo sequences runs, n.isValidChar
  /-- No character that a letter is mapped to is mapped further. -/
  apart : codeBits (mappedTo sequences runs) &&& codeBits (mappedLetters sequences runs) = 0
  notBlank : codeBits (mappedTo sequences runs) &&& blanks.bits = 0
  alphanumeric : codeBits (runs.flatMap CaseRun.targets) ||| alphanumerics.bits = alphanumerics.bits
  several : ∀ s ∈ sequences, 2 ≤ s.2.length

theorem final_capital : Final capitalSequences capitalRuns := by
  constructor <;> decide +kernel

theorem final_small : Final smallSequences smallRuns := by
  constructor <;> decide +kernel

theorem ascending_alphanumerics : alphanumerics.Ascending := by
  unfold CharTable.Ascending
  decide +kernel

section Mapping

variable {sequences : List (Nat × List Nat)} {runs : List CaseRun} {c d : Char}

theorem mapLetter_of_notMem (h : c.toNat ∉ mappedLetters sequences runs) :
    mapLetter sequences runs c = [c] := by
  rw [mappedLetters, List.mem_append, not_or] at h
  have hsequences : sequences.lookup c.toNat = none := by
    rw [List.lookup_eq_none_iff]
    intro s hs
    rw [bne_iff_ne]
    intro heq
    exact h.2 (List.mem_map.mpr ⟨s, hs, heq.symm⟩)
  have hruns : CaseRun.find? runs c.toNat = none := by
    rw [Option.eq_none_iff_forall_not_mem]
    exact fun m hm => h.1 (CaseRun.find?_eq_some hm).1
  rw [mapLetter, hsequences, hruns]

/-- A letter is mapped to itself, to a character that its run lists, or to its sequence. -/
theorem mapLetter_cases (sequences : List (Nat × List Nat)) (runs : List CaseRun) (c : Char) :
    mapLetter sequences runs c = [c] ∨
      (∃ n ∈ runs.flatMap CaseRun.targets, mapLetter sequences runs c = [Char.ofNat n]) ∨
      ∃ s ∈ sequences, mapLetter sequences runs c = s.2.map Char.ofNat := by
  rw [mapLetter]
  cases hsequence : sequences.lookup c.toNat with
  | some ns =>
    obtain ⟨l₁, l₂, heq, -⟩ := List.lookup_eq_some_iff.mp hsequence
    exact .inr (.inr ⟨(c.toNat, ns), by simp [heq], rfl⟩)
  | none =>
    cases hrun : CaseRun.find? runs c.toNat with
    | some n => exact .inr (.inl ⟨n, (CaseRun.find?_eq_some hrun).2, rfl⟩)
    | none => exact .inl rfl

/-- A character of a form is the letter itself or one that the mapping lists. -/
theorem mem_mapLetter (h : d ∈ mapLetter sequences runs c) :
    mapLetter sequences runs c = [d] ∧ d = c ∨
      ∃ n ∈ mappedTo sequences runs, d = Char.ofNat n := by
  obtain heq | ⟨n, hn, heq⟩ | ⟨s, hs, heq⟩ := mapLetter_cases sequences runs c
  · rw [heq, List.mem_singleton] at h
    exact .inl ⟨h ▸ heq, h⟩
  · rw [heq, List.mem_singleton] at h
    exact .inr ⟨n, List.mem_append_left _ hn, h⟩
  · rw [heq] at h
    obtain ⟨n, hn, rfl⟩ := List.mem_map.mp h
    exact .inr ⟨n, List.mem_append_right _ (List.mem_flatMap.mpr ⟨s, hs, hn⟩), rfl⟩

namespace Final

variable (h : Final sequences runs)

include h

theorem toNat_ofNat {n : Nat} (hn : n ∈ mappedTo sequences runs) : (Char.ofNat n).toNat = n := by
  rw [Char.ofNat, dif_pos (h.valid n hn)]
  rfl

/-- **Forms are their own forms.** -/
theorem mapLetter_of_mem (hd : d ∈ mapLetter sequences runs c) :
    mapLetter sequences runs d = [d] := by
  obtain ⟨heq, rfl⟩ | ⟨n, hn, rfl⟩ := mem_mapLetter hd
  · exact heq
  · apply mapLetter_of_notMem
    rw [h.toNat_ofNat hn, ← testBit_codeBits]
    exact not_testBit_of_and_eq_zero h.apart ((testBit_codeBits _ n).mpr hn)

theorem isBlank_of_mem (hc : ¬isBlank c) (hd : d ∈ mapLetter sequences runs c) : ¬isBlank d := by
  obtain ⟨-, rfl⟩ | ⟨n, hn, rfl⟩ := mem_mapLetter hd
  · exact hc
  · intro hblank
    have hbit := testBit_blanks hblank
    rw [h.toNat_ofNat hn] at hbit
    exact not_testBit_of_and_eq_zero h.notBlank ((testBit_codeBits _ n).mpr hn) hbit

theorem mapLetter_ne_nil (c : Char) : mapLetter sequences runs c ≠ [] := by
  obtain heq | ⟨n, -, heq⟩ | ⟨s, hs, heq⟩ := mapLetter_cases sequences runs c
  · rw [heq]
    exact List.cons_ne_nil c []
  · rw [heq]
    exact List.cons_ne_nil _ []
  · have hlength := h.several s hs
    rw [heq, Ne, List.map_eq_nil_iff]
    rintro hnil
    rw [hnil] at hlength
    exact absurd hlength (by decide)

theorem isAlphanumeric_of_eq_singleton (hc : isAlphanumeric c)
    (heq : mapLetter sequences runs c = [d]) : isAlphanumeric d := by
  obtain hself | ⟨n, hn, hrun⟩ | ⟨s, hs, hsequence⟩ := mapLetter_cases sequences runs c
  · rw [hself] at heq
    rwa [← List.singleton_inj.mp heq]
  · rw [hrun] at heq
    rw [← List.singleton_inj.mp heq]
    have hbit := testBit_of_or_eq h.alphanumeric ((testBit_codeBits _ n).mpr hn)
    obtain ⟨run, hmem, hfirst, hlast⟩ := (CharTable.testBit_bits alphanumerics n).mp hbit
    rw [← h.toNat_ofNat (List.mem_append_left _ hn)] at hfirst hlast
    exact CharTable.contains_of_mem ascending_alphanumerics hmem hfirst hlast
  · have hlength := h.several s hs
    rw [← List.length_map Char.ofNat, ← hsequence, heq, List.length_singleton] at hlength
    exact absurd hlength (by decide)

end Final

end Mapping

end Text

end AgentRules
