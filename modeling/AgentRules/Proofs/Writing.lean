/-
  Every well-formed term can be written.

  What the grammar allows is enough: each part that is well-formed has tokens, the numbers of
  its ranges their usual digits, and without any blanks the tokens make up a text
  (`Term.WellFormed.exists_writtenIn`). So a statement about all texts that write a term out
  is about at least one text for each well-formed term.

  For a word range this text is the form that it is shown in, so what is shown of it is read
  back (`WordRange.Parseable.read_render`).
-/
import AgentRules.Proofs.WellFormed

namespace AgentRules

open Text

/-- Tokens are spelled by their characters, without any blanks. -/
theorem spells_chars (ts : List Token) : Spells ts (ts.flatMap Token.chars) [] := by
  have hblanks : (ts.map fun t => (([] : List Char), t)).all fun p => p.1.all isBlank := by simp
  have hspells := spells_flatMap hblanks []
  simpa [List.flatMap_map, Function.comp_def] using hspells

/-! ### Word ranges -/

theorem Numeral.toDigits (n : Nat) : Numeral n (Nat.toDigits 10 n) where
  nonempty := Nat.toDigits_ne_nil
  digits c hc := by
    have hdigit := Nat.isDigit_of_mem_toDigits (by decide) (by decide) hc
    simp only [Char.isDigit, Bool.and_eq_true, decide_eq_true_eq, ge_iff_le, UInt32.le_iff_toNat_le]
      at hdigit
    simpa [isAsciiDigit] using hdigit
  value := Nat.ofDigitChars_ten_toDigits

theorem toDigits_injective {m n : Nat} (h : Nat.toDigits 10 m = Nat.toDigits 10 n) : m = n := by
  have hvalue := (Numeral.toDigits m).value
  rwa [h, (Numeral.toDigits n).value, eq_comm] at hvalue

namespace WordRange

/-- The written form of a word range is made up of its tokens, without any blanks. -/
theorem Parseable.render_eq {r : WordRange} (h : r.Parseable) :
    ∃ ts, r.WrittenAs ts ∧ r.render.toList = ts.flatMap Token.chars := by
  have hpos : ∀ n : Nat, (n : Int).repr.toList = Nat.toDigits 10 n := fun n => Nat.toList_repr
  have hneg : ∀ n : Nat, 0 < n → (-(n : Int)).repr.toList = '-' :: Nat.toDigits 10 n := by
    intro n hn
    obtain ⟨m, rfl⟩ : ∃ m, n = m + 1 := ⟨n - 1, by omega⟩
    have hstring : (-((m + 1 : Nat) : Int)).repr = "-" ++ (m + 1).repr := rfl
    rw [hstring, String.toList_append, Nat.toList_repr]
    rfl
  have hdash : (toString "-").toList = ['-'] := rfl
  cases h with
  | @word n => exact ⟨_, .word (.toDigits n), by simp [render, hpos, Token.chars]⟩
  | @fromEnd n hn => exact ⟨_, .fromEnd hn (.toDigits n), by simp [render, hneg n hn, Token.chars]⟩
  | @between a b =>
    by_cases hab : (b : Int) = a
    · rw [hab]
      exact ⟨_, .word (.toDigits a), by simp [render, hpos, Token.chars]⟩
    · exact ⟨_, .between (.toDigits a) (.toDigits b), by
        simp [render, hab, hpos, hdash, Token.chars]⟩
  | @onward a => exact ⟨_, .onward (.toDigits a), by simp [render, hpos, hdash, Token.chars]⟩

theorem Parseable.exists_writtenAs {r : WordRange} (h : r.Parseable) : ∃ ts, r.WrittenAs ts := by
  obtain ⟨ts, hts, -⟩ := h.render_eq
  exact ⟨ts, hts⟩

theorem Parseable.bracket_notMem {r : WordRange} (h : r.Parseable) : ']' ∉ r.render.toList := by
  obtain ⟨ts, hts, heq⟩ := h.render_eq
  rw [heq, List.mem_flatMap]
  rintro ⟨t, ht, hmem⟩
  exact hts.notMem t ht hmem

/-- **The written form of a word range is read back.** -/
theorem Parseable.read_render {r : WordRange} (h : r.Parseable) : read r.render.toList = .ok r := by
  obtain ⟨ts, hts, heq⟩ := h.render_eq
  rw [heq]
  exact read_complete h hts (spells_chars ts) (by simp)

/-- **Word ranges that have a written form are written differently.** -/
theorem Parseable.render_inj {r s : WordRange} (hr : r.Parseable) (hs : s.Parseable)
    (h : r.render.toList = s.render.toList) : r = s := by
  have hread := hr.read_render
  rw [h, hs.read_render] at hread
  exact (Except.ok.inj hread).symm

end WordRange

/-! ### Paths -/

theorem PathStep.WellFormed.exists_writtenAs {step : PathStep} (h : step.WellFormed) :
    ∃ ts, step.WrittenAs ts := by
  cases step with
  | down kind range =>
    exact ⟨_, .downRange (.between (.toDigits range.first) (.toDigits range.last))⟩
  | test t text => exact ⟨_, .test t text⟩
  | words range =>
    obtain ⟨ts, hts⟩ := WordRange.Parseable.exists_writtenAs h
    exact ⟨_, .words hts⟩

theorem PathStep.exists_allWrittenAs {steps : List PathStep}
    (h : ∀ step ∈ steps, step.WellFormed) : ∃ ts, AllWrittenAs steps ts := by
  induction steps with
  | nil => exact ⟨_, .nil⟩
  | cons step steps ih =>
    obtain ⟨hstep, hsteps⟩ := List.forall_mem_cons.mp h
    obtain ⟨ts, hts⟩ := hstep.exists_writtenAs
    obtain ⟨ts', hts'⟩ := ih hsteps
    exact ⟨_, .cons hts hts'⟩

theorem Path.WellFormed.exists_writtenAs {p : Path} (h : p.WellFormed) : ∃ ts, p.WrittenAs ts := by
  cases p with
  | literal text => exact ⟨_, .literal text⟩
  | fromRoot steps =>
    obtain ⟨rest, rfl, hrest⟩ := h
    obtain ⟨ts, hts⟩ := PathStep.exists_allWrittenAs hrest
    exact ⟨_, .fromRoot hts⟩
  | fromVariable name steps =>
    obtain ⟨ts, hts⟩ := PathStep.exists_allWrittenAs h.2
    exact ⟨_, .fromVariable name hts⟩

/-! ### Terms -/

/-- Only a concatenation without any text is no function that can be written. -/
theorem Wrapper.Fits.exists_arguments {w : Wrapper} {t : Term} (h : w.Fits t)
    (hw : w.isWords = false) (ts : List Token) : ∃ f args, w.Arguments ts f args := by
  cases w with
  | isNull => exact ⟨_, _, .isNull⟩
  | concat before after =>
    cases before with
    | some before => exact ⟨_, _, .concat before after⟩
    | none =>
      cases after with
      | some after => exact ⟨_, _, .concatAfter after⟩
      | none => exact h.elim
  | normalizeBrand => exact ⟨_, _, .normalizeBrand⟩
  | cleanVersion => exact ⟨_, _, .cleanVersion⟩
  | lookUp table default => exact ⟨_, _, .lookUp table default⟩
  | lookUpPrefix table default => exact ⟨_, _, .lookUpPrefix table default⟩
  | isInLookUpPrefix table => exact ⟨_, _, .isInLookUpPrefix table⟩
  | words range => cases hw

namespace Term

/-- Functions that fit are written from the inside out. For the words of what a function gives
    the function has to be known together with what is inside it, so both are carried along. -/
theorem exists_writtenAs {p : Path} (hp : p.WellFormed) {ws : List Wrapper}
    (hfits : ∀ v vs, v :: vs <:+ ws → v.Fits ⟨vs, p⟩) :
    (∃ ts, WrittenAs ⟨ws, p⟩ ts) ∧
      ∀ v vs, ws = v :: vs → v.isWords = false →
        ∃ ts f args, WrittenAs ⟨vs, p⟩ ts ∧ v.Arguments ts f args := by
  induction ws with
  | nil =>
    obtain ⟨ts, hts⟩ := hp.exists_writtenAs
    exact ⟨⟨ts, .path hts⟩, fun v vs h => nomatch h⟩
  | cons w ws ih =>
    obtain ⟨hfit, hfits⟩ := (fits_wrap (t := ⟨ws, p⟩)).mp hfits
    obtain ⟨⟨ts, hts⟩, hfunction⟩ := ih hfits
    cases hw : w.isWords with
    | false =>
      obtain ⟨f, args, hargs⟩ := hfit.exists_arguments hw ts
      refine ⟨⟨_, .function hts hargs⟩, fun v vs h _ => ?_⟩
      cases h
      exact ⟨ts, f, args, hts, hargs⟩
    | true =>
      cases w with
      | words range =>
        -- The words are written behind the brackets of the function inside.
        obtain ⟨hrange, v, vs, rfl, -, hv⟩ := hfit
        obtain ⟨rs, hrs⟩ := hrange.exists_writtenAs
        obtain ⟨ts', f, args, hts', hargs⟩ := hfunction v vs rfl hv
        refine ⟨⟨_, .functionWords hts' hargs hrs⟩, fun u us h hu => ?_⟩
        cases h
        cases hu
      | _ => cases hw

/-- **Every well-formed term is written out in some text.** -/
theorem WellFormed.exists_writtenIn {t : Term} (h : t.WellFormed) : ∃ text, t.WrittenIn text := by
  obtain ⟨ts, hts⟩ := (exists_writtenAs h.path h.fits).1
  refine ⟨String.ofList (ts.flatMap Token.chars), ts, [], hts, ?_, by simp⟩
  rw [String.toList_ofList]
  exact spells_chars ts

end Term

end AgentRules
