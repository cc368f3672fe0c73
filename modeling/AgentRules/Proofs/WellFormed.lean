/-
  Whatever is read is well-formed.

  Each reader answers only with parts that are well-formed, which carries over from the
  smaller readers to the bigger ones. The reader for terms runs on the levels of nesting
  that are left, so it is shown by induction on them what it answers (`term_sound`): a term
  with fewer functions than there are levels, which has a check for a missing value only
  where one is allowed. `Term.Within` says this for any number of levels; with all levels it
  is what a well-formed term is.

  A well-formed term is compiled unless a table is missing or the functions make no sense over
  a literal (`Term.WellFormed.refused`). Both together are `Expression.parse_sound`.
-/
import AgentRules.Program.Compile
import AgentRules.Proofs.RangeText

namespace AgentRules

open Text

/-! ### Terms within levels -/

namespace Term

/-- A term that may stand where `levels` levels of nesting are left. Where `top` is false the
    check for a missing value may not stand at all. -/
structure Within (levels : Nat) (top : Bool) (t : Term) : Prop where
  isNull : .isNull ∉ if top then t.wrappers.tail else t.wrappers
  fits : ∀ w ws, w :: ws <:+ t.wrappers → w.Fits ⟨ws, t.path⟩
  path : t.path.WellFormed
  nesting : t.functions < levels

variable {t : Term} {w : Wrapper} {levels : Nat} {top : Bool}

theorem wellFormed_iff : t.WellFormed ↔ t.Within maxNesting true :=
  ⟨fun h => ⟨h.isNull_outermost, h.fits, h.path, h.nesting⟩,
    fun h => ⟨h.isNull, h.fits, h.path, h.nesting⟩⟩

theorem within_bare {p : Path} : Within (levels + 1) top ⟨[], p⟩ ↔ p.WellFormed := by
  refine ⟨fun h => h.path, fun h => ⟨by cases top <;> simp, fun w ws hsuffix => ?_, h, ?_⟩⟩
  · exact absurd (List.suffix_nil.mp hsuffix) (List.cons_ne_nil w ws)
  · exact Nat.succ_pos levels

/-- All functions of a wrapped term fit when the outermost does and all inside do. -/
theorem fits_wrap :
    (∀ v vs, v :: vs <:+ (t.wrap w).wrappers → v.Fits ⟨vs, t.path⟩) ↔
      w.Fits t ∧ ∀ v vs, v :: vs <:+ t.wrappers → v.Fits ⟨vs, t.path⟩ := by
  simp only [wrap, List.suffix_cons_iff, List.cons.injEq]
  constructor
  · intro h
    exact ⟨h w t.wrappers (.inl ⟨rfl, rfl⟩), fun v vs hsuffix => h v vs (.inr hsuffix)⟩
  · rintro ⟨hw, h⟩ v vs (⟨rfl, rfl⟩ | hsuffix)
    · exact hw
    · exact h v vs hsuffix

/-- **A function takes one level**, and only the outermost may be the check for a missing
    value. -/
theorem within_wrap (hw : w.isWords = false) :
    (t.wrap w).Within (levels + 1) top ↔
      (w = .isNull → top = true) ∧ w.Fits t ∧ t.Within levels false := by
  have hfunctions : (t.wrap w).functions = t.functions + 1 := by
    simp [functions, wrap, hw]
  have hisNull : (.isNull ∉ if top then (t.wrap w).wrappers.tail else (t.wrap w).wrappers) ↔
      (w = .isNull → top = true) ∧ .isNull ∉ t.wrappers := by
    cases top with
    | true => simp [wrap]
    | false => simp [wrap, eq_comm]
  constructor
  · intro h
    obtain ⟨htop, hin⟩ := hisNull.mp h.isNull
    obtain ⟨hfit, hfits⟩ := fits_wrap.mp h.fits
    have hnesting := h.nesting
    rw [hfunctions] at hnesting
    exact ⟨htop, hfit, hin, hfits, h.path, Nat.lt_of_succ_lt_succ hnesting⟩
  · rintro ⟨htop, hfit, h⟩
    refine ⟨hisNull.mpr ⟨htop, h.isNull⟩, fits_wrap.mpr ⟨hfit, h.fits⟩, h.path, ?_⟩
    rw [hfunctions]
    exact Nat.succ_lt_succ h.nesting

/-- Words of what a function gives take no level. -/
theorem within_words {range : WordRange} :
    ((t.wrap w).wrap (.words range)).Within levels top ↔
      range.Parseable ∧ w ≠ .isNull ∧ w.isWords = false ∧ (t.wrap w).Within levels top := by
  have hfunctions : ((t.wrap w).wrap (.words range)).functions = (t.wrap w).functions := by
    simp [functions, wrap, Wrapper.isWords]
  have hfit : (Wrapper.words range).Fits (t.wrap w) ↔
      range.Parseable ∧ w ≠ .isNull ∧ w.isWords = false := by
    simp [Wrapper.Fits, wrap]
  have hisNull (hw : w ≠ .isNull) :
      (.isNull ∉ if top then ((t.wrap w).wrap (.words range)).wrappers.tail
        else ((t.wrap w).wrap (.words range)).wrappers) ↔
      .isNull ∉ if top then (t.wrap w).wrappers.tail else (t.wrap w).wrappers := by
    cases top <;> simp [wrap, hw.symm]
  constructor
  · intro h
    obtain ⟨hwords, hfits⟩ := fits_wrap.mp h.fits
    obtain ⟨hrange, hnull, hw⟩ := hfit.mp hwords
    exact ⟨hrange, hnull, hw, (hisNull hnull).mp h.isNull, hfits, h.path, hfunctions ▸ h.nesting⟩
  · rintro ⟨hrange, hnull, hw, h⟩
    exact ⟨(hisNull hnull).mpr h.isNull, fits_wrap.mpr ⟨hfit.mpr ⟨hrange, hnull, hw⟩, h.fits⟩,
      h.path, hfunctions ▸ h.nesting⟩

end Term

/-! ### Readers for steps -/

namespace Reading

theorem name_sound {cs rest : List Char} {s : String} (h : name cs = .ok (s, rest)) :
    IsName s := by
  unfold name at h
  split at h
  · cases h
  · next c word htake =>
    cases h
    rw [IsName, String.toList_ofList]
    refine ⟨List.cons_ne_nil c word, fun d hd => ?_⟩
    rw [← htake] at hd
    exact List.all_eq_true.mp List.all_takeWhile d hd

theorem wordRange_sound {cs rest : List Char} {range : WordRange}
    (h : wordRange cs = .ok (range, rest)) : range.Parseable := by
  obtain ⟨⟨text, rest'⟩, -, h⟩ := bind_eq_ok h
  dsimp only at h
  split at h
  · next hparse =>
    cases h
    exact WordRange.read_sound (mapError_eq_ok.mp hparse)
  · cases h

theorem descent_sound {cs rest : List Char} {step : PathStep} (h : descent cs = .ok (step, rest)) :
    step.WellFormed := by
  obtain ⟨⟨range, cs'⟩, -, h⟩ := bind_eq_ok h
  obtain ⟨⟨label, rest'⟩, -, h⟩ := bind_eq_ok h
  dsimp only at h
  split at h
  · cases h
  · next kind hkind =>
    have hagent : kind ≠ .agent := by simpa using (Option.filter_eq_some_iff.mp hkind).2
    split at h
    · cases h
      exact ⟨hagent, ChildRange.bounded_usual kind⟩
    · split at h
      · next hparse =>
        cases h
        exact ⟨hagent, ChildRange.read_sound (mapError_eq_ok.mp hparse)⟩
      · cases h

theorem operand_sound {t : Test} {cs rest : List Char} {step : PathStep}
    (h : operand t cs = .ok (step, rest)) : step.WellFormed := by
  obtain ⟨⟨text, rest'⟩, -, h⟩ := bind_eq_ok h
  cases h
  trivial

theorem step?_sound {cs rest : List Char} {step : PathStep}
    (h : step? cs = .ok (some step, rest)) : step.WellFormed := by
  unfold step? at h
  split at h
  case h_1 =>
    obtain ⟨⟨_, _⟩, hd, h⟩ := bind_eq_ok h
    cases h
    exact descent_sound hd
  case h_3 =>
    obtain ⟨_, -, h⟩ := bind_eq_ok h
    obtain ⟨⟨_, _⟩, hop, h⟩ := bind_eq_ok h
    cases h
    exact operand_sound hop
  case h_7 =>
    obtain ⟨⟨_, _⟩, hw, h⟩ := bind_eq_ok h
    cases h
    exact wordRange_sound hw
  case h_8 => cases h
  all_goals
    obtain ⟨⟨_, _⟩, hop, h⟩ := bind_eq_ok h
    cases h
    exact operand_sound hop

theorem steps_sound {cs rest : List Char} {ss : List PathStep} (h : steps cs = .ok (ss, rest)) :
    ∀ step ∈ ss, step.WellFormed := by
  fun_induction steps cs generalizing ss with
  | case1 => cases h
  | case2 => cases h; simp
  | case3 cs step rest' hstep ih =>
    obtain ⟨⟨ss, _⟩, hss, h⟩ := bind_eq_ok h
    cases h
    exact List.forall_mem_cons.mpr ⟨step?_sound hstep, ih hss⟩

/-! ### Readers for functions

The reader `inner` for the term inside answers with terms that fit into the levels left. It
answers with a literal alone only where the text starts with one. -/

section Functions

variable {inner : TermReader} {levels : Nat} {cs rest : List Char} {t : Term}

/-- What a reader for terms answers with. -/
structure Sound (read : TermReader) (levels : Nat) (top : Bool) : Prop where
  within {cs rest : List Char} {t : Term} (h : read cs = .ok (t, rest)) : t.Within levels top
  quote {cs rest : List Char} {text : String} (h : read cs = .ok (⟨[], .literal text⟩, rest)) :
    ∃ body, skipBlanks cs = '"' :: body

theorem concatArguments_sound (hinner : Sound inner levels false)
    (h : concatArguments inner cs = .ok (t, rest)) :
    ∃ before after, ∃ u : Term, t = u.wrap (.concat before after) ∧
      (Wrapper.concat before after).Fits u ∧ u.Within levels false := by
  unfold concatArguments at h
  split at h
  · next body hquote =>
    obtain ⟨⟨before, cs₁⟩, -, h⟩ := bind_eq_ok h
    obtain ⟨cs₂, -, h⟩ := bind_eq_ok h
    obtain ⟨⟨u, cs₃⟩, hu, h⟩ := bind_eq_ok h
    obtain ⟨⟨after, cs₄⟩, -, h⟩ := bind_eq_ok h
    cases h
    exact ⟨some before, after, u, rfl, trivial, hinner.within hu⟩
  · next hquote =>
    obtain ⟨⟨u, cs₁⟩, hu, h⟩ := bind_eq_ok h
    obtain ⟨cs₂, -, h⟩ := bind_eq_ok h
    obtain ⟨⟨after, cs₃⟩, -, h⟩ := bind_eq_ok h
    cases h
    refine ⟨none, some after, u, rfl, fun text htext => ?_, hinner.within hu⟩
    -- A literal alone would have been read as the text before.
    obtain ⟨body, hbody⟩ := hinner.quote (htext ▸ hu)
    rw [skipBlanks_skipBlanks] at hbody
    exact hquote body hbody

theorem tableArguments_sound {table : String} (hinner : Sound inner levels false)
    (h : tableArguments inner cs = .ok ((table, t), rest)) :
    IsName table ∧ t.Within levels false := by
  obtain ⟨⟨label, cs₁⟩, hname, h⟩ := bind_eq_ok h
  obtain ⟨cs₂, -, h⟩ := bind_eq_ok h
  obtain ⟨⟨u, cs₃⟩, hu, h⟩ := bind_eq_ok h
  cases h
  exact ⟨name_sound hname, hinner.within hu⟩

/-- **The arguments of a function give the function over a term inside its brackets.** -/
theorem arguments_sound {f : FunctionName} (hinner : Sound inner levels false)
    (h : arguments inner f cs = .ok (t, rest)) :
    ∃ (w : Wrapper) (u : Term), t = u.wrap w ∧ w.Fits u ∧ u.Within levels false ∧
      w.isWords = false ∧ (w = .isNull ↔ f = .isNull) := by
  cases f with
  | isNull =>
    obtain ⟨⟨u, _⟩, hu, h⟩ := bind_eq_ok h
    cases h
    exact ⟨_, u, rfl, trivial, hinner.within hu, rfl, by simp⟩
  | concat =>
    obtain ⟨before, after, u, rfl, hfit, hu⟩ := concatArguments_sound hinner h
    exact ⟨_, u, rfl, hfit, hu, rfl, by simp⟩
  | normalizeBrand | cleanVersion =>
    obtain ⟨⟨u, _⟩, hu, h⟩ := bind_eq_ok h
    cases h
    exact ⟨_, u, rfl, trivial, hinner.within hu, rfl, by simp⟩
  | lookUp | lookUpPrefix =>
    obtain ⟨⟨⟨table, u⟩, _⟩, hu, h⟩ := bind_eq_ok h
    obtain ⟨htable, hwithin⟩ := tableArguments_sound hinner hu
    obtain ⟨⟨default, _⟩, -, h⟩ := bind_eq_ok h
    cases h
    exact ⟨_, u, rfl, htable, hwithin, rfl, by simp⟩
  | isInLookUpPrefix =>
    obtain ⟨⟨⟨table, u⟩, _⟩, hu, h⟩ := bind_eq_ok h
    obtain ⟨htable, hwithin⟩ := tableArguments_sound hinner hu
    cases h
    exact ⟨_, u, rfl, htable, hwithin, rfl, by simp⟩

/-- A function takes one level, and the words of what it gives none. -/
theorem function_sound {f : FunctionName} {top : Bool} (hinner : Sound inner levels false)
    (htop : f = .isNull → top = true) (h : function inner f cs = .ok (t, rest)) :
    t.Within (levels + 1) top ∧ t.wrappers ≠ [] := by
  obtain ⟨cs₁, -, h⟩ := bind_eq_ok h
  obtain ⟨⟨u, cs₂⟩, hargs, h⟩ := bind_eq_ok h
  obtain ⟨cs₃, -, h⟩ := bind_eq_ok h
  obtain ⟨w, v, rfl, hfit, hv, hwords, hnull⟩ := arguments_sound hinner hargs
  -- The brackets take the level, whether or not words follow them.
  have hwithin : (v.wrap w).Within (levels + 1) top :=
    (Term.within_wrap hwords).mpr ⟨htop ∘ hnull.mp, hfit, hv⟩
  dsimp only at h
  split at h
  · cases h
    exact ⟨hwithin, List.cons_ne_nil _ _⟩
  · next hf =>
    split at h
    · obtain ⟨⟨range, _⟩, hrange, h⟩ := bind_eq_ok h
      cases h
      have hw : w ≠ .isNull := fun hw => hf (hnull.mp hw)
      exact ⟨Term.within_words.mpr ⟨wordRange_sound hrange, hw, hwords, hwithin⟩,
        List.cons_ne_nil _ _⟩
    · cases h
      exact ⟨hwithin, List.cons_ne_nil _ _⟩

theorem named_sound {top : Bool} (hinner : Sound inner levels false)
    (h : named inner top cs = .ok (t, rest)) :
    t.Within (levels + 1) top ∧ ∀ text, t ≠ ⟨[], .literal text⟩ := by
  obtain ⟨⟨label, cs₁⟩, -, h⟩ := bind_eq_ok h
  dsimp only at h
  split at h
  · obtain ⟨⟨ss, cs₂⟩, hsteps, h⟩ := bind_eq_ok h
    cases h
    exact ⟨Term.within_bare.mpr ⟨ss, rfl, steps_sound hsteps⟩, fun text => by simp⟩
  · split at h
    · cases h
    · next f _ =>
      split at h
      · cases h
      · next htop =>
        have hnull : f = .isNull → top = true := by simpa using htop
        obtain ⟨hwithin, hne⟩ := function_sound hinner hnull h
        exact ⟨hwithin, fun text htext => hne (htext ▸ rfl)⟩

end Functions

/-! ### Terms -/

/-- **Whatever is read as a term fits into the levels left.** -/
theorem term_sound (levels : Nat) (top : Bool) : Sound (term levels top) levels top := by
  induction levels generalizing top with
  | zero => exact ⟨nofun, nofun⟩
  | succ levels ih =>
    -- The first character decides what is read, and with it where a literal alone may come from.
    have hterm {cs rest : List Char} {t : Term} (h : term (levels + 1) top cs = .ok (t, rest)) :
        t.Within (levels + 1) top ∧
          ∀ text, t = ⟨[], .literal text⟩ → ∃ body, skipBlanks cs = '"' :: body := by
      unfold term at h
      split at h
      · next body hquote =>
        obtain ⟨⟨text, _⟩, -, h⟩ := bind_eq_ok h
        cases h
        exact ⟨Term.within_bare.mpr trivial, fun _ _ => ⟨body, hquote⟩⟩
      · obtain ⟨⟨label, _⟩, hname, h⟩ := bind_eq_ok h
        obtain ⟨⟨ss, _⟩, hsteps, h⟩ := bind_eq_ok h
        cases h
        exact ⟨Term.within_bare.mpr ⟨name_sound hname, steps_sound hsteps⟩, by simp⟩
      · split at h
        · obtain ⟨hwithin, hne⟩ := named_sound (ih false) h
          exact ⟨hwithin, fun text htext => absurd htext (hne text)⟩
        · cases h
      · cases h
    exact ⟨fun h => (hterm h).1, fun h => (hterm h).2 _ rfl⟩

theorem wholeText_sound {cs : List Char} {t : Term} (h : wholeText cs = .ok t) : t.WellFormed := by
  obtain ⟨⟨u, rest⟩, hterm, h⟩ := bind_eq_ok h
  dsimp only at h
  split at h
  · cases h
    exact Term.wellFormed_iff.mpr ((term_sound maxNesting true).within hterm)
  · cases h

end Reading

/-! ### Compiling what is well-formed -/

/-- Of the functions other than the check for a missing value, only those that look into a
    table may have no step, and only for want of the table. -/
theorem Wrapper.compile_error {lookups : Lookups} {w : Wrapper} {fault : CompileFault}
    (hw : w ≠ .isNull) (h : w.compile lookups = .error fault) :
    ∃ table, w.table? = some table ∧ lookups.get? table = none ∧ fault = .unknownTable table := by
  have hrequire {α : Type} {table : String} {f : LookupTable → α}
      (h : (lookups.require table).map f = .error fault) :
      lookups.get? table = none ∧ fault = .unknownTable table := by
    unfold Lookups.require at h
    split at h
    · cases h
    · next hnone => cases h; exact ⟨hnone, rfl⟩
  cases w with
  | isNull => exact absurd rfl hw
  | lookUp table default | lookUpPrefix table default | isInLookUpPrefix table =>
    exact ⟨table, rfl, hrequire h⟩
  | _ => cases h

theorem Wrapper.compileAll_error {lookups : Lookups} {ws : List Wrapper} {fault : CompileFault}
    (hnull : .isNull ∉ ws) (h : compileAll lookups ws = .error fault) :
    ∃ w ∈ ws, ∃ table, w.table? = some table ∧ lookups.get? table = none ∧
      fault = .unknownTable table := by
  induction ws with
  | nil => cases h
  | cons w ws ih =>
    rw [List.mem_cons, not_or] at hnull
    unfold compileAll at h
    split at h
    · next hw =>
      cases h
      exact ⟨w, List.mem_cons_self, compile_error (Ne.symm hnull.1) hw⟩
    · cases hws : compileAll lookups ws with
      | ok steps => rw [hws] at h; cases h
      | error fault' =>
        rw [hws] at h
        cases h
        obtain ⟨v, hv, hfault⟩ := ih hnull.2 hws
        exact ⟨v, List.mem_cons_of_mem w hv, hfault⟩

/-- Steps on a literal fail at the first of them that makes nothing of what those before it
    made. -/
theorem Step.foldLiteral_error {literal value : String} {steps : List Step} {fault : CompileFault}
    (h : foldLiteral literal value steps = .error fault) :
    ∃ before step after made, steps = before ++ step :: after ∧
      foldLiteral literal value before = .ok made ∧ step.transform made = none ∧
      fault = .noValue step literal := by
  induction steps generalizing value with
  | nil => cases h
  | cons step steps ih =>
    unfold foldLiteral at h
    split at h
    · next made hmade =>
      obtain ⟨before, failing, after, last, rfl, hbefore, hnone, rfl⟩ := ih h
      refine ⟨step :: before, failing, after, last, rfl, ?_, hnone, rfl⟩
      rw [foldLiteral, hmade]
      exact hbefore
    · next hnone =>
      cases h
      exact ⟨[], step, steps, value, rfl, rfl, hnone, rfl⟩

namespace Term

variable {t : Term} {lookups : Lookups} {pruned : Bool} {fault : CompileFault}

/-- Why a term has no program, if it is well-formed. -/
inductive Refused (lookups : Lookups) (t : Term) : CompileFault → Prop
  /-- A function looks into a table that is not there. -/
  | unknownTable {w : Wrapper} {table : String} (hw : w ∈ t.wrappers)
      (htable : w.table? = some table) (hnone : lookups.get? table = none) :
      Refused lookups t (.unknownTable table)
  /-- A literal is never missing. -/
  | isNullOverLiteral {text : String} (hnull : t.wrappers.head? = some .isNull)
      (hpath : t.path = .literal text) : Refused lookups t .isNullOverLiteral
  /-- The functions over a literal come to one that makes nothing of what it is given. -/
  | noValue {text made : String} {functions before after : List Step} {step : Step}
      (hpath : t.path = .literal text)
      (hfunctions : Wrapper.compileAll lookups t.wrappers = .ok functions)
      (hsplit : functions.reverse = before ++ step :: after)
      (hmade : Step.foldLiteral text text before = .ok made)
      (hnone : step.transform made = none) : Refused lookups t (.noValue step text)

/-- The check for a missing value is split off, or there is none. -/
theorem WellFormed.splitIsNull_cases (h : t.WellFormed) :
    (∃ ws, t.wrappers = .isNull :: ws ∧ t.splitIsNull = (true, ws) ∧ .isNull ∉ ws) ∨
      t.splitIsNull = (false, t.wrappers) ∧ .isNull ∉ t.wrappers := by
  have hnull := h.isNull_outermost
  unfold splitIsNull
  split
  · next ws hws => exact .inl ⟨ws, hws, rfl, by simpa [hws] using hnull⟩
  · next hne =>
    refine .inr ⟨rfl, ?_⟩
    cases hwrappers : t.wrappers with
    | nil => exact List.not_mem_nil
    | cons w ws =>
      rw [List.mem_cons, not_or]
      exact ⟨fun hw => hne ws (hw ▸ hwrappers), by simpa [hwrappers] using hnull⟩

/-- **A well-formed term is compiled** unless it names a table that is not there or stands
    over a literal that makes no sense. -/
theorem WellFormed.refused (h : t.WellFormed) (hcompile : t.compile lookups pruned = .error fault) :
    t.Refused lookups fault := by
  have htable {ws : List Wrapper} (hsub : ws ⊆ t.wrappers) (hnull : .isNull ∉ ws)
      (hws : Wrapper.compileAll lookups ws = .error fault) : t.Refused lookups fault := by
    obtain ⟨w, hw, table, hname, hnone, rfl⟩ := Wrapper.compileAll_error hnull hws
    exact .unknownTable (hsub hw) hname hnone
  obtain ⟨ws, hwrappers, hsplit, hnull⟩ | ⟨hsplit, hnull⟩ := h.splitIsNull_cases
  · rw [compile, hsplit] at hcompile
    dsimp only at hcompile
    split at hcompile
    · next hws =>
      cases hcompile
      exact htable (hwrappers ▸ List.subset_cons_self _ ws) hnull hws
    · split at hcompile
      · next hpath =>
        cases hcompile
        exact .isNullOverLiteral (by rw [hwrappers]; rfl) hpath
      · cases hcompile
  · rw [compile, hsplit] at hcompile
    dsimp only at hcompile
    split at hcompile
    · next hws =>
      cases hcompile
      exact htable (List.Subset.refl _) hnull hws
    · next functions hfunctions =>
      split at hcompile
      · next text hpath =>
        cases hfold : Step.foldLiteral text text functions.reverse with
        | ok value => rw [hfold] at hcompile; cases hcompile
        | error fault' =>
          rw [hfold] at hcompile
          cases hcompile
          obtain ⟨before, step, after, made, hparts, hmade, hnone, rfl⟩ :=
            Step.foldLiteral_error hfold
          exact .noValue hpath hfunctions hparts hmade hnone
      · cases hcompile

end Term

/-! ### Expressions -/

namespace Expression

/-- What is read from a text can be computed. -/
instance (text : String) (e : Expression) : Decidable (parse text = .ok e) :=
  decidable_of_iff ((parse text).toOption = some e) <| by
    cases parse text <;> simp [Except.toOption]

/-- What is read is well-formed. -/
theorem root_wellFormed {text : String} {e : Expression} (h : parse text = .ok e) :
    e.root.WellFormed := by
  unfold parse at h
  dsimp only at h
  split at h
  · cases h
  · split at h
    · next hread => cases h; exact Reading.wholeText_sound hread
    · cases h

/-- **Whatever is read is well-formed.** So compiling it never comes upon a check for a
    missing value inside another function, and fails only for a table that is not there or
    over a literal: because a literal is never missing, or because a function makes nothing of
    it. -/
theorem parse_sound {text : String} {e : Expression} (h : parse text = .ok e) :
    e.root.WellFormed ∧
      (∀ lookups pruned, e.root.compile lookups pruned ≠ .error .innerIsNull) ∧
      ∀ lookups pruned fault, e.root.compile lookups pruned = .error fault →
        e.root.Refused lookups fault := by
  have hroot : e.root.WellFormed := root_wellFormed h
  exact ⟨hroot, fun lookups pruned hfault => (nomatch hroot.refused hfault),
    fun lookups pruned fault hfault => hroot.refused hfault⟩

/-- Words of a concatenation, looked up in a table. -/
def systemLookup : Expression where
  text := "LookUp[ Systems; Concat[\"NT \\\"\"; agent.(2-)product~\"NT\"[-1] ][0-1] ]"
  root :=
    ⟨[.lookUp "Systems" none, .words ⟨0, some 1⟩, .concat (some "NT \"") none],
      .fromRoot [.down .agent (.single 0), .down .product ⟨2, 9⟩, .test .contains "NT",
        .words ⟨-1, some (-1)⟩]⟩

theorem parse_sound_on_systemLookup :
    parse systemLookup.text = .ok systemLookup ∧ systemLookup.root.WellFormed ∧
      systemLookup.root.compile .empty false ≠ .error .innerIsNull ∧
      systemLookup.root.Refused .empty (.unknownTable "Systems") := by
  have hparse : parse systemLookup.text = .ok systemLookup := by decide +kernel
  obtain ⟨hroot, hnull, hrefused⟩ := parse_sound hparse
  exact ⟨hparse, hroot, hnull .empty false, hrefused .empty false _ rfl⟩

end Expression

end AgentRules
