/-
  How deep expressions may be nested.

  The reader has a number of levels to open. Every function opens one, and so does what is under
  the functions: the path or the literal. On a text that the grammar writes, however deep, it
  gives up because of the nesting exactly when the functions alone are no fewer than the levels
  (`Reading.tooDeep_term_iff`). So at most one function less can be nested than there are levels,
  which is where the limit differs from the one for functions that it is meant to be
  (`Expression.parse_tooDeep_exact`).

  Only opening a level can fail in this way. What is read before a term that opens one is spelled
  by the grammar and thus read, and what is read behind it fails otherwise, if it fails at all.
  That is why nothing is asked of the ranges and steps in a text.
-/
import AgentRules.Proofs.Grammar
import AgentRules.Proofs.Writing

namespace AgentRules

open Text

/-! ### Terms of any depth -/

namespace Term

/-- The functions around a path, the outermost first. -/
def calls (t : Term) : List Wrapper := t.wrappers.filter (!·.isWords)

/-- What the functions of a term that has tokens must observe, apart from their number: the tables
    have names, and the check for a missing value is the outermost function, if it occurs. What
    is wrong with the path is found behind all levels. -/
structure Grammatical (t : Term) : Prop where
  tableNames : ∀ w ∈ t.wrappers, ∀ table ∈ w.table?, IsName table
  isNull_outermost : .isNull ∉ t.calls.tail

variable {t : Term} {w : Wrapper}

theorem length_calls (t : Term) : t.calls.length = t.functions :=
  List.countP_eq_length_filter.symm

theorem calls_wrap (hw : w.isWords = false) : (t.wrap w).calls = w :: t.calls := by
  rw [calls, wrap, List.filter_cons_of_pos (by simp [hw])]
  rfl

/-- Where a check for a missing value may stand, with a function around a term. -/
theorem isNull_notMem_wrap {top : Bool} (hw : w.isWords = false) :
    (.isNull ∉ if top then (t.wrap w).calls.tail else (t.wrap w).calls) ↔
      (w = .isNull → top = true) ∧ .isNull ∉ t.calls := by
  rw [calls_wrap hw]
  cases top with
  | true => simp
  | false => simp [eq_comm]

theorem calls_wrap_words (t : Term) (range : WordRange) :
    (t.wrap (.words range)).calls = t.calls := by
  rw [calls, wrap, List.filter_cons_of_neg (by simp [Wrapper.isWords])]
  rfl

end Term

namespace Reading

/-! ### Giving up because of the nesting -/

variable {β γ : Type}

/-- Whether a reader gives up because of the nesting. -/
def TooDeep (x : Reading β) : Prop := ∃ place, x = .error ⟨.tooDeep, place⟩

theorem not_tooDeep_ok (b : β) : ¬TooDeep (.ok b) := by
  rintro ⟨place, h⟩
  cases h

theorem not_tooDeep_error {fault : ReadFault} {place : List Char} (h : fault ≠ .tooDeep) :
    ¬TooDeep (.error ⟨fault, place⟩ : Reading β) := by
  rintro ⟨place', heq⟩
  cases heq
  exact h rfl

/-- A reader gives up where its first part does, if what comes after never gives up. -/
theorem tooDeep_bind_iff {x : Reading β} {f : β → Reading γ} (hf : ∀ b, ¬TooDeep (f b)) :
    TooDeep (x >>= f) ↔ TooDeep x := by
  cases x with
  | error e =>
    -- The error is the same, but the type of what is read is not.
    constructor
    · rintro ⟨place, h⟩
      exact ⟨place, congrArg Except.error (Except.error.inj h)⟩
    · rintro ⟨place, h⟩
      exact ⟨place, congrArg Except.error (Except.error.inj h)⟩
  | ok b => exact iff_of_false (hf b) (not_tooDeep_ok b)

theorem not_tooDeep_bind {x : Reading β} {f : β → Reading γ} (hx : ¬TooDeep x)
    (hf : ∀ b, ¬TooDeep (f b)) : ¬TooDeep (x >>= f) :=
  mt (tooDeep_bind_iff hf).mp hx

/-- Behind a part that is read, what comes after decides. -/
theorem tooDeep_ok_bind {x : Reading β} {f : β → Reading γ} {b : β} (hx : x = .ok b) :
    TooDeep (x >>= f) ↔ TooDeep (f b) := by
  rw [hx]
  rfl

section Small

variable (cs : List Char)

theorem not_tooDeep_sign (c : Char) : ¬TooDeep (sign c cs) := by
  cases cs with
  | nil => exact not_tooDeep_error (by simp)
  | cons d cs =>
    rw [sign]
    split
    · exact not_tooDeep_ok _
    · exact not_tooDeep_error (by simp)

theorem not_tooDeep_name : ¬TooDeep (name cs) := by
  unfold name
  split
  · exact not_tooDeep_error (by simp)
  · exact not_tooDeep_ok _

theorem not_tooDeep_literal : ¬TooDeep (literal cs) := by
  unfold literal
  split
  · split
    · exact not_tooDeep_ok _
    · exact not_tooDeep_error (by simp)
  · exact not_tooDeep_error (by simp)

theorem not_tooDeep_upTo (close : Char) : ¬TooDeep (upTo close cs) := by
  unfold upTo
  split
  · exact not_tooDeep_ok _
  · exact not_tooDeep_error (by simp)

theorem not_tooDeep_wordRange : ¬TooDeep (wordRange cs) := by
  refine not_tooDeep_bind (not_tooDeep_upTo cs _) ?_
  rintro ⟨text, rest⟩
  dsimp only
  split
  · exact not_tooDeep_ok _
  · exact not_tooDeep_error (by simp)

theorem not_tooDeep_writtenRange : ¬TooDeep (writtenRange cs) := by
  unfold writtenRange
  split
  · exact not_tooDeep_bind (not_tooDeep_upTo _ _) fun _ => not_tooDeep_ok _
  · exact not_tooDeep_ok _

theorem not_tooDeep_descent : ¬TooDeep (descent cs) := by
  refine not_tooDeep_bind (not_tooDeep_writtenRange _) ?_
  rintro ⟨range, cs₁⟩
  refine not_tooDeep_bind (not_tooDeep_name _) ?_
  rintro ⟨label, rest⟩
  dsimp only
  split
  · exact not_tooDeep_error (by simp)
  · split
    · exact not_tooDeep_ok _
    · split
      · exact not_tooDeep_ok _
      · exact not_tooDeep_error (by simp)

theorem not_tooDeep_operand (t : Test) : ¬TooDeep (operand t cs) :=
  not_tooDeep_bind (not_tooDeep_literal _) fun _ => not_tooDeep_ok _

theorem not_tooDeep_step? : ¬TooDeep (step? cs) := by
  unfold step?
  split
  case h_1 => exact not_tooDeep_bind (not_tooDeep_descent _) fun _ => not_tooDeep_ok _
  case h_3 =>
    refine not_tooDeep_bind (not_tooDeep_sign _ _) fun _ => ?_
    exact not_tooDeep_bind (not_tooDeep_operand _ _) fun _ => not_tooDeep_ok _
  case h_7 => exact not_tooDeep_bind (not_tooDeep_wordRange _) fun _ => not_tooDeep_ok _
  case h_8 => exact not_tooDeep_ok _
  all_goals exact not_tooDeep_bind (not_tooDeep_operand _ _) fun _ => not_tooDeep_ok _

theorem not_tooDeep_steps : ¬TooDeep (steps cs) := by
  fun_induction steps cs with
  | case1 cs e hstep =>
    rintro ⟨place, h⟩
    have he : e = ⟨.tooDeep, place⟩ := Except.error.inj h
    exact not_tooDeep_step? (skipBlanks cs) ⟨place, he ▸ hstep⟩
  | case2 => exact not_tooDeep_ok _
  | case3 cs step rest hstep ih => exact not_tooDeep_bind ih fun _ => not_tooDeep_ok _

theorem not_tooDeep_optionalLiteral : ¬TooDeep (optionalLiteral cs) := by
  unfold optionalLiteral
  split
  · exact not_tooDeep_bind (not_tooDeep_literal _) fun _ => not_tooDeep_ok _
  · exact not_tooDeep_ok _

end Small

/-! ### Functions -/

section Functions

variable {inner : TermReader} {t : Term} {ts us : List Token} {cs rest : List Char} {deep : Prop}

/-- On every text that spells some tokens a reader for terms gives up because of the nesting
    exactly under some condition. -/
def DeepIff (read : TermReader) (ts : List Token) (deep : Prop) : Prop :=
  ∀ ⦃cs rest⦄, Spells ts cs rest → (TooDeep (read cs) ↔ deep)

theorem tooDeep_tableArguments_iff {table : String} (htable : IsName table)
    (hinner : DeepIff inner ts deep)
    (h : Spells (.name table :: .sign ';' :: ts) cs rest) :
    TooDeep (tableArguments inner cs) ↔ deep := by
  obtain ⟨cs₁, hname, h⟩ := spells_cons.mp h
  obtain ⟨cs₂, hsign, hterm⟩ := spells_cons.mp h
  have hbreaks : Breaks cs₁ := hsign.breaks rfl (by decide) (by decide)
  rw [tableArguments, tooDeep_ok_bind (name_complete htable hbreaks hname)]
  dsimp only
  rw [tooDeep_ok_bind (sign_complete (by decide) hsign)]
  exact (tooDeep_bind_iff fun _ => not_tooDeep_ok _).trans (hinner hterm)

/-- A concatenation whose first argument is a literal reads the term behind it. -/
theorem tooDeep_concatArguments_iff {before : String} (hinner : DeepIff inner us deep)
    (h : Spells (.literal before :: .sign ';' :: us) cs rest) :
    TooDeep (concatArguments inner cs) ↔ deep := by
  obtain ⟨cs₁, hbefore, h⟩ := spells_cons.mp h
  obtain ⟨cs₂, hsign, hterm⟩ := spells_cons.mp h
  have hliteral := literal_complete hbefore
  unfold concatArguments
  split
  · next body hbody =>
    rw [hbody] at hliteral
    rw [tooDeep_ok_bind hliteral]
    dsimp only
    rw [tooDeep_ok_bind (sign_complete (by decide) hsign)]
    refine (tooDeep_bind_iff ?_).trans (hinner hterm)
    rintro ⟨u, cs₃⟩
    exact not_tooDeep_bind (not_tooDeep_optionalLiteral cs₃) fun _ => not_tooDeep_ok _
  · next hquote => exact absurd (hbefore.skipBlanks_eq rfl (by decide)) (hquote _)

/-- A concatenation whose first argument starts with no quote reads a term there. -/
theorem tooDeep_concatArguments_iff_of_head {u : Token} {c : Char}
    (hinner : DeepIff inner (u :: us) deep) (hhead : u.chars.head? = some c)
    (hblank : isBlank c = false) (hquote : c ≠ '"') (h : Spells (u :: us) cs rest) :
    TooDeep (concatArguments inner cs) ↔ deep := by
  obtain ⟨cs₁, hfirst, h'⟩ := spells_cons.mp h
  have hskip := hfirst.skipBlanks_eq hhead hblank
  -- The term is read from where the blanks before it have been skipped.
  have hcs : Spells (u :: us) (skipBlanks cs) rest := ⟨[], cs₁, by simp, hskip, h'⟩
  unfold concatArguments
  split
  · next body hbody =>
    rw [hskip] at hbody
    have hc := congrArg List.head? hbody
    rw [List.head?_append, hhead] at hc
    exact absurd (Option.some.inj hc) hquote
  · refine (tooDeep_bind_iff ?_).trans (hinner hcs)
    rintro ⟨v, cs₂⟩
    refine not_tooDeep_bind (not_tooDeep_sign _ _) fun cs₃ => ?_
    exact not_tooDeep_bind (not_tooDeep_literal _) fun _ => not_tooDeep_ok _

variable {w : Wrapper} {f : FunctionName} {args : List Token}

theorem DeepIff.append (h : DeepIff inner ts deep) : DeepIff inner (ts ++ us) deep := by
  intro cs rest hspells
  obtain ⟨mid, hterm, -⟩ := spells_append.mp hspells
  exact h hterm

/-- **The arguments of a function are too deep where the term inside is.** A concatenation of two
    literals takes the first for the text before and the second for the term. -/
theorem tooDeep_arguments_iff (ht : t.WrittenAs ts) (hinner : DeepIff inner ts deep)
    (hliteral : ∀ text, t = ⟨[], .literal text⟩ → ∀ last, DeepIff inner [.literal last] deep)
    (htable : ∀ table ∈ w.table?, IsName table) (hargs : w.Arguments ts f args)
    (h : Spells args cs rest) : TooDeep (arguments inner f cs) ↔ deep := by
  have hlookUp : ∀ {table : String} {g : (String × Term) × List Char → Reading (Term × List Char)},
      IsName table → (∀ b, ¬TooDeep (g b)) → ∀ {cs rest us},
      Spells (.name table :: .sign ';' :: (ts ++ us)) cs rest →
      (TooDeep (tableArguments inner cs >>= g) ↔ deep) := by
    intro table g hname hg cs rest us hspells
    exact (tooDeep_bind_iff hg).trans (tooDeep_tableArguments_iff hname hinner.append hspells)
  cases hargs with
  | isNull | normalizeBrand | cleanVersion =>
    exact (tooDeep_bind_iff fun _ => not_tooDeep_ok _).trans (hinner h)
  | concat before last => exact tooDeep_concatArguments_iff hinner.append h
  | concatAfter last =>
    obtain ⟨u, us, c, rfl, hhead, hblank, hquote⟩ := head_of_writtenAs ht
    by_cases hc : c = '"'
    · -- A term that starts with a quote is a literal, which is read as the text before.
      obtain ⟨text, rfl⟩ := hquote hc
      obtain hp | _ := ht
      cases hp
      exact tooDeep_concatArguments_iff (hliteral text rfl last) h
    · exact tooDeep_concatArguments_iff_of_head hinner.append hhead hblank hc h
  | lookUp table default | lookUpPrefix table default =>
    refine hlookUp (htable table rfl) ?_ h
    rintro ⟨⟨label, u⟩, cs₁⟩
    exact not_tooDeep_bind (not_tooDeep_optionalLiteral cs₁) fun _ => not_tooDeep_ok _
  | isInLookUpPrefix table =>
    have hspells : Spells (.name table :: .sign ';' :: (ts ++ [])) cs rest := by
      rwa [List.append_nil]
    exact hlookUp (htable table rfl) (fun _ => not_tooDeep_ok _) hspells

/-- Nothing behind the brackets of a function opens a level. -/
theorem tooDeep_function_iff (ht : t.WrittenAs ts) (hinner : DeepIff inner ts deep)
    (hliteral : ∀ text, t = ⟨[], .literal text⟩ → ∀ last, DeepIff inner [.literal last] deep)
    (htable : ∀ table ∈ w.table?, IsName table) (hargs : w.Arguments ts f args)
    (h : Spells (.sign '[' :: (args ++ us)) cs rest) : TooDeep (function inner f cs) ↔ deep := by
  obtain ⟨cs₁, hopen, h⟩ := spells_cons.mp h
  obtain ⟨mid, hin, -⟩ := spells_append.mp h
  rw [function, tooDeep_ok_bind (sign_complete (by decide) hopen)]
  refine (tooDeep_bind_iff ?_).trans
    (tooDeep_arguments_iff ht hinner hliteral htable hargs hin)
  rintro ⟨u, cs₂⟩
  refine not_tooDeep_bind (not_tooDeep_sign _ _) fun cs₃ => ?_
  split
  · exact not_tooDeep_ok _
  · split
    · exact not_tooDeep_bind (not_tooDeep_wordRange _) fun _ => not_tooDeep_ok _
    · exact not_tooDeep_ok _

end Functions

/-! ### Terms -/

section Terms

variable {levels : Nat} {top : Bool} {cs rest : List Char} {ts : List Token}

theorem head?_of_name {s : String} (h : name cs = .ok (s, rest)) :
    s.toList.head? = cs.head? := by
  unfold name at h
  split at h
  · cases h
  · next c word htake =>
    cases h
    rw [String.toList_ofList, ← htake, List.head?_takeWhile]
    cases cs with
    | nil => rfl
    | cons d ds =>
      have hd : isNameChar d = true := by
        by_contra hd
        rw [List.takeWhile_cons_of_neg hd] at htake
        cases htake
      rw [List.head?_cons, Option.filter_some, if_pos hd]

/-- What starts like no function is a path, if it is anything. -/
theorem not_tooDeep_named {inner : TermReader} {start : List Char}
    (h : ∀ f : FunctionName, f.label.toList.head? ≠ start.head?) :
    ¬TooDeep (named inner top start) := by
  rw [named]
  cases hname : name start with
  | error e =>
    rintro ⟨place, hplace⟩
    have he : e = ⟨.tooDeep, place⟩ := Except.error.inj hplace
    exact not_tooDeep_name start ⟨place, he ▸ hname⟩
  | ok read =>
    obtain ⟨label, cs⟩ := read
    rw [tooDeep_ok_bind rfl]
    dsimp only
    split
    · exact not_tooDeep_bind (not_tooDeep_steps cs) fun _ => not_tooDeep_ok _
    · split
      · exact not_tooDeep_error (by simp)
      · next f hf =>
        have hlabel : f.label = label := by simpa using List.find?_some hf
        exact absurd (hlabel ▸ head?_of_name hname) (h f)

/-- One level is enough for a path or a literal. -/
theorem not_tooDeep_term_of_path {p : Path} (hp : p.WrittenAs ts) (h : Spells ts cs rest) :
    ¬TooDeep (term (levels + 1) top cs) := by
  obtain ⟨u, us, c, rfl, hc, hblank, hother⟩ : ∃ u us c, ts = u :: us ∧
      u.chars.head? = some c ∧ isBlank c = false ∧
      ∀ f : FunctionName, f.label.toList.head? ≠ some c := by
    cases hp with
    | literal text => exact ⟨_, _, '"', rfl, rfl, by decide, fun f => by cases f <;> decide⟩
    | fromRoot => exact ⟨_, _, 'a', rfl, rfl, by decide, fun f => by cases f <;> decide⟩
    | fromVariable => exact ⟨_, _, '@', rfl, rfl, by decide, fun f => by cases f <;> decide⟩
  obtain ⟨mid, hfirst, -⟩ := spells_cons.mp h
  have hhead : (skipBlanks cs).head? = some c := by
    rw [hfirst.skipBlanks_eq hc hblank, List.head?_append, hc]
    rfl
  unfold term
  split
  · exact not_tooDeep_bind (not_tooDeep_literal _) fun _ => not_tooDeep_ok _
  · refine not_tooDeep_bind (not_tooDeep_name _) ?_
    rintro ⟨label, cs₁⟩
    exact not_tooDeep_bind (not_tooDeep_steps cs₁) fun _ => not_tooDeep_ok _
  · next hcs =>
    split
    · rw [hcs] at hhead
      exact not_tooDeep_named fun f => hhead ▸ hother f
    · exact not_tooDeep_error (by simp)
  · exact not_tooDeep_error (by simp)

theorem deepIff_path {p : Path} (hp : p.WrittenAs ts) :
    DeepIff (term levels top) ts (levels ≤ 0) := by
  intro cs rest h
  cases levels with
  | zero => exact iff_of_true ⟨cs, rfl⟩ (Nat.le_refl 0)
  | succ levels => exact iff_of_false (not_tooDeep_term_of_path hp h) (Nat.not_succ_le_zero levels)

/-- **A function takes one level**, whatever follows its arguments. -/
theorem deepIff_function {t : Term} {w : Wrapper} {f : FunctionName} {args us : List Token}
    (ht : t.WrittenAs ts)
    (hinner : ∀ levels, DeepIff (term levels false) ts (levels ≤ t.functions))
    (htable : ∀ table ∈ w.table?, IsName table) (hargs : w.Arguments ts f args)
    (htop : w = .isNull → top = true) :
    DeepIff (term levels top) (.name f.label :: .sign '[' :: (args ++ us))
      (levels ≤ t.functions + 1) := by
  intro cs rest h
  cases levels with
  | zero => exact iff_of_true ⟨cs, rfl⟩ (Nat.zero_le _)
  | succ levels =>
    have hnull : f = .isNull → top = true := htop ∘ (isNull_of_arguments hargs).mpr
    obtain ⟨cs', hterm, hbrackets⟩ : ∃ cs', term (levels + 1) top cs =
        function (term levels false) f cs' ∧ Spells (.sign '[' :: (args ++ us)) cs' rest :=
      term_of_functionName hnull h
    have hliteral : ∀ text, t = ⟨[], .literal text⟩ → ∀ last,
        DeepIff (term levels false) [.literal last] (levels ≤ t.functions) := by
      rintro text rfl last
      exact deepIff_path (.literal last)
    rw [hterm, tooDeep_function_iff ht (hinner levels) hliteral htable hargs hbrackets]
    exact Nat.succ_le_succ_iff.symm

/-- **The reader gives up because of the nesting exactly where the functions are no fewer than
    the levels.** -/
theorem tooDeep_term_iff {t : Term} (hts : t.WrittenAs ts)
    (htables : ∀ w ∈ t.wrappers, ∀ table ∈ w.table?, IsName table)
    (hnull : .isNull ∉ if top then t.calls.tail else t.calls) :
    DeepIff (term levels top) ts (levels ≤ t.functions) := by
  -- By induction on the grammar, for all levels: inside a function there is one less.
  induction hts generalizing levels top with
  | path hp => exact deepIff_path hp
  | @function t w f ts args hinner hargs ih =>
    have hwords := isWords_of_arguments hargs
    obtain ⟨htop, hin⟩ := (Term.isNull_notMem_wrap hwords).mp hnull
    obtain ⟨htable, htables⟩ := List.forall_mem_cons.mp htables
    have hfunctions : (t.wrap w).functions = t.functions + 1 := by
      rw [← Term.length_calls, Term.calls_wrap hwords, List.length_cons, Term.length_calls]
    have hinside : ∀ levels, DeepIff (term levels false) ts (levels ≤ t.functions) :=
      fun levels => ih htables hin
    rw [hfunctions]
    exact deepIff_function hinner hinside htable hargs htop
  | @functionWords t w f ts args range rs hinner hargs hrs ih =>
    have hwords := isWords_of_arguments hargs
    rw [Term.calls_wrap_words] at hnull
    obtain ⟨htop, hin⟩ := (Term.isNull_notMem_wrap hwords).mp hnull
    obtain ⟨-, htables⟩ := List.forall_mem_cons.mp htables
    obtain ⟨htable, htables⟩ := List.forall_mem_cons.mp htables
    have hfunctions : ((t.wrap w).wrap (.words range)).functions = t.functions + 1 := by
      rw [← Term.length_calls, Term.calls_wrap_words, Term.calls_wrap hwords, List.length_cons,
        Term.length_calls]
    have hinside : ∀ levels, DeepIff (term levels false) ts (levels ≤ t.functions) :=
      fun levels => ih htables hin
    rw [hfunctions]
    exact deepIff_function hinner hinside htable hargs htop

theorem tooDeep_wholeText_iff {t : Term} (ht : t.Grammatical) (hts : t.WrittenAs ts)
    (h : Spells ts cs rest) : TooDeep (wholeText cs) ↔ maxNesting ≤ t.functions := by
  have hdeep : DeepIff (term maxNesting true) ts (maxNesting ≤ t.functions) :=
    tooDeep_term_iff hts ht.tableNames ht.isNull_outermost
  refine (tooDeep_bind_iff ?_).trans (hdeep h)
  rintro ⟨u, behind⟩
  dsimp only
  split
  · exact not_tooDeep_ok _
  · exact not_tooDeep_error (by simp)

end Terms

end Reading

/-! ### Expressions -/

namespace Expression

/-- What is found wrong with a text is that it is nested too deeply. -/
def TooDeep (text : String) : Prop := ∃ offset, parse text = .error (.fault .tooDeep offset)

/-- **A text is nested too deeply when there are as many functions as levels.** -/
theorem tooDeep_iff {t : Term} {text : String} (ht : t.Grammatical) (htext : t.WrittenIn text)
    (hlength : text.utf8ByteSize ≤ maxExpressionBytes) :
    TooDeep text ↔ maxNesting ≤ t.functions := by
  obtain ⟨ts, blanks, hts, hspells, -⟩ := htext
  rw [← Reading.tooDeep_wholeText_iff ht hts hspells, TooDeep, parse]
  simp only [byteLength_toList, if_neg (Nat.not_lt.mpr hlength)]
  cases hread : Reading.wholeText text.toList with
  | ok root => simp [Reading.TooDeep]
  | error e =>
    obtain ⟨fault, place⟩ := e
    simp [Reading.TooDeep]

/-- The version of the root of a tree, cleaned a number of times. -/
def cleaned (n : Nat) : Term :=
  ⟨List.replicate n .cleanVersion, .fromRoot [.down .agent (.single 0)]⟩

def cleanedTokens : Nat → List Token
  | 0 => [.name Fragment.agent.label]
  | n + 1 =>
    .name FunctionName.cleanVersion.label :: .sign '[' :: (cleanedTokens n ++ [.sign ']'])

def cleanedText (n : Nat) : String := String.ofList ((cleanedTokens n).flatMap Token.chars)

example : cleanedText 2 = "CleanVersion[CleanVersion[agent]]" := by decide

theorem functions_cleaned (n : Nat) : (cleaned n).functions = n := by
  rw [Term.functions, cleaned, List.countP_replicate, if_pos (by decide)]

theorem cleaned_grammatical (n : Nat) : (cleaned n).Grammatical where
  tableNames w hw table htable := by
    rw [List.eq_of_mem_replicate hw] at htable
    exact absurd htable (by simp [Wrapper.table?])
  isNull_outermost hmem := by
    have hw : Wrapper.isNull ∈ (cleaned n).wrappers :=
      List.mem_of_mem_filter (List.mem_of_mem_tail hmem)
    exact absurd (List.eq_of_mem_replicate hw) (by decide)

theorem cleaned_writtenAs (n : Nat) : (cleaned n).WrittenAs (cleanedTokens n) := by
  induction n with
  | zero => exact .path (.fromRoot .nil)
  | succ n ih => exact .function ih .cleanVersion

theorem cleaned_writtenIn (n : Nat) : (cleaned n).WrittenIn (cleanedText n) := by
  refine ⟨cleanedTokens n, [], cleaned_writtenAs n, ?_, by simp⟩
  rw [cleanedText, String.toList_ofList]
  exact spells_chars _

theorem utf8ByteSize_cleanedText (n : Nat) : (cleanedText n).utf8ByteSize = 14 * n + 5 := by
  rw [← byteLength_toList, cleanedText, String.toList_ofList]
  induction n with
  | zero => decide
  | succ n ih =>
    have hlabel : byteLength FunctionName.cleanVersion.label.toList = 12 := by decide
    have hsigns : byteLength ['['] = 1 ∧ byteLength [']'] = 1 := by decide
    simp only [cleanedTokens, List.flatMap_cons, List.flatMap_append, List.flatMap_nil,
      List.append_nil, Token.chars, byteLength_append, ih, hlabel, hsigns]
    omega

/-- **The limit is one function lower than the number that is given for it.** Let a text of
    admissible length be written by the grammar, with any functions around any path or literal.
    Reading it fails because of the nesting if and only if it has as many functions as the limit
    or more. That it fails if and only if it has more functions than the limit is therefore true
    for every number of functions but the limit itself. -/
theorem parse_tooDeep_exact {t : Term} {text : String} (ht : t.Grammatical)
    (htext : t.WrittenIn text) (hlength : text.utf8ByteSize ≤ maxExpressionBytes) :
    (TooDeep text ↔ maxNesting ≤ t.functions) ∧
      ((TooDeep text ↔ maxNesting < t.functions) ↔ t.functions ≠ maxNesting) := by
  have hdeep : TooDeep text ↔ maxNesting ≤ t.functions := tooDeep_iff ht htext hlength
  refine ⟨hdeep, ?_⟩
  rw [hdeep]
  omega

/-- With more functions than the limit a text is nested too deeply. -/
theorem parse_tooDeep_exact_above :
    (cleaned 33).Grammatical ∧ (cleaned 33).WrittenIn (cleanedText 33) ∧
      (cleanedText 33).utf8ByteSize ≤ maxExpressionBytes ∧ TooDeep (cleanedText 33) ∧
      (TooDeep (cleanedText 33) ↔ maxNesting < (cleaned 33).functions) := by
  have hlength : (cleanedText 33).utf8ByteSize ≤ maxExpressionBytes := by
    rw [utf8ByteSize_cleanedText]
    decide
  have hexact := parse_tooDeep_exact (cleaned_grammatical 33) (cleaned_writtenIn 33) hlength
  rw [functions_cleaned] at hexact ⊢
  exact ⟨cleaned_grammatical 33, cleaned_writtenIn 33, hlength, hexact.1.mpr (by decide),
    hexact.2.mpr (by decide)⟩

/-- With as many functions as the limit it is, too, though these are not more. -/
theorem tooDeep_at_limit :
    (cleaned maxNesting).Grammatical ∧ (cleaned maxNesting).WrittenIn (cleanedText maxNesting) ∧
      (cleanedText maxNesting).utf8ByteSize ≤ maxExpressionBytes ∧
      TooDeep (cleanedText maxNesting) ∧ ¬maxNesting < (cleaned maxNesting).functions := by
  have hlength : (cleanedText maxNesting).utf8ByteSize ≤ maxExpressionBytes := by
    rw [utf8ByteSize_cleanedText]
    decide
  have hdeep : TooDeep (cleanedText maxNesting) ↔ maxNesting ≤ (cleaned maxNesting).functions :=
    tooDeep_iff (cleaned_grammatical _) (cleaned_writtenIn _) hlength
  rw [functions_cleaned] at hdeep ⊢
  exact ⟨cleaned_grammatical _, cleaned_writtenIn _, hlength, hdeep.mpr (Nat.le_refl _),
    Nat.lt_irrefl _⟩

end Expression

end AgentRules
