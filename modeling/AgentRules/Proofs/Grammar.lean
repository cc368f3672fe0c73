/-
  Whatever the grammar writes is read.

  A well-formed term that is written out in a text is read from it again, whatever blanks
  stand between the tokens (`Expression.parse_complete`). Each reader takes exactly the
  tokens of its part off the text. Where a part may be longer, as a name or the steps of a
  path, it matters what comes next: after a name nothing that goes on with it (`Breaks`), and
  after a term the end, a semicolon or a closing bracket (`Closes`).

  Behind a path or a function the reader has already skipped blanks, behind a literal it has
  not. So what is left after a term is known only up to blanks, which is all that the next
  reader asks.
-/
import AgentRules.Proofs.WellFormed

namespace AgentRules

open Text

/-! ### What follows a term -/

/-- A text that ends, or goes on with what may stand behind a term. -/
def Closes (cs : List Char) : Prop := ∀ c ∈ (skipBlanks cs).head?, c = ';' ∨ c = ']'

theorem Spells.closes {c : Char} {ts : List Token} {cs rest : List Char}
    (h : Spells (.sign c :: ts) cs rest) (hc : c = ';' ∨ c = ']') : Closes cs := by
  obtain ⟨mid, h, -⟩ := spells_cons.mp h
  have hblank : isBlank c = false := by obtain rfl | rfl := hc <;> decide
  rw [Closes, h.skipBlanks_sign hblank]
  exact fun d hd => Option.some.inj hd ▸ hc

theorem Closes.breaks {cs : List Char} (h : Closes cs) : Breaks cs := by
  refine breaks_of_skipBlanks fun c hc => ?_
  obtain rfl | rfl := h c hc <;> decide

namespace Reading

/-! ### Texts of ranges -/

/-- The text of a range ends at the first closing bracket. -/
theorem upTo_complete {close : Char} {ts : List Token} {cs rest : List Char}
    (hclose : isBlank close = false) (hts : ∀ t ∈ ts, close ∉ t.chars)
    (h : Spells (ts ++ [.sign close]) cs rest) :
    ∃ text blanks, upTo close cs = .ok (text, rest) ∧ Spells ts text blanks ∧
      ∀ c ∈ blanks, isBlank c := by
  obtain ⟨mid, hts', blanks, _, hblanks, rfl, rfl⟩ := spells_append.mp h
  obtain ⟨text, rfl, hmem, htext⟩ := hts'.split
  refine ⟨text ++ blanks, blanks, ?_, htext blanks, hblanks⟩
  have hnot : close ∉ text ++ blanks := by
    rw [List.mem_append, not_or]
    constructor
    · intro hin
      obtain hblank | ⟨t, ht, hin⟩ := hmem close hin
      · rw [hclose] at hblank; cases hblank
      · exact hts t ht hin
    · intro hin
      have := hblanks close hin
      rw [hclose] at this
      cases this
  simpa [Token.chars] using upTo_append hnot _

theorem wordRange_complete {range : WordRange} {ts : List Token} {cs rest : List Char}
    (hrange : range.Parseable) (hts : range.WrittenAs ts)
    (h : Spells (ts ++ [.sign ']']) cs rest) : wordRange cs = .ok (range, rest) := by
  obtain ⟨text, blanks, hup, htext, hblanks⟩ := upTo_complete (by decide) hts.notMem h
  have hparse : WordRange.parse (String.ofList text) = .ok range := by
    rw [WordRange.parse, String.toList_ofList]
    exact mapError_eq_ok.mpr (WordRange.read_complete hrange hts htext hblanks)
  rw [wordRange, hup]
  simp only [bind, Except.bind, hparse]

/-! ### Steps -/

theorem isName_label (kind : Fragment) : IsName kind.label := by cases kind <;> decide

theorem descentKind?_label {kind : Fragment} (h : kind ≠ .agent) :
    descentKind? kind.label = some kind := by
  cases kind <;> first | exact absurd rfl h | rfl

/-- A kind that comes directly after the dot is looked at in its usual range. -/
theorem descent_complete {kind : Fragment} {cs rest : List Char} (hkind : kind ≠ .agent)
    (h : Spells [.name kind.label] cs rest) (hrest : Breaks rest) :
    descent cs = .ok (.down kind (.usual kind), rest) := by
  have hname := name_complete (isName_label kind) hrest h
  have hwritten : writtenRange (skipBlanks cs) = .ok (none, skipBlanks cs) := by
    unfold writtenRange
    split
    · next body hbody =>
      rw [hbody] at hname
      cases hname
    · rfl
  rw [descent, hwritten]
  simp only [bind, Except.bind, skipBlanks_skipBlanks, hname, descentKind?_label hkind]

theorem descent_complete_range {kind : Fragment} {range : ChildRange} {rs : List Token}
    {cs rest : List Char} (hkind : kind ≠ .agent) (hrange : range.Bounded)
    (hrs : range.WrittenAs kind rs)
    (h : Spells (.sign '(' :: (rs ++ [.sign ')', .name kind.label])) cs rest)
    (hrest : Breaks rest) : descent cs = .ok (.down kind range, rest) := by
  obtain ⟨cs', hopen, h⟩ := spells_cons.mp h
  rw [show rs ++ [.sign ')', .name kind.label] = (rs ++ [.sign ')']) ++ [.name kind.label] by simp]
    at h
  obtain ⟨mid, hclose, hname⟩ := spells_append.mp h
  obtain ⟨text, blanks, hup, htext, hblanks⟩ := upTo_complete (by decide) hrs.notMem hclose
  have hparse : ChildRange.parse (String.ofList text) kind = .ok range := by
    rw [ChildRange.parse, String.toList_ofList]
    exact mapError_eq_ok.mpr (ChildRange.read_complete hrange hrs htext hblanks)
  rw [descent, hopen.skipBlanks_sign (by decide)]
  simp only [writtenRange, hup, bind, Except.bind, name_complete (isName_label kind) hrest hname,
    descentKind?_label hkind, hparse]

theorem operand_complete {t : Test} {text : String} {cs rest : List Char}
    (h : Spells [.literal text] cs rest) : operand t cs = .ok (.test t text, rest) := by
  rw [operand, literal_complete h]
  rfl

/-- **A step is read from every text that spells it.** -/
theorem step?_complete {step : PathStep} {ts : List Token} {cs rest : List Char}
    (hstep : step.WellFormed) (hts : step.WrittenAs ts) (h : Spells ts cs rest)
    (hrest : Breaks rest) : step? (skipBlanks cs) = .ok (some step, rest) := by
  cases hts with
  | down kind =>
    obtain ⟨cs', hdot, hname⟩ := spells_cons.mp h
    rw [hdot.skipBlanks_sign (by decide)]
    simp only [step?, bind, Except.bind, descent_complete hstep.1 hname hrest]
  | downRange hrs =>
    obtain ⟨cs', hdot, h⟩ := spells_cons.mp h
    rw [hdot.skipBlanks_sign (by decide)]
    simp only [step?, bind, Except.bind, descent_complete_range hstep.1 hstep.2 hrs h hrest]
  | test t text =>
    obtain ⟨cs', hsign, htext⟩ := spells_cons.mp h
    have hop (t : Test) : operand t cs' = .ok (.test t text, rest) := operand_complete htext
    cases t with
    | notEquals =>
      rw [hsign.skipBlanks_eq rfl (by decide)]
      simp [Token.chars, Test.sign, step?, sign, bind, Except.bind, hop]
    | _ =>
      rw [hsign.skipBlanks_eq rfl (by decide)]
      simp [Token.chars, Test.sign, step?, bind, Except.bind, hop]
  | words hrs =>
    obtain ⟨cs', hopen, h⟩ := spells_cons.mp h
    rw [hopen.skipBlanks_sign (by decide)]
    simp only [step?, bind, Except.bind, wordRange_complete hstep hrs h]

/-- A step ends a name before it. -/
theorem breaks_of_step {step : PathStep} {ts : List Token} {cs rest : List Char}
    (hts : step.WrittenAs ts) (h : Spells ts cs rest) : Breaks cs := by
  cases hts with
  | down | downRange | words =>
    obtain ⟨cs', hsign, -⟩ := spells_cons.mp h
    exact hsign.breaks rfl (by decide) (by decide)
  | test t =>
    obtain ⟨cs', hsign, -⟩ := spells_cons.mp h
    cases t <;> exact hsign.breaks rfl (by decide) (by decide)

theorem breaks_of_steps {ss : List PathStep} {ts : List Token} {cs rest : List Char}
    (hts : PathStep.AllWrittenAs ss ts) (h : Spells ts cs rest) (hrest : Closes rest) :
    Breaks cs := by
  cases hts with
  | nil => exact h ▸ hrest.breaks
  | cons hstep =>
    obtain ⟨mid, hfirst, -⟩ := spells_append.mp h
    exact breaks_of_step hstep hfirst

/-- **The steps of a path are read to the last**, and the blanks after it as well. -/
theorem steps_complete {ss : List PathStep} {ts : List Token} {cs rest : List Char}
    (hss : ∀ step ∈ ss, step.WellFormed) (hts : PathStep.AllWrittenAs ss ts)
    (h : Spells ts cs rest) (hrest : Closes rest) : steps cs = .ok (ss, skipBlanks rest) := by
  induction hts generalizing cs with
  | nil =>
    obtain rfl : cs = rest := h
    -- Every step starts with a sign, and none of the signs may stand behind a term.
    have hnone : step? (skipBlanks cs) = .ok (none, skipBlanks cs) := by
      unfold step?
      split
      case h_8 => rfl
      all_goals
        next hcs =>
        have := hrest _ (by rw [hcs]; rfl)
        simp at this
    unfold steps
    split
    · next hstep => rw [hnone] at hstep; cases hstep
    · next hstep => rw [hnone] at hstep; cases hstep; rfl
    · next hstep => rw [hnone] at hstep; cases hstep
  | cons hstep hsteps ih =>
    obtain ⟨mid, hfirst, hothers⟩ := spells_append.mp h
    obtain ⟨hstep', hss⟩ := List.forall_mem_cons.mp hss
    have hsome := step?_complete hstep' hstep hfirst (breaks_of_steps hsteps hothers hrest)
    unfold steps
    split
    · next hstep => rw [hsome] at hstep; cases hstep
    · next hstep => rw [hsome] at hstep; cases hstep
    · next hstep =>
      rw [hsome] at hstep
      cases hstep
      rw [ih hss hothers]
      rfl

/-! ### Functions -/

/-- A reader for terms that reads a term from every text that spells some tokens, and leaves
    what follows them, up to blanks. -/
def Reads (read : TermReader) (t : Term) (ts : List Token) : Prop :=
  ∀ {cs rest}, Spells ts cs rest → Closes rest →
    ∃ rest', read cs = .ok (t, rest') ∧ skipBlanks rest' = skipBlanks rest

section Functions

variable {inner : TermReader} {t : Term} {ts : List Token} {cs rest after : List Char}

/-- A last literal is read where there is one, up to the closing bracket. The blanks before
    it may have been skipped. -/
theorem optionalLiteral_complete {text : Option String} {cs' : List Char}
    (hcs : skipBlanks cs' = skipBlanks cs) (h : Spells (lastLiteral text) cs rest)
    (hrest : skipBlanks rest = ']' :: after) :
    ∃ rest', optionalLiteral cs' = .ok (text, rest') ∧ skipBlanks rest' = skipBlanks rest := by
  cases text with
  | none =>
    obtain rfl : cs = rest := h
    refine ⟨skipBlanks cs, ?_, skipBlanks_skipBlanks cs⟩
    unfold optionalLiteral
    split
    · next hsemicolon => rw [hcs, hrest] at hsemicolon; cases hsemicolon
    · rw [hcs]
  | some text =>
    obtain ⟨mid, hsign, htext⟩ := spells_cons.mp h
    refine ⟨rest, ?_, rfl⟩
    rw [optionalLiteral, hcs, hsign.skipBlanks_sign (by decide)]
    simp only [literal_complete htext, bind, Except.bind]

/-- What may come last in the brackets of a function closes the term before it. -/
theorem closes_lastLiteral {text : Option String} (h : Spells (lastLiteral text) cs rest)
    (hrest : skipBlanks rest = ']' :: after) : Closes cs := by
  cases text with
  | none =>
    obtain rfl : cs = rest := h
    rw [Closes, hrest]
    exact fun c hc => .inr (Option.some.inj hc).symm
  | some text => exact h.closes (.inl rfl)

theorem tableArguments_complete {table : String} (htable : IsName table) (hinner : Reads inner t ts)
    (h : Spells (.name table :: .sign ';' :: ts) cs rest) (hrest : Closes rest) :
    ∃ rest', tableArguments inner cs = .ok ((table, t), rest') ∧
      skipBlanks rest' = skipBlanks rest := by
  obtain ⟨cs₁, hname, h⟩ := spells_cons.mp h
  obtain ⟨cs₂, hsign, hterm⟩ := spells_cons.mp h
  obtain ⟨rest', hread, hskip⟩ := hinner hterm hrest
  refine ⟨rest', ?_, hskip⟩
  have hbreaks : Breaks cs₁ := hsign.breaks rfl (by decide) (by decide)
  simp only [tableArguments, name_complete htable hbreaks hname,
    sign_complete (by decide) hsign, hread, bind, Except.bind]

theorem concatArguments_complete {before : String} {last : Option String}
    (hinner : Reads inner t ts)
    (h : Spells (.literal before :: .sign ';' :: (ts ++ lastLiteral last)) cs rest)
    (hrest : skipBlanks rest = ']' :: after) :
    ∃ rest', concatArguments inner cs = .ok (t.wrap (.concat (some before) last), rest') ∧
      skipBlanks rest' = skipBlanks rest := by
  obtain ⟨cs₁, hbefore, h⟩ := spells_cons.mp h
  obtain ⟨cs₂, hsign, h⟩ := spells_cons.mp h
  obtain ⟨cs₃, hterm, hlast⟩ := spells_append.mp h
  obtain ⟨cs₄, hread, hskip⟩ := hinner hterm (closes_lastLiteral hlast hrest)
  obtain ⟨rest', hread', hskip'⟩ := optionalLiteral_complete hskip hlast hrest
  refine ⟨rest', ?_, hskip'⟩
  have hliteral := literal_complete hbefore
  unfold concatArguments
  split
  · next body hbody =>
    rw [hbody] at hliteral
    simp only [hliteral, sign_complete (by decide) hsign, hread, hread', bind, Except.bind]
  · next hquote => exact absurd (hbefore.skipBlanks_eq rfl (by decide)) (hquote _)

/-- Without a literal in front the term is read first. It must not start with a quote, or its
    literal would be taken for the text before. -/
theorem concatArguments_complete_after {last : String} {u : Token} {us : List Token} {c : Char}
    (hinner : Reads inner t (u :: us)) (hhead : u.chars.head? = some c)
    (hblank : isBlank c = false) (hquote : c ≠ '"')
    (h : Spells (u :: (us ++ [.sign ';', .literal last])) cs rest) :
    concatArguments inner cs = .ok (t.wrap (.concat none (some last)), rest) := by
  obtain ⟨cs₁, hfirst, h'⟩ := spells_cons.mp h
  have hskip := hfirst.skipBlanks_eq hhead hblank
  -- The term is read from where the blanks before it have been skipped.
  have hcs : Spells ((u :: us) ++ [.sign ';', .literal last]) (skipBlanks cs) rest :=
    ⟨[], cs₁, by simp, hskip, h'⟩
  obtain ⟨cs₂, hterm, hlast⟩ := spells_append.mp hcs
  obtain ⟨cs₃, hread, hskip'⟩ := hinner hterm (hlast.closes (.inl rfl))
  obtain ⟨cs₄, hsign, htext⟩ := spells_cons.mp hlast
  unfold concatArguments
  split
  · next body hbody =>
    rw [hskip] at hbody
    have hc := congrArg List.head? hbody
    rw [List.head?_append, hhead] at hc
    exact absurd (Option.some.inj hc) hquote
  · simp only [hread, hskip', sign_complete (by decide) hsign, literal_complete htext, bind,
      Except.bind]

theorem label_head (f : FunctionName) :
    ∃ c, f.label.toList.head? = some c ∧ isAsciiLetter c ∧ isBlank c = false ∧ c ≠ '"' := by
  cases f <;> exact ⟨_, rfl, by decide⟩

/-- A term starts visibly, and with a quote only if it is nothing but a literal. -/
theorem head_of_writtenAs (h : t.WrittenAs ts) :
    ∃ u us c, ts = u :: us ∧ u.chars.head? = some c ∧ isBlank c = false ∧
      (c = '"' → ∃ text, t = ⟨[], .literal text⟩) := by
  cases h with
  | path hp =>
    cases hp with
    | literal text => exact ⟨_, _, '"', rfl, rfl, by decide, fun _ => ⟨text, rfl⟩⟩
    | fromRoot => exact ⟨_, _, 'a', rfl, rfl, by decide, fun h => absurd h (by decide)⟩
    | fromVariable => exact ⟨_, _, '@', rfl, rfl, by decide, fun h => absurd h (by decide)⟩
  | @function _ _ f | @functionWords _ _ f =>
    obtain ⟨c, hc, -, hblank, hquote⟩ := label_head f
    exact ⟨_, _, c, rfl, hc, hblank, fun h => absurd h hquote⟩

variable {w : Wrapper} {f : FunctionName} {args : List Token}

/-- **The arguments of a function are read up to its closing bracket.** -/
theorem arguments_complete (ht : t.WrittenAs ts) (hinner : Reads inner t ts) (hfit : w.Fits t)
    (hargs : w.Arguments ts f args) (h : Spells args cs rest)
    (hrest : skipBlanks rest = ']' :: after) :
    ∃ rest', arguments inner f cs = .ok (t.wrap w, rest') ∧ skipBlanks rest' = skipBlanks rest := by
  have hcloses : Closes rest := by
    rw [Closes, hrest]
    exact fun c hc => .inr (Option.some.inj hc).symm
  -- Both lookups read a table and a term in the same way, and then perhaps a default.
  have htable {table : String} {last : Option String} (htable : IsName table)
      (h : Spells ((.name table :: .sign ';' :: ts) ++ lastLiteral last) cs rest) :
      ∃ mid rest', tableArguments inner cs = .ok ((table, t), mid) ∧
        optionalLiteral mid = .ok (last, rest') ∧ skipBlanks rest' = skipBlanks rest := by
    obtain ⟨mid, hterm, hlast⟩ := spells_append.mp h
    obtain ⟨mid', hread, hskip⟩ :=
      tableArguments_complete htable hinner hterm (closes_lastLiteral hlast hrest)
    obtain ⟨rest', hread', hskip'⟩ := optionalLiteral_complete hskip hlast hrest
    exact ⟨mid', rest', hread, hread', hskip'⟩
  cases hargs with
  | isNull | normalizeBrand | cleanVersion =>
    obtain ⟨rest', hread, hskip⟩ := hinner h hcloses
    refine ⟨rest', ?_, hskip⟩
    simp only [arguments, hread, bind, Except.bind]
  | concat before last => exact concatArguments_complete hinner h hrest
  | concatAfter last =>
    obtain ⟨u, us, c, rfl, hhead, hblank, hliteral⟩ := head_of_writtenAs ht
    -- A term that starts with a quote is a literal alone, over which this function does not fit.
    have hquote : c ≠ '"' := fun hc => (hliteral hc).elim hfit
    exact ⟨rest, concatArguments_complete_after hinner hhead hblank hquote h, rfl⟩
  | lookUp table default | lookUpPrefix table default =>
    obtain ⟨mid, rest', hread, hread', hskip⟩ := htable hfit h
    refine ⟨rest', ?_, hskip⟩
    simp only [arguments, hread, hread', bind, Except.bind]
  | isInLookUpPrefix table =>
    obtain ⟨rest', hread, hskip⟩ := tableArguments_complete hfit hinner h hcloses
    refine ⟨rest', ?_, hskip⟩
    simp only [arguments, hread, bind, Except.bind]

/-- A function is read up to its closing bracket. -/
theorem function_brackets (ht : t.WrittenAs ts) (hinner : Reads inner t ts) (hfit : w.Fits t)
    (hargs : w.Arguments ts f args) (h : Spells (.sign '[' :: (args ++ [.sign ']'])) cs rest) :
    ∃ cs₁ cs₂, sign '[' (skipBlanks cs) = .ok cs₁ ∧ arguments inner f cs₁ = .ok (t.wrap w, cs₂) ∧
      sign ']' (skipBlanks cs₂) = .ok rest := by
  obtain ⟨cs₁, hopen, h⟩ := spells_cons.mp h
  obtain ⟨mid, hin, hclose⟩ := spells_append.mp h
  obtain ⟨cs₂, hread, hskip⟩ :=
    arguments_complete ht hinner hfit hargs hin (hclose.skipBlanks_sign (by decide))
  exact ⟨cs₁, cs₂, sign_complete (by decide) hopen, hread,
    hskip ▸ sign_complete (by decide) hclose⟩

theorem function_complete (ht : t.WrittenAs ts) (hinner : Reads inner t ts) (hfit : w.Fits t)
    (hargs : w.Arguments ts f args) (h : Spells (.sign '[' :: (args ++ [.sign ']'])) cs rest)
    (hrest : Closes rest) :
    ∃ rest', function inner f cs = .ok (t.wrap w, rest') ∧ skipBlanks rest' = skipBlanks rest := by
  obtain ⟨cs₁, cs₂, hopen, hread, hclose⟩ := function_brackets ht hinner hfit hargs h
  simp only [function, hopen, hread, hclose, bind, Except.bind]
  split
  · exact ⟨rest, rfl, rfl⟩
  · split
    · next hwords =>
      -- A word range would have to start where the term is known to be over.
      have := hrest _ (by rw [hwords]; rfl)
      simp at this
    · exact ⟨skipBlanks rest, rfl, skipBlanks_skipBlanks rest⟩

theorem function_complete_words {range : WordRange} {rs : List Token} (ht : t.WrittenAs ts)
    (hinner : Reads inner t ts) (hfit : w.Fits t) (hargs : w.Arguments ts f args)
    (hf : f ≠ .isNull) (hrange : range.Parseable) (hrs : range.WrittenAs rs)
    (h : Spells (.sign '[' :: (args ++ .sign ']' :: .sign '[' :: (rs ++ [.sign ']']))) cs rest) :
    function inner f cs = .ok ((t.wrap w).wrap (.words range), rest) := by
  rw [show Token.sign '[' :: (args ++ .sign ']' :: .sign '[' :: (rs ++ [.sign ']'])) =
    (.sign '[' :: (args ++ [.sign ']'])) ++ .sign '[' :: (rs ++ [.sign ']']) by simp] at h
  obtain ⟨mid, hfunction, hwords⟩ := spells_append.mp h
  obtain ⟨cs₁, cs₂, hopen, hread, hclose⟩ := function_brackets ht hinner hfit hargs hfunction
  obtain ⟨cs₃, hopen', hin⟩ := spells_cons.mp hwords
  simp only [function, hopen, hread, hclose, bind, Except.bind, if_neg hf,
    hopen'.skipBlanks_sign (by decide), wordRange_complete hrange hrs hin]

end Functions

/-! ### Terms -/

section Terms

variable {levels : Nat} {top : Bool} {cs rest : List Char} {ts : List Token}

/-- What starts with a name that starts with a letter is read by that name. -/
theorem term_of_name {s : String} {c : Char} (hc : s.toList.head? = some c)
    (hletter : isAsciiLetter c) (h : Spells [.name s] cs rest) :
    term (levels + 1) top cs = named (term levels false) top (s.toList ++ rest) := by
  have hname : isNameChar c = true := by simp [isNameChar, hletter]
  have hskip := h.skipBlanks_eq hc (isBlank_of_isNameChar hname)
  obtain ⟨cs', hs⟩ := List.head?_eq_some_iff.mp hc
  rw [Token.chars, hs, List.cons_append] at hskip
  rw [term, hs, List.cons_append]
  split
  · next hquote =>
    rw [hskip] at hquote
    cases hquote
    cases hletter
  · next hat =>
    rw [hskip] at hat
    cases hat
    cases hletter
  · next hcons =>
    rw [hskip] at hcons
    cases hcons
    exact if_pos hletter
  · next hnil => rw [hskip] at hnil; cases hnil

theorem isName_functionLabel (f : FunctionName) : IsName f.label := by cases f <;> decide

theorem ofLabel?_label (f : FunctionName) : FunctionName.ofLabel? f.label = some f := by
  cases f <;> rfl

theorem label_ne_agent (f : FunctionName) : f.label ≠ Fragment.agent.label := by
  cases f <;> decide

/-- A name of a function is followed by its brackets. -/
theorem term_of_functionName {f : FunctionName} {us : List Token}
    (hf : f = .isNull → top = true) (h : Spells (.name f.label :: .sign '[' :: us) cs rest) :
    ∃ cs', term (levels + 1) top cs = function (term levels false) f cs' ∧
      Spells (.sign '[' :: us) cs' rest := by
  obtain ⟨cs', hname, hin⟩ := spells_cons.mp h
  refine ⟨cs', ?_, hin⟩
  obtain ⟨c, hc, hletter, -, -⟩ := label_head f
  obtain ⟨mid, hopen, -⟩ := spells_cons.mp hin
  have hbreaks : Breaks cs' := hopen.breaks rfl (by decide) (by decide)
  rw [term_of_name hc hletter hname, named, name_append (isName_functionLabel f) hbreaks]
  simp only [bind, Except.bind, if_neg (label_ne_agent f), ofLabel?_label]
  exact if_neg (by simpa using hf)

theorem path_complete {p : Path} (hp : p.WellFormed) (hts : p.WrittenAs ts) :
    Reads (term (levels + 1) top) ⟨[], p⟩ ts := by
  intro cs rest h hrest
  cases hts with
  | literal text =>
    have hread := literal_complete h
    refine ⟨rest, ?_, rfl⟩
    rw [h.skipBlanks_eq rfl (by decide)] at hread
    rw [term, h.skipBlanks_eq rfl (by decide)]
    simp only [Token.chars, List.cons_append] at hread ⊢
    simp only [hread, bind, Except.bind]
  | fromRoot hsteps =>
    obtain ⟨cs', hname, hin⟩ := spells_cons.mp h
    obtain ⟨ss, hss, hwell⟩ := hp
    cases hss
    have hbreaks := breaks_of_steps hsteps hin hrest
    refine ⟨skipBlanks rest, ?_, skipBlanks_skipBlanks rest⟩
    rw [term_of_name rfl (by decide) hname, named, name_append (by decide) hbreaks]
    simp only [bind, Except.bind, if_true, steps_complete hwell hsteps hin hrest]
  | fromVariable name hsteps =>
    obtain ⟨cs', hname, hin⟩ := spells_cons.mp h
    have hbreaks := breaks_of_steps hsteps hin hrest
    refine ⟨skipBlanks rest, ?_, skipBlanks_skipBlanks rest⟩
    rw [term, hname.skipBlanks_eq rfl (by decide)]
    simp only [Token.chars, List.cons_append, name_append hp.1 hbreaks, bind, Except.bind,
      steps_complete hp.2 hsteps hin hrest]

/-- A wrapper that is written as a function is one. -/
theorem isWords_of_arguments {w : Wrapper} {f : FunctionName} {args : List Token}
    (h : w.Arguments ts f args) : w.isWords = false := by
  cases h <;> rfl

theorem isNull_of_arguments {w : Wrapper} {f : FunctionName} {args : List Token}
    (h : w.Arguments ts f args) : w = .isNull ↔ f = .isNull := by
  cases h <;> simp

/-- **A term is read from every text that spells it**, where there are levels enough. -/
theorem term_complete {t : Term} (hts : t.WrittenAs ts) (ht : t.Within levels top) :
    Reads (term levels top) t ts := by
  -- By induction on the grammar: the term inside a function has one level less.
  induction hts generalizing levels top with
  | path hp =>
    obtain ⟨levels, rfl⟩ := Nat.exists_eq_succ_of_ne_zero (Nat.ne_zero_of_lt ht.nesting)
    exact path_complete ht.path hp
  | function hinner hargs ih =>
    obtain ⟨levels, rfl⟩ := Nat.exists_eq_succ_of_ne_zero (Nat.ne_zero_of_lt ht.nesting)
    obtain ⟨htop, hfit, hin⟩ := (Term.within_wrap (isWords_of_arguments hargs)).mp ht
    intro cs rest h hrest
    obtain ⟨cs', hterm, hbrackets⟩ :=
      term_of_functionName (htop ∘ (isNull_of_arguments hargs).mpr) h
    rw [hterm]
    exact function_complete hinner (ih hin) hfit hargs hbrackets hrest
  | functionWords hinner hargs hrs ih =>
    obtain ⟨levels, rfl⟩ := Nat.exists_eq_succ_of_ne_zero (Nat.ne_zero_of_lt ht.nesting)
    obtain ⟨hrange, hnull, hwords, ht⟩ := Term.within_words.mp ht
    obtain ⟨htop, hfit, hin⟩ := (Term.within_wrap hwords).mp ht
    have hf := hnull ∘ (isNull_of_arguments hargs).mpr
    intro cs rest h hrest
    obtain ⟨cs', hterm, hbrackets⟩ := term_of_functionName (fun h => absurd h hf) h
    refine ⟨rest, ?_, rfl⟩
    rw [hterm]
    exact function_complete_words hinner (ih hin) hfit hargs hf hrange hrs hbrackets

theorem wholeText_complete {t : Term} {blanks : List Char} (hts : t.WrittenAs ts)
    (ht : t.WellFormed) (h : Spells ts cs blanks) (hblanks : ∀ c ∈ blanks, isBlank c) :
    wholeText cs = .ok t := by
  have hend := skipBlanks_of_blank hblanks
  have hcloses : Closes blanks := by
    rw [Closes, hend]
    exact fun c hc => nomatch hc
  obtain ⟨rest, hread, hskip⟩ := term_complete hts (Term.wellFormed_iff.mp ht) h hcloses
  simp only [wholeText, hread, bind, Except.bind, hskip, hend]

end Terms

end Reading

/-! ### Expressions -/

namespace Expression

/-- **A well-formed term is read from every text that writes it out**, unless the text is too
    long. -/
theorem parse_complete {t : Term} {text : String} (ht : t.WellFormed) (htext : t.WrittenIn text)
    (hlength : text.utf8ByteSize ≤ maxExpressionBytes) : parse text = .ok ⟨text, t⟩ := by
  obtain ⟨ts, blanks, hts, hspells, hblanks⟩ := htext
  rw [parse]
  simp only [byteLength_toList, if_neg (Nat.not_lt.mpr hlength),
    Reading.wholeText_complete hts ht hspells hblanks]

/-- The last word of a concatenation, written with blanks of several kinds. -/
def lastWord : Expression where
  text := "Concat [ \"a\\\"\";@Os.( 1-\u202F03)version ~\"x\\\\y\"; \"é\" ]\u3000[ - 1 ]\t"
  root :=
    ⟨[.words ⟨-1, some (-1)⟩, .concat (some "a\"") (some "é")],
      .fromVariable "Os" [.down .version ⟨1, 3⟩, .test .contains "x\\y"]⟩

theorem parse_complete_on_lastWord :
    lastWord.root.WellFormed ∧ lastWord.root.WrittenIn lastWord.text ∧
      lastWord.text.utf8ByteSize ≤ maxExpressionBytes ∧ parse lastWord.text = .ok lastWord := by
  have hone : Numeral 1 ['1'] := ⟨by decide, List.all_eq_true.mp (by decide), by decide⟩
  have hthree : Numeral 3 ['0', '3'] :=
    ⟨by decide, List.all_eq_true.mp (by decide), by decide⟩
  have hpath : lastWord.root.path.WellFormed := by
    refine ⟨by decide, fun step hstep => ?_⟩
    obtain rfl | rfl : step = .down .version ⟨1, 3⟩ ∨ step = .test .contains "x\\y" := by
      simpa [lastWord] using hstep
    · exact ⟨by decide, by decide⟩
    · trivial
  have hbare : Term.Within 31 false ⟨[], lastWord.root.path⟩ := Term.within_bare.mpr hpath
  have hconcat :
      (Term.wrap (.concat (some "a\"") (some "é")) ⟨[], lastWord.root.path⟩).Within 32 true :=
    (Term.within_wrap rfl).mpr ⟨by decide, trivial, hbare⟩
  have hwell : lastWord.root.WellFormed := Term.wellFormed_iff.mpr <| Term.within_words.mpr
    ⟨.fromEnd (by decide) (by decide), by decide, rfl, hconcat⟩
  have hblanks : ([([], .name "Concat"), ([' '], .sign '['), ([' '], .literal "a\""),
      ([], .sign ';'), ([], .atName "Os"), ([], .sign '.'), ([], .sign '('), ([' '], .digits ['1']),
      ([], .sign '-'), (['\u202F'], .digits ['0', '3']), ([], .sign ')'), ([], .name "version"),
      ([' '], .test .contains), ([], .literal "x\\y"), ([], .sign ';'), ([' '], .literal "é"),
      ([' '], .sign ']'), (['\u3000'], .sign '['), ([' '], .sign '-'), ([' '], .digits ['1']),
      ([' '], .sign ']')] : List (List Char × Token)).all fun p => p.1.all isBlank := by
    decide
  have hwritten : lastWord.root.WrittenIn lastWord.text :=
    ⟨_, ['\t'], .functionWords (.path (.fromVariable _ (.cons (.downRange (.between hone hthree))
      (.cons (.test ..) .nil)))) (.concat ..) (.fromEnd (by decide) hone),
      spells_flatMap hblanks ['\t'], List.all_eq_true.mp (by decide)⟩
  exact ⟨hwell, hwritten, by decide, parse_complete hwell hwritten (by decide)⟩

end Expression

end AgentRules
