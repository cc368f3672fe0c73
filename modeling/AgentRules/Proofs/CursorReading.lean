/-
  Expressions at a cursor.

  Every reader at a cursor answers as the reader of the remaining characters does, from the steps
  of a path up to terms. It leaves literals as they are written, so what it gives is unquoted in
  the comparison, and unquoting a term part by part is unquoting it as a whole. A term is
  started with room for as many terms as levels of nesting are left, and for one more, the one
  that is refused for being nested too deeply (`term_answers`).
-/
import AgentRules.Proofs.Cursor
import AgentRules.Proofs.Blank

namespace AgentRules

open Text

/-- A cursor that stands at some of the blanks that may still be skipped. -/
def StandsBefore (text : List Char) (depth : Nat) (c : Cursor) (cs : List Char) : Prop :=
  ∃ cs', Stands text depth c cs' ∧ Text.skipBlanks cs' = Text.skipBlanks cs

theorem Stands.before {text cs : List Char} {depth : Nat} {c : Cursor}
    (h : Stands text depth c cs) : StandsBefore text depth c cs := ⟨cs, h, rfl⟩

namespace CursorReader

variable {text cs rest : List Char} {depth : Nat} {c c' : Cursor}

/-! ### Steps -/

theorem wordRange_answers (h : Stands text depth c cs) :
    Answers text (Stands text depth) Eq (wordRange text c) (Reading.wordRange cs) := by
  refine (upTo_answers ']' h).bind ?_
  rintro ⟨part, place⟩ _ c' rest ⟨rfl, rfl⟩ hc'
  dsimp only
  cases WordRange.parse (String.ofList part) with
  | error e => exact .error hc'.safe h.remains
  | ok range => exact .ok rfl hc'

/-- The range of a descent, with its place as an offset and as what remains. -/
theorem writtenRange_answers (h : Stands text depth c cs) :
    Answers text (Stands text depth)
      (Option.Rel fun p q => p.1 = q.1 ∧ Remains text p.2 q.2)
      (writtenRange text c) (Reading.writtenRange cs) := by
  unfold Reading.writtenRange
  split
  · next body =>
    rw [writtenRange, bind_eq (eat_cons h)]
    refine (upTo_answers ')' h.next).bind ?_
    rintro ⟨part, place⟩ _ c' rest ⟨rfl, rfl⟩ hc'
    exact .ok (.some ⟨rfl, h.next.remains⟩) hc'
  · next hopen =>
    rw [writtenRange, bind_eq (eat_ne h (head?_ne hopen))]
    exact .ok .none h

theorem descent_answers (h : Stands text depth c cs) :
    Answers text (Stands text depth) (PathStep.unquoted · = ·) (descent text c)
      (Reading.descent cs) := by
  refine skipBlanks_bind h fun c₁ h₁ => ?_
  refine (writtenRange_answers h₁).bind fun range range' c₂ cs₂ hrange h₂ => ?_
  refine skipBlanks_bind h₂ fun c₃ h₃ => ?_
  rw [bind_eq (here_eq c₃)]
  refine (name_answers h₃).bind ?_
  rintro label _ c₄ rest rfl h₄
  dsimp only
  cases Reading.descentKind? label with
  | none => exact .error h₄.safe h₃.remains
  | some kind =>
    cases hrange with
    | none => exact .ok rfl h₄
    | @some p q hplace =>
      obtain ⟨part, place⟩ := p
      obtain ⟨part', place'⟩ := q
      obtain ⟨rfl, hplace⟩ := hplace
      dsimp only
      cases ChildRange.parse (String.ofList part) kind with
      | error e => exact .error h₄.safe hplace
      | ok range => exact .ok rfl h₄

theorem operand_answers (test : Test) (h : Stands text depth c cs) :
    Answers text (Stands text depth) (PathStep.unquoted · = ·) (operand text test c)
      (Reading.operand test cs) := by
  refine skipBlanks_bind h fun c₁ h₁ => ?_
  refine (literal_answers h₁).bind ?_
  rintro t _ c₂ rest rfl h₂
  exact .ok rfl h₂

/-- A step is read behind its first sign. -/
theorem answers_of_stepBehind? {sign : Char} {behind : CursorReader PathStep}
    {x : Reading (PathStep × List Char)} (h : Stands text depth c (sign :: cs))
    (hsign : stepBehind? text sign = some behind)
    (hx : ∀ c', Stands text depth c' cs →
      Answers text (Stands text depth) (PathStep.unquoted · = ·) (behind c') x) :
    Answers text (Stands text depth) (Option.map PathStep.unquoted · = ·)
      ((match (sign :: cs).head?.bind (stepBehind? text) with
        | some behind => do
          let _ ← bump text
          return some (← behind)
        | none => return none : CursorReader (Option PathStep)) c)
      (x >>= fun p => .ok (some p.1, p.2)) := by
  rw [List.head?_cons, Option.bind_some, hsign]
  refine bump_bind h ((hx _ h.next).bind ?_)
  rintro step _ c' rest rfl hc'
  exact .ok rfl hc'

/-- A step at a cursor is read behind the blanks before it. -/
theorem step?_answers (h : Stands text depth c cs) :
    Answers text (Stands text depth) (Option.map PathStep.unquoted · = ·) (step? text c)
      (Reading.step? (Text.skipBlanks cs)) := by
  refine skipBlanks_bind h fun c₁ h₁ => ?_
  rw [bind_eq (peek_eq h₁)]
  generalize Text.skipBlanks cs = cs at h₁
  unfold Reading.step?
  split
  case h_1 => exact answers_of_stepBehind? h₁ rfl fun c₂ h₂ => descent_answers h₂
  case h_2 => exact answers_of_stepBehind? h₁ rfl fun c₂ h₂ => operand_answers .equals h₂
  case h_3 cs =>
    have hnotEquals : ∀ c₂, Stands text depth c₂ cs →
        Answers text (Stands text depth) (PathStep.unquoted · = ·)
        ((do sign text '='; operand text .notEquals : CursorReader PathStep) c₂)
        (Reading.sign '=' cs >>= Reading.operand .notEquals) := fun c₂ h₂ =>
      sign_bind h₂ fun c₃ rest h₃ => operand_answers .notEquals h₃
    have hanswers := answers_of_stepBehind? h₁ rfl hnotEquals
    rwa [bind_assoc] at hanswers
  case h_4 => exact answers_of_stepBehind? h₁ rfl fun c₂ h₂ => operand_answers .startsWith h₂
  case h_5 => exact answers_of_stepBehind? h₁ rfl fun c₂ h₂ => operand_answers .endsWith h₂
  case h_6 => exact answers_of_stepBehind? h₁ rfl fun c₂ h₂ => operand_answers .contains h₂
  case h_7 cs =>
    have hwords : ∀ c₂, Stands text depth c₂ cs →
        Answers text (Stands text depth) (PathStep.unquoted · = ·)
        ((do return .words (← wordRange text) : CursorReader PathStep) c₂)
        (Reading.wordRange cs >>= fun p => .ok (.words p.1, p.2)) := by
      refine fun c₂ h₂ => (wordRange_answers h₂).bind ?_
      rintro range _ c₃ rest rfl h₃
      exact .ok rfl h₃
    have hanswers := answers_of_stepBehind? h₁ rfl hwords
    rwa [bind_assoc] at hanswers
  case h_8 hdot hequals hbang hopen hclose htilde hbracket =>
    have hnone : cs.head?.bind (stepBehind? text) = none := by
      cases cs with
      | nil => rfl
      | cons x cs =>
        rw [List.head?_cons, Option.bind_some]
        unfold stepBehind?
        split
        case h_1 => exact (hdot _ rfl).elim
        case h_2 => exact (hequals _ rfl).elim
        case h_3 => exact (hbang _ rfl).elim
        case h_4 => exact (hopen _ rfl).elim
        case h_5 => exact (hclose _ rfl).elim
        case h_6 => exact (htilde _ rfl).elim
        case h_7 => exact (hbracket _ rfl).elim
        case h_8 => rfl
    rw [hnone]
    exact .ok rfl h₁

/-- **The steps of a path** are read one after the other, each of them from less of the text. -/
theorem steps_answers (h : Stands text depth c cs) :
    Answers text (Stands text depth) (List.map PathStep.unquoted · = ·) (steps text c)
      (Reading.steps cs) := by
  fun_induction Reading.steps cs generalizing c with
  | case1 cs e hstep =>
    have hanswers := step?_answers h
    rw [hstep] at hanswers
    obtain ⟨offset, c', heq, hsafe, hplace⟩ := hanswers.of_error
    rw [steps, loop_error heq]
    exact .error hsafe hplace
  | case2 cs rest hstep =>
    have hanswers := step?_answers h
    rw [hstep] at hanswers
    obtain ⟨found, c', heq, hnone, hc'⟩ := hanswers.of_ok
    obtain rfl := Option.map_eq_none_iff.mp hnone
    rw [steps, loop_done heq]
    exact .ok rfl hc'
  | case3 cs step rest hstep ih =>
    have hanswers := step?_answers h
    rw [hstep] at hanswers
    obtain ⟨found, c', heq, hsome, hc'⟩ := hanswers.of_ok
    obtain ⟨written, rfl, rfl⟩ := Option.map_eq_some_iff.mp hsome
    have hlength := Nat.lt_of_lt_of_le (Reading.step?_length hstep) (Reading.skipBlanks_length cs)
    rw [steps, loop_again heq h hc' hlength]
    refine (ih hc').bind ?_
    rintro ss _ c'' rest' rfl hc''
    exact .ok rfl hc''

/-! ### Functions -/

theorem optionalLiteral_answers (h : Stands text depth c cs) :
    Answers text (Stands text depth) (Option.map unquoted · = ·) (optionalLiteral text c)
      (Reading.optionalLiteral cs) := by
  refine skipBlanks_bind h fun c₁ h₁ => ?_
  unfold Reading.optionalLiteral
  split
  · next body heq =>
    rw [heq] at h₁
    rw [bind_eq (eat_cons h₁)]
    refine skipBlanks_bind h₁.next fun c₂ h₂ => ?_
    refine (literal_answers h₂).bind ?_
    rintro t _ c₃ rest rfl h₃
    exact .ok rfl h₃
  · next hsemicolon =>
    rw [bind_eq (eat_ne h₁ (head?_ne hsemicolon))]
    exact .ok rfl h₁

/-- What is read of the arguments of a function with a table, with the literals in it unquoted. -/
def unquotedArguments (p : String × Term × Option String) : String × Term × Option String :=
  (p.1, p.2.1.unquoted, p.2.2.map unquoted)

section

variable {inner : CursorReader Term} {innerReading : Reading.TermReader}
  (hinner : ∀ {c cs}, Stands text depth c cs →
    Answers text (Stands text depth) (Term.unquoted · = ·) (inner c) (innerReading cs))

include hinner

theorem concatArguments_answers (h : Stands text depth c cs) :
    Answers text (Stands text depth) (Term.unquoted · = ·) (concatArguments text inner c)
      (Reading.concatArguments innerReading cs) := by
  refine skipBlanks_bind h fun c₁ h₁ => ?_
  unfold Reading.concatArguments
  split
  · next body heq =>
    rw [heq] at h₁
    rw [bind_eq (peek_eq h₁), if_pos (List.head?_cons ..)]
    refine (literal_answers h₁).bind ?_
    rintro before _ c₂ cs₂ rfl h₂
    refine skipBlanks_bind h₂ fun c₃ h₃ => ?_
    refine sign_bind h₃ fun c₄ cs₄ h₄ => ?_
    refine (hinner h₄).bind ?_
    rintro t _ c₅ cs₅ rfl h₅
    refine (optionalLiteral_answers h₅).bind ?_
    rintro after _ c₆ cs₆ rfl h₆
    exact .ok rfl h₆
  · next hquote =>
    rw [bind_eq (peek_eq h₁), if_neg (head?_ne hquote)]
    refine (hinner h₁).bind ?_
    rintro t _ c₂ cs₂ rfl h₂
    refine skipBlanks_bind h₂ fun c₃ h₃ => ?_
    refine sign_bind h₃ fun c₄ cs₄ h₄ => ?_
    refine skipBlanks_bind h₄ fun c₅ h₅ => ?_
    refine (literal_answers h₅).bind ?_
    rintro after _ c₆ cs₆ rfl h₆
    exact .ok rfl h₆

/-- The arguments of a function with a table, up to where a default may stand. -/
theorem tableArguments_answers {α : Type} {P : Cursor → List Char → Prop}
    {R : String × Term × Option String → α → Prop} {withDefault : Bool}
    {g : (String × Term) × List Char → Reading (α × List Char)} (h : Stands text depth c cs)
    (hg : ∀ table t c' rest, Stands text depth c' rest → Answers text P R
      ((if withDefault then do return (table, t, ← optionalLiteral text)
        else do
          skipBlanks text
          return (table, t, none) : CursorReader (String × Term × Option String)) c')
      (g ((table, t.unquoted), rest))) :
    Answers text P R (tableArguments text inner withDefault c)
      (Reading.tableArguments innerReading cs >>= g) := by
  refine skipBlanks_bind h fun c₁ h₁ => ?_
  rw [Reading.tableArguments, bind_assoc]
  refine (name_answers h₁).bind ?_
  rintro table _ c₂ cs₂ rfl h₂
  dsimp only
  rw [bind_assoc]
  refine skipBlanks_bind h₂ fun c₃ h₃ => ?_
  refine sign_bind h₃ fun c₄ cs₄ h₄ => ?_
  rw [bind_assoc]
  refine (hinner h₄).bind ?_
  rintro t _ c₅ cs₅ rfl h₅
  exact hg table t c₅ cs₅ h₅

theorem tableArguments_default (h : Stands text depth c cs) :
    Answers text (StandsBefore text depth) (unquotedArguments · = ·)
      (tableArguments text inner true c)
      (Reading.tableArguments innerReading cs >>= fun p =>
        Reading.optionalLiteral p.2 >>= fun q => .ok ((p.1.1, p.1.2, q.1), q.2)) := by
  refine tableArguments_answers hinner h fun table t c' rest hc' => ?_
  refine (optionalLiteral_answers hc').bind ?_
  rintro default _ c'' rest' rfl hc''
  exact .ok rfl hc''.before

theorem tableArguments_noDefault (h : Stands text depth c cs) :
    Answers text (StandsBefore text depth) (unquotedArguments · = ·)
      (tableArguments text inner false c)
      (Reading.tableArguments innerReading cs >>= fun p => .ok ((p.1.1, p.1.2, none), p.2)) := by
  refine tableArguments_answers hinner h fun table t c' rest hc' => ?_
  exact skipBlanks_bind hc' fun c'' hc'' => .ok rfl ⟨_, hc'', skipBlanks_skipBlanks rest⟩

theorem arguments_answers {f : FunctionName} (h : Stands text depth c cs) :
    Answers text (StandsBefore text depth) (Term.unquoted · = ·) (arguments text inner f c)
      (Reading.arguments innerReading f cs) := by
  have hwrap : ∀ w : Wrapper, Answers text (StandsBefore text depth) (Term.unquoted · = ·)
      ((do return (← inner).wrap w : CursorReader Term) c)
      (innerReading cs >>= fun p => .ok (p.1.wrap w.unquoted, p.2)) := by
    intro w
    refine (hinner h).bind ?_
    rintro t _ c' rest rfl hc'
    exact .ok rfl hc'.before
  have htable : ∀ {withDefault : Bool} {x : Reading ((String × Term × Option String) × List Char)}
      (w : String → Option String → Wrapper),
      (∀ table default, (w table default).unquoted = w table (default.map unquoted)) →
      Answers text (StandsBefore text depth) (unquotedArguments · = ·)
        (tableArguments text inner withDefault c) x →
      Answers text (StandsBefore text depth) (Term.unquoted · = ·)
        ((do
          let p ← tableArguments text inner withDefault
          return p.2.1.wrap (w p.1 p.2.2) : CursorReader Term) c)
        (x >>= fun p => .ok (p.1.2.1.wrap (w p.1.1 p.1.2.2), p.2)) := by
    intro withDefault x w hw hx
    refine hx.bind ?_
    rintro p _ c' rest rfl hc'
    exact .ok (congrArg₂ Term.mk (congrArg (· :: _) (hw p.1 p.2.2)) rfl) hc'
  cases f with
  | isNull => exact hwrap .isNull
  | concat => exact (concatArguments_answers hinner h).imp fun _ _ hc' => hc'.before
  | normalizeBrand => exact hwrap .normalizeBrand
  | cleanVersion => exact hwrap .cleanVersion
  | lookUp =>
    have hanswers := htable .lookUp (fun _ _ => rfl) (tableArguments_default hinner h)
    simp only [bind_assoc] at hanswers
    exact hanswers
  | lookUpPrefix =>
    have hanswers := htable .lookUpPrefix (fun _ _ => rfl) (tableArguments_default hinner h)
    simp only [bind_assoc] at hanswers
    exact hanswers
  | isInLookUpPrefix =>
    have hanswers := htable (fun table _ => .isInLookUpPrefix table) (fun _ _ => rfl)
      (tableArguments_noDefault hinner h)
    simp only [bind_assoc] at hanswers
    exact hanswers

theorem function_answers {f : FunctionName} (h : Stands text depth c cs) :
    Answers text (Stands text depth) (Term.unquoted · = ·) (function text inner f c)
      (Reading.function innerReading f cs) := by
  refine skipBlanks_bind h fun c₁ h₁ => ?_
  refine sign_bind h₁ fun c₂ cs₂ h₂ => ?_
  refine (arguments_answers hinner h₂).bind ?_
  rintro t _ c₃ cs₃ rfl ⟨cs₃', h₃, hblanks⟩
  refine skipBlanks_bind h₃ fun c₄ h₄ => ?_
  rw [hblanks] at h₄
  refine sign_bind h₄ fun c₅ cs₅ h₅ => ?_
  by_cases hf : f = .isNull
  · rw [if_pos hf, if_pos hf]
    exact .ok rfl h₅
  · rw [if_neg hf, if_neg hf]
    refine skipBlanks_bind h₅ fun c₆ h₆ => ?_
    split
    · next body heq =>
      rw [heq] at h₆
      rw [bind_eq (eat_cons h₆)]
      refine (wordRange_answers h₆.next).bind ?_
      rintro range _ c₇ cs₇ rfl h₇
      exact .ok rfl h₇
    · next hbracket =>
      rw [bind_eq (eat_ne h₆ (head?_ne hbracket))]
      exact .ok rfl h₆

theorem named_answers {top : Bool} (h : Stands text depth c cs) :
    Answers text (Stands text depth) (Term.unquoted · = ·) (named text inner top c)
      (Reading.named innerReading top cs) := by
  rw [named, bind_eq (here_eq c)]
  refine (name_answers h).bind ?_
  rintro label _ c₁ cs₁ rfl h₁
  dsimp only
  by_cases hagent : label = Fragment.agent.label
  · rw [if_pos hagent, if_pos hagent]
    refine (steps_answers h₁).bind ?_
    rintro ss _ c₂ cs₂ rfl h₂
    exact .ok rfl h₂
  · rw [if_neg hagent, if_neg hagent]
    cases FunctionName.ofLabel? label with
    | none => exact .error h₁.safe h.remains
    | some f =>
      dsimp only
      by_cases htop : f = .isNull ∧ (!top) = true
      · rw [if_pos htop, if_pos htop]
        exact .error h₁.safe h.remains
      · rw [if_neg htop, if_neg htop]
        exact function_answers hinner h₁

end

/-! ### Terms -/

theorem termBody_answers {levels : Nat} {top : Bool} {inner : CursorReader Term}
    (hinner : ∀ {c cs}, Stands text depth c cs →
      Answers text (Stands text depth) (Term.unquoted · = ·) (inner c)
        (Reading.term levels false cs))
    (h : Stands text depth c cs) :
    Answers text (Stands text depth) (Term.unquoted · = ·) (termBody text inner top c)
      (Reading.term (levels + 1) top cs) := by
  refine skipBlanks_bind h fun c₁ h₁ => ?_
  rw [bind_eq (peek_eq h₁)]
  unfold Reading.term
  split
  · next body heq =>
    rw [heq] at h₁ ⊢
    refine (literal_answers h₁).bind ?_
    rintro t _ c₂ cs₂ rfl h₂
    exact .ok rfl h₂
  · next cs' heq =>
    rw [heq] at h₁ ⊢
    refine bump_bind h₁ ((name_answers h₁.next).bind ?_)
    rintro label _ c₂ cs₂ rfl h₂
    refine (steps_answers h₂).bind ?_
    rintro ss _ c₃ cs₃ rfl h₃
    exact .ok rfl h₃
  · next x cs' hquote hat heq =>
    rw [heq] at h₁ ⊢
    dsimp only [List.head?_cons]
    rw [if_neg hquote, if_neg hat]
    by_cases hletter : isAsciiLetter x
    · rw [if_pos hletter, if_pos hletter]
      exact named_answers hinner h₁
    · rw [if_neg hletter, if_neg hletter]
      exact .error h₁.safe h₁.remains
  · next heq =>
    rw [heq] at h₁ ⊢
    exact .error h₁.safe h₁.remains

/-- **A term is read** wherever there is room for it and for as many more as levels of nesting
    are left. -/
theorem term_answers {levels : Nat} {top : Bool} (hlevels : depth + levels = maxNesting)
    (h : Stands text depth c cs) :
    Answers text (Stands text depth) (Term.unquoted · = ·) (term text (levels + 1) top c)
      (Reading.term levels top cs) := by
  induction levels generalizing depth top c cs with
  | zero =>
    have hdeep : maxNesting < c.depth + 1 := by
      rw [h.depth_eq]
      omega
    have hstarted := h.withDepth (c.depth + 1)
    rw [term, bind_eq (enter_eq c), bind_eq (depth_eq _), if_pos hdeep, Reading.term]
    exact .error hstarted.safe hstarted.remains
  | succ levels ih =>
    have hroom : ¬ maxNesting < c.depth + 1 := by
      rw [h.depth_eq]
      omega
    have hinner : ∀ {c' cs'}, Stands text (depth + 1) c' cs' →
        Answers text (Stands text (depth + 1)) (Term.unquoted · = ·)
          (term text (levels + 1) false c') (Reading.term levels false cs') :=
      fun h' => ih (by omega) h'
    have hstarted : Stands text (depth + 1) { c with depth := c.depth + 1 } cs :=
      h.depth_eq ▸ h.withDepth (c.depth + 1)
    rw [term, bind_eq (enter_eq c), bind_eq (depth_eq _), if_neg hroom,
      ← bind_pure (Reading.term ..)]
    refine (termBody_answers hinner hstarted).bind ?_
    rintro t _ c' rest rfl hc'
    rw [bind_eq (leave_eq c'), hc'.depth_eq]
    exact .ok rfl (hc'.withDepth depth)

/-- **A text is read at a cursor** as it is read from its characters. -/
theorem wholeText_answers (text : List Char) :
    Answers text (Stands text 0) (Term.unquoted · = ·) (wholeText text (maxNesting + 1) .start)
      (do .ok (← Reading.wholeText text, [])) := by
  rw [Reading.wholeText, bind_assoc]
  refine (term_answers (Nat.zero_add maxNesting) (.start text)).bind ?_
  rintro t _ c₁ cs₁ rfl h₁
  refine skipBlanks_bind h₁ fun c₂ h₂ => ?_
  rw [bind_eq (peek_eq h₂)]
  dsimp only
  cases hrest : Text.skipBlanks cs₁ with
  | nil =>
    rw [hrest] at h₂
    exact .ok rfl h₂
  | cons x cs =>
    rw [hrest] at h₂
    exact .error h₂.safe h₂.remains

end CursorReader

namespace Expression

/-- Reading at a cursor ends as reading does, with a safe cursor: at the end of the text, or
    something remains of the text where a fault is found. -/
theorem parseAt_eq (s : String) :
    ∃ c, parseAt s (maxNesting + 1) = ((parse s).mapError .refused, c) ∧ c.Safe s.toList ∧
      (∀ e, parse s = .ok e → c.pos = s.utf8ByteSize) ∧
      ∀ f offset, parse s = .error (.fault f offset) → ∃ rest, Remains s.toList offset rest := by
  have hanswers := CursorReader.wholeText_answers s.toList
  unfold parseAt parse
  simp only [byteLength_toList]
  by_cases hlong : maxExpressionBytes < s.utf8ByteSize
  · rw [if_pos hlong, if_pos hlong]
    exact ⟨.start, rfl, (Stands.start s.toList).safe, nofun, nofun⟩
  · rw [if_neg hlong, if_neg hlong]
    cases hread : Reading.wholeText s.toList with
    | ok root =>
      rw [hread] at hanswers
      obtain ⟨_, c, heq, rfl, hc⟩ := hanswers.of_ok
      have hend : c.pos + byteLength [] = byteLength s.toList := hc.remains.add_eq
      rw [byteLength_nil, Nat.add_zero, byteLength_toList] at hend
      rw [heq]
      exact ⟨c, rfl, hc.safe, fun _ _ => hend, nofun⟩
    | error failure =>
      obtain ⟨f, rest⟩ := failure
      rw [hread] at hanswers
      obtain ⟨offset, c, heq, hsafe, hplace⟩ := hanswers.of_error
      have hoffset : s.utf8ByteSize - byteLength rest = offset := by
        rw [← byteLength_toList, ← hplace.add_eq, Nat.add_sub_cancel]
      rw [heq]
      dsimp only
      rw [hoffset]
      refine ⟨c, rfl, hsafe, nofun, fun f' offset' h => ?_⟩
      cases h
      exact ⟨rest, hplace⟩

/-- **The cursor is safe.** Reading any text at a cursor ends as `parse` does, so no slice is cut
    where no character starts, no loop goes round without getting on, and one term more than
    levels of nesting is all there has to be room for. The cursor never moves back; when an
    expression has been read it stands at the end of the text; and each offset that it stands
    at, like that of each fault, is where a character starts or the text ends. -/
theorem cursor_safe (s : String) :
    (parseAt s (maxNesting + 1)).1 = (parse s).mapError .refused ∧
      (parseAt s (maxNesting + 1)).2.visited.Pairwise (· ≥ ·) ∧
      (∀ e, parse s = .ok e → (parseAt s (maxNesting + 1)).2.pos = s.utf8ByteSize) ∧
      (∀ pos ∈ (parseAt s (maxNesting + 1)).2.visited, String.Pos.Raw.IsValid s ⟨pos⟩) ∧
      ∀ f offset, parse s = .error (.fault f offset) → String.Pos.Raw.IsValid s ⟨offset⟩ := by
  obtain ⟨c, heq, hsafe, hend, hfault⟩ := parseAt_eq s
  rw [heq]
  refine ⟨rfl, hsafe.forward, hend, fun pos hpos => ?_, fun f offset h => ?_⟩
  · obtain ⟨rest, hrest⟩ := hsafe.remains pos hpos
    exact hrest.isValid
  · obtain ⟨rest, hrest⟩ := hfault f offset h
    exact hrest.isValid

/-- The fault behind a literal of four bytes and a blank is at the fifth byte. -/
theorem cursor_safe_trailing :
    parse "\"é\" x" = .error (.fault .trailing 5) ∧ String.Pos.Raw.IsValid "\"é\" x" ⟨5⟩ := by
  have hfault : parse "\"é\" x" = .error (.fault .trailing 5) := by decide +kernel
  exact ⟨hfault, (cursor_safe _).2.2.2.2 _ _ hfault⟩

end Expression

end AgentRules
