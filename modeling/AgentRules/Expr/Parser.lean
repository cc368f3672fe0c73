/-
  Reading expressions.

  The grammar is small enough for a reader that looks one character ahead. A term is a
  literal, a path from `agent` or from `@Name`, or a function over a term. Blanks may
  stand between any two tokens. Steps follow a path for as long as there are any; a word
  range may follow a function, other than the check for a missing value.

  Nesting is limited, and the limit is what the recursion runs on: `term` takes the number
  of levels that may still be opened. The loop over the steps of a path ends because every
  step shortens the remaining text.
-/
import AgentRules.Expr
import AgentRules.Expr.Lexeme

namespace AgentRules

/-- The functions of the expression language. -/
inductive FunctionName
  | isNull
  | concat
  | normalizeBrand
  | cleanVersion
  | lookUp
  | lookUpPrefix
  | isInLookUpPrefix
  deriving DecidableEq

namespace FunctionName

/-- All functions. -/
def all : List FunctionName :=
  [isNull, concat, normalizeBrand, cleanVersion, lookUp, lookUpPrefix, isInLookUpPrefix]

/-- The name a function is written with. -/
def label : FunctionName → String
  | isNull => "IsNull"
  | concat => "Concat"
  | normalizeBrand => "NormalizeBrand"
  | cleanVersion => "CleanVersion"
  | lookUp => "LookUp"
  | lookUpPrefix => "LookUpPrefix"
  | isInLookUpPrefix => "IsInLookUpPrefix"

/-- The function written with a name. -/
def ofLabel? (s : String) : Option FunctionName := all.find? (·.label == s)

end FunctionName

namespace Reading

open Text

/-! ### Steps -/

/-- Reads the text of a word range, whose opening bracket has been read. -/
def wordRange (cs : List Char) : Reading (WordRange × List Char) := do
  let (text, rest) ← upTo ']' cs
  match WordRange.parse (String.ofList text) with
  | .ok range => .ok (range, rest)
  | .error e => .error ⟨.range e, cs⟩

/-- Reads the range of a descent, if one is written: its text, and where it stands. -/
def writtenRange : List Char → Reading (Option (List Char × List Char) × List Char)
  | '(' :: cs => do
    let (text, rest) ← upTo ')' cs
    .ok (some (text, cs), rest)
  | cs => .ok (none, cs)

/-- The kind of node that a name lets a path descend to. The root of a tree is below no
    node. -/
def descentKind? (name : String) : Option Fragment :=
  (Fragment.ofLabel? name).filter (· ≠ .agent)

/-- Reads a descent after its dot: a range in parentheses, or none, and a kind of node. The
    range is understood after the kind, because its open forms depend on it. -/
def descent (cs : List Char) : Reading (PathStep × List Char) := do
  let (range, cs) ← writtenRange (skipBlanks cs)
  let start := skipBlanks cs
  let (label, rest) ← name start
  match descentKind? label with
  | none => .error ⟨.notDescendable label, start⟩
  | some kind =>
    match range with
    | none => .ok (.down kind (.usual kind), rest)
    | some (text, place) =>
      match ChildRange.parse (String.ofList text) kind with
      | .ok range => .ok (.down kind range, rest)
      | .error e => .error ⟨.range e, place⟩

/-- Reads the text of a test, whose sign has been read. -/
def operand (test : Test) (cs : List Char) : Reading (PathStep × List Char) := do
  let (text, rest) ← literal (skipBlanks cs)
  .ok (.test test text, rest)

/-- Reads one step of a path, if the text goes on with one. -/
def step? : List Char → Reading (Option PathStep × List Char)
  | '.' :: cs => do
    let (step, rest) ← descent cs
    .ok (some step, rest)
  | '=' :: cs => do
    let (step, rest) ← operand .equals cs
    .ok (some step, rest)
  | '!' :: cs => do
    let cs ← sign '=' cs
    let (step, rest) ← operand .notEquals cs
    .ok (some step, rest)
  | '\x7b' :: cs => do
    let (step, rest) ← operand .startsWith cs
    .ok (some step, rest)
  | '\x7d' :: cs => do
    let (step, rest) ← operand .endsWith cs
    .ok (some step, rest)
  | '~' :: cs => do
    let (step, rest) ← operand .contains cs
    .ok (some step, rest)
  | '[' :: cs => do
    let (range, rest) ← wordRange cs
    .ok (some (.words range), rest)
  | cs => .ok (none, cs)

/-- The first of two readers in a row succeeds when both do. -/
theorem bind_eq_ok {ε α β : Type} {x : Except ε α} {f : α → Except ε β} {b : β}
    (h : (x >>= f) = .ok b) : ∃ a, x = .ok a ∧ f a = .ok b := by
  cases x with
  | error e => cases h
  | ok a => exact ⟨a, rfl, h⟩

theorem wordRange_length {cs rest : List Char} {r : WordRange} (h : wordRange cs = .ok (r, rest)) :
    rest.length < cs.length := by
  obtain ⟨⟨text, rest'⟩, hup, h⟩ := bind_eq_ok h
  have hlt := upTo_length hup
  dsimp only at h
  split at h <;> cases h
  exact hlt

theorem writtenRange_length {cs rest : List Char} {r : Option (List Char × List Char)}
    (h : writtenRange cs = .ok (r, rest)) : rest.length ≤ cs.length := by
  unfold writtenRange at h
  split at h
  · next cs =>
    obtain ⟨⟨text, rest'⟩, hup, h⟩ := bind_eq_ok h
    cases h
    have := upTo_length hup
    simp only [List.length_cons]
    omega
  · cases h; exact Nat.le_refl _

theorem descent_length {cs rest : List Char} {s : PathStep} (h : descent cs = .ok (s, rest)) :
    rest.length < cs.length := by
  obtain ⟨⟨range, cs₁⟩, hrange, h⟩ := bind_eq_ok h
  obtain ⟨⟨label, rest'⟩, hname, h⟩ := bind_eq_ok h
  have h₁ := writtenRange_length hrange
  have h₂ := name_length hname
  have h₃ := skipBlanks_length cs
  have h₄ := skipBlanks_length cs₁
  have hrest : rest' = rest := by
    dsimp only at h
    repeat' split at h
    all_goals cases h
    all_goals rfl
  subst hrest
  omega

theorem operand_length {t : Test} {cs rest : List Char} {s : PathStep}
    (h : operand t cs = .ok (s, rest)) : rest.length < cs.length := by
  obtain ⟨⟨text, rest'⟩, hlit, h⟩ := bind_eq_ok h
  cases h
  have := literal_length hlit
  have := skipBlanks_length cs
  omega

/-- A step takes at least its sign off the text. -/
theorem step?_length {cs rest : List Char} {s : PathStep} (h : step? cs = .ok (some s, rest)) :
    rest.length < cs.length := by
  unfold step? at h
  split at h
  case h_1 =>
    obtain ⟨⟨_, _⟩, hd, h⟩ := bind_eq_ok h
    cases h
    exact Nat.lt_succ_of_lt (descent_length hd)
  case h_3 =>
    obtain ⟨_, hsign, h⟩ := bind_eq_ok h
    obtain ⟨⟨_, _⟩, hop, h⟩ := bind_eq_ok h
    cases h
    exact Nat.lt_succ_of_lt (Nat.lt_trans (operand_length hop) (sign_length hsign))
  case h_7 =>
    obtain ⟨⟨_, _⟩, hw, h⟩ := bind_eq_ok h
    cases h
    exact Nat.lt_succ_of_lt (wordRange_length hw)
  case h_8 => cases h
  all_goals
    obtain ⟨⟨_, _⟩, hop, h⟩ := bind_eq_ok h
    cases h
    exact Nat.lt_succ_of_lt (operand_length hop)

/-- Reads the steps of a path. -/
def steps (cs : List Char) : Reading (List PathStep × List Char) :=
  match _h : step? (skipBlanks cs) with
  | .error e => .error e
  | .ok (none, rest) => .ok ([], rest)
  | .ok (some s, rest) => do
    let (ss, rest) ← steps rest
    .ok (s :: ss, rest)
termination_by cs.length
decreasing_by exact Nat.lt_of_lt_of_le (step?_length _h) (skipBlanks_length cs)

/-! ### Functions

The readers for the arguments of functions are given the reader for the term inside. -/

/-- A reader for terms. -/
abbrev TermReader := List Char → Reading (Term × List Char)

/-- Reads a literal that follows a semicolon, if there is a semicolon. -/
def optionalLiteral (cs : List Char) : Reading (Option String × List Char) :=
  match skipBlanks cs with
  | ';' :: cs => do
    let (text, rest) ← literal (skipBlanks cs)
    .ok (some text, rest)
  | cs => .ok (none, cs)

/-- Reads the arguments of a concatenation: a literal, a term and perhaps a literal; or a
    term and a literal. -/
def concatArguments (inner : TermReader) (cs : List Char) : Reading (Term × List Char) :=
  match skipBlanks cs with
  | '"' :: body => do
    let (before, cs) ← literal ('"' :: body)
    let cs ← sign ';' (skipBlanks cs)
    let (t, cs) ← inner cs
    let (after, cs) ← optionalLiteral cs
    .ok (t.wrap (.concat (some before) after), cs)
  | cs => do
    let (t, cs) ← inner cs
    let cs ← sign ';' (skipBlanks cs)
    let (after, cs) ← literal (skipBlanks cs)
    .ok (t.wrap (.concat none (some after)), cs)

/-- Reads the name of a table and the term to be looked up in it. -/
def tableArguments (inner : TermReader) (cs : List Char) :
    Reading ((String × Term) × List Char) := do
  let (table, cs) ← name (skipBlanks cs)
  let cs ← sign ';' (skipBlanks cs)
  let (t, cs) ← inner cs
  .ok ((table, t), cs)

/-- Reads the arguments of a function, and gives the function over its term. -/
def arguments (inner : TermReader) (f : FunctionName) (cs : List Char) :
    Reading (Term × List Char) :=
  match f with
  | .isNull => do
    let (t, cs) ← inner cs
    .ok (t.wrap .isNull, cs)
  | .concat => concatArguments inner cs
  | .normalizeBrand => do
    let (t, cs) ← inner cs
    .ok (t.wrap .normalizeBrand, cs)
  | .cleanVersion => do
    let (t, cs) ← inner cs
    .ok (t.wrap .cleanVersion, cs)
  | .lookUp => do
    let ((table, t), cs) ← tableArguments inner cs
    let (default, cs) ← optionalLiteral cs
    .ok (t.wrap (.lookUp table default), cs)
  | .lookUpPrefix => do
    let ((table, t), cs) ← tableArguments inner cs
    let (default, cs) ← optionalLiteral cs
    .ok (t.wrap (.lookUpPrefix table default), cs)
  | .isInLookUpPrefix => do
    let ((table, t), cs) ← tableArguments inner cs
    .ok (t.wrap (.isInLookUpPrefix table), cs)

/-- Reads a function after its name. -/
def function (inner : TermReader) (f : FunctionName) (cs : List Char) :
    Reading (Term × List Char) := do
  let cs ← sign '[' (skipBlanks cs)
  let (t, cs) ← arguments inner f cs
  let cs ← sign ']' (skipBlanks cs)
  if f = .isNull then .ok (t, cs)
  else
    match skipBlanks cs with
    | '[' :: cs => do
      let (range, cs) ← wordRange cs
      .ok (t.wrap (.words range), cs)
    | cs => .ok (t, cs)

/-- Reads what starts with a name: a path from the root, or a function. Where `top` is
    false the check for a missing value is refused. -/
def named (inner : TermReader) (top : Bool) (start : List Char) :
    Reading (Term × List Char) := do
  let (label, cs) ← name start
  if label = Fragment.agent.label then do
    let (ss, cs) ← steps cs
    .ok (⟨[], .fromRoot (.down .agent (.single 0) :: ss)⟩, cs)
  else
    match FunctionName.ofLabel? label with
    | none => .error ⟨.unknownFunction label, start⟩
    | some f => if f = .isNull ∧ !top then .error ⟨.innerIsNull, start⟩ else function inner f cs

/-- Reads a term, with `levels` levels of nesting left. -/
def term (levels : Nat) (top : Bool) (cs : List Char) : Reading (Term × List Char) :=
  match levels with
  | 0 => .error ⟨.tooDeep, cs⟩
  | levels + 1 =>
    match skipBlanks cs with
    | '"' :: body => do
      let (text, cs) ← literal ('"' :: body)
      .ok (⟨[], .literal text⟩, cs)
    | '@' :: cs => do
      let (label, cs) ← name cs
      let (ss, cs) ← steps cs
      .ok (⟨[], .fromVariable label ss⟩, cs)
    | c :: cs =>
      if isAsciiLetter c then named (term levels false) top (c :: cs)
      else .error ⟨.noStart, c :: cs⟩
    | [] => .error ⟨.noStart, []⟩

/-- Reads a whole text as one term. -/
def wholeText (cs : List Char) : Reading Term := do
  let (t, rest) ← term maxNesting true cs
  match skipBlanks rest with
  | [] => .ok t
  | rest => .error ⟨.trailing, rest⟩

end Reading

namespace Expression

/-- Reads an expression, or says what is wrong with its text. -/
def parse (text : String) : Except ReadError Expression :=
  let cs := text.toList
  let bytes := Text.byteLength cs
  if maxExpressionBytes < bytes then .error (.tooLong bytes)
  else
    match Reading.wholeText cs with
    | .ok root => .ok ⟨text, root⟩
    | .error ⟨fault, rest⟩ => .error (.fault fault (bytes - Text.byteLength rest))

end Expression

end AgentRules
