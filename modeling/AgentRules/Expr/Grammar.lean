/-
  The grammar of expressions.

  The grammar says which tokens a term is written with, one constructor for each production,
  and which texts spell given tokens out. A text may have any blanks before every token. The
  reader does not occur here: that it reads what the grammar writes is proved, not assumed.

      term      literal  |  path  |  function  |  function [ words ]
      path      agent step*  |  @Name step*
      step      . kind  |  . ( children ) kind  |  test literal  |  [ words ]
      function  IsNull [ term ]
             |  Concat [ literal ; term ]  |  Concat [ literal ; term ; literal ]
             |  Concat [ term ; literal ]
             |  NormalizeBrand [ term ]  |  CleanVersion [ term ]
             |  LookUp [ Name ; term ]  |  LookUp [ Name ; term ; literal ]
             |  LookUpPrefix [ Name ; term ]  |  LookUpPrefix [ Name ; term ; literal ]
             |  IsInLookUpPrefix [ Name ; term ]
-/
import AgentRules.Expr.Parser

namespace AgentRules

/-! ### Tokens -/

/-- A token of an expression. There may be blanks before and after it, but none inside. -/
inductive Token
  /-- A single character that is a token of its own. -/
  | sign (c : Char)
  /-- The sign of a test. -/
  | test (t : Test)
  | name (s : String)
  /-- The name of a variable with the mark before it. -/
  | atName (s : String)
  /-- A text in quotes. -/
  | literal (s : String)
  /-- The digits of a number. -/
  | digits (ds : List Char)

namespace Token

/-- A character as it stands in a literal. -/
def escape (c : Char) : List Char := if c = '"' ∨ c = '\\' then ['\\', c] else [c]

/-- The characters of a token. -/
def chars : Token → List Char
  | sign c => [c]
  | test t => t.sign.toList
  | name s => s.toList
  | atName s => '@' :: s.toList
  | literal s => '"' :: (s.toList.flatMap escape ++ ['"'])
  | digits ds => ds

end Token

/-- The text `cs` starts with the given tokens, with any blanks before each, and goes on
    with `rest`. -/
def Spells : List Token → List Char → List Char → Prop
  | [], cs, rest => cs = rest
  | t :: ts, cs, rest =>
    ∃ blanks after, (∀ c ∈ blanks, Text.isBlank c) ∧ cs = blanks ++ (t.chars ++ after) ∧
      Spells ts after rest

/-! ### Ranges -/

/-- Decimal digits that stand for a number; there may be zeros in front. -/
structure Numeral (n : Nat) (ds : List Char) : Prop where
  nonempty : ds ≠ []
  digits : ∀ c ∈ ds, Text.isAsciiDigit c
  value : Nat.ofDigitChars 10 ds 0 = n

/-- The tokens of a word range. -/
inductive WordRange.WrittenAs : WordRange → List Token → Prop
  | word {n : Nat} {ds : List Char} (hn : Numeral n ds) : WrittenAs ⟨n, some n⟩ [.digits ds]
  | fromEnd {n : Nat} {ds : List Char} (hpos : 0 < n) (hn : Numeral n ds) :
      WrittenAs ⟨-n, some (-n)⟩ [.sign '-', .digits ds]
  | between {a b : Nat} {as bs : List Char} (ha : Numeral a as) (hb : Numeral b bs) :
      WrittenAs ⟨a, some b⟩ [.digits as, .sign '-', .digits bs]
  | onward {a : Nat} {as : List Char} (ha : Numeral a as) :
      WrittenAs ⟨a, none⟩ [.digits as, .sign '-']

/-- The tokens of a range of children of a kind. The star and the range without an end
    reach to the usual count of the kind. -/
inductive ChildRange.WrittenAs (kind : Fragment) : ChildRange → List Token → Prop
  | usual : WrittenAs kind (.usual kind) [.sign '*']
  | single {n : Nat} {ds : List Char} (hn : Numeral n ds) : WrittenAs kind ⟨n, n⟩ [.digits ds]
  | between {a b : Nat} {as bs : List Char} (ha : Numeral a as) (hb : Numeral b bs) :
      WrittenAs kind ⟨a, b⟩ [.digits as, .sign '-', .digits bs]
  | onward {a : Nat} {as : List Char} (ha : Numeral a as) :
      WrittenAs kind ⟨a, max kind.usualCount (a + 1) - 1⟩ [.digits as, .sign '-']

/-! ### Paths -/

/-- The tokens of a step. -/
inductive PathStep.WrittenAs : PathStep → List Token → Prop
  | down (kind : Fragment) : WrittenAs (.down kind (.usual kind)) [.sign '.', .name kind.label]
  | downRange {kind : Fragment} {range : ChildRange} {rs : List Token}
      (hrange : range.WrittenAs kind rs) :
      WrittenAs (.down kind range)
        (.sign '.' :: .sign '(' :: (rs ++ [.sign ')', .name kind.label]))
  | test (t : Test) (text : String) : WrittenAs (.test t text) [.test t, .literal text]
  | words {range : WordRange} {rs : List Token} (hrange : range.WrittenAs rs) :
      WrittenAs (.words range) (.sign '[' :: (rs ++ [.sign ']']))

/-- The tokens of steps in a row. -/
inductive PathStep.AllWrittenAs : List PathStep → List Token → Prop
  | nil : AllWrittenAs [] []
  | cons {step : PathStep} {steps : List PathStep} {ts ts' : List Token}
      (hstep : step.WrittenAs ts) (hsteps : AllWrittenAs steps ts') :
      AllWrittenAs (step :: steps) (ts ++ ts')

/-- The tokens of a path. -/
inductive Path.WrittenAs : Path → List Token → Prop
  | literal (text : String) : WrittenAs (.literal text) [.literal text]
  | fromRoot {steps : List PathStep} {ts : List Token} (hsteps : PathStep.AllWrittenAs steps ts) :
      WrittenAs (.fromRoot (.down .agent (.single 0) :: steps)) (.name Fragment.agent.label :: ts)
  | fromVariable (name : String) {steps : List PathStep} {ts : List Token}
      (hsteps : PathStep.AllWrittenAs steps ts) :
      WrittenAs (.fromVariable name steps) (.atName name :: ts)

/-! ### Functions -/

/-- The tokens of a literal that may be left out, as the last argument of a function. -/
def lastLiteral : Option String → List Token
  | none => []
  | some text => [.sign ';', .literal text]

/-- The function `f` that a wrapper is written with, and the tokens between the brackets of
    `f`, where the term inside has the tokens `ts`. -/
inductive Wrapper.Arguments (ts : List Token) : Wrapper → FunctionName → List Token → Prop
  | isNull : Arguments ts .isNull .isNull ts
  | concat (before : String) (after : Option String) :
      Arguments ts (.concat (some before) after) .concat
        (.literal before :: .sign ';' :: (ts ++ lastLiteral after))
  | concatAfter (after : String) :
      Arguments ts (.concat none (some after)) .concat (ts ++ [.sign ';', .literal after])
  | normalizeBrand : Arguments ts .normalizeBrand .normalizeBrand ts
  | cleanVersion : Arguments ts .cleanVersion .cleanVersion ts
  | lookUp (table : String) (default : Option String) :
      Arguments ts (.lookUp table default) .lookUp
        (.name table :: .sign ';' :: (ts ++ lastLiteral default))
  | lookUpPrefix (table : String) (default : Option String) :
      Arguments ts (.lookUpPrefix table default) .lookUpPrefix
        (.name table :: .sign ';' :: (ts ++ lastLiteral default))
  | isInLookUpPrefix (table : String) :
      Arguments ts (.isInLookUpPrefix table) .isInLookUpPrefix (.name table :: .sign ';' :: ts)

namespace Term

/-- The tokens of a term. -/
inductive WrittenAs : Term → List Token → Prop
  | path {p : Path} {ts : List Token} (hp : p.WrittenAs ts) : WrittenAs ⟨[], p⟩ ts
  | function {t : Term} {w : Wrapper} {f : FunctionName} {ts args : List Token}
      (ht : t.WrittenAs ts) (hargs : w.Arguments ts f args) :
      WrittenAs (t.wrap w) (.name f.label :: .sign '[' :: (args ++ [.sign ']']))
  | functionWords {t : Term} {w : Wrapper} {f : FunctionName} {ts args : List Token}
      {range : WordRange} {rs : List Token}
      (ht : t.WrittenAs ts) (hargs : w.Arguments ts f args) (hrange : range.WrittenAs rs) :
      WrittenAs ((t.wrap w).wrap (.words range))
        (.name f.label :: .sign '[' :: (args ++ .sign ']' :: .sign '[' :: (rs ++ [.sign ']'])))

/-- A text writes a term out: it spells the tokens of the term, and nothing but blanks
    follow. -/
def WrittenIn (t : Term) (text : String) : Prop :=
  ∃ ts blanks, t.WrittenAs ts ∧ Spells ts text.toList blanks ∧ ∀ c ∈ blanks, Text.isBlank c

end Term

end AgentRules
