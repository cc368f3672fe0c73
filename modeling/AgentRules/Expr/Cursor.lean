/-
  Reading expressions at a cursor.

  The readers of expressions are given here a second time, as they work on the bytes of a text:
  a cursor stands at an offset and is moved on by the bytes of each character that is read. The
  text is only looked at in slices between two offsets.

  What could go wrong with a cursor stops such a reader: a slice that does not start and end
  between two characters of the text, a loop that goes round without getting on, and a term
  inside more terms than there is room for. The cursor keeps the offsets it was moved away from.

  Literals are left as they are written, with their quotes and escapes, until the whole text has
  been read. Then all of them are unquoted in one pass over the term (`Term.unquoted`).

  `AgentRules.Proofs.Cursor` shows that none of this happens to any text, and that the readers
  answer as those of `AgentRules.Expr.Parser` do.
-/
import AgentRules.Expr.Parser

namespace AgentRules

namespace Text

/-- Splits a text behind its first `n` bytes; `none` when this is inside a character, or behind
    the end. -/
def splitBytes : Nat → List Char → Option (List Char × List Char)
  | 0, cs => some ([], cs)
  | _ + 1, [] => none
  | n + 1, c :: cs =>
    if c.utf8Size ≤ n + 1 then
      (splitBytes (n + 1 - c.utf8Size) cs).map fun (front, back) => (c :: front, back)
    else none

/-! ### Unquoting -/

/-- Undoes the escapes of a literal. A backslash before a double quote or a backslash stands for
    that character; any other stands for itself. -/
def undoEscapes : List Char → List Char
  | [] => []
  | '\\' :: c :: cs =>
    if c = '"' ∨ c = '\\' then c :: undoEscapes cs else '\\' :: c :: undoEscapes cs
  | c :: cs => c :: undoEscapes cs

/-- The text between two double quotes. -/
def insideQuotes? : List Char → Option (List Char)
  | '"' :: cs => if cs.getLast? = some '"' then some cs.dropLast else none
  | _ => none

/-- The text that a quoted literal stands for. -/
def unquote (token : List Char) : List Char := undoEscapes ((insideQuotes? token).getD token)

/-- The text that a literal stands for, which was read as it is written. -/
def unquoted (token : String) : String := .ofList (unquote token.toList)

end Text

/-- A step whose text was read as it is written. -/
def PathStep.unquoted : PathStep → PathStep
  | test t text => test t (Text.unquoted text)
  | down kind range => down kind range
  | words range => words range

/-- A path whose literals were read as they are written. -/
def Path.unquoted : Path → Path
  | literal text => literal (Text.unquoted text)
  | fromRoot steps => fromRoot (steps.map PathStep.unquoted)
  | fromVariable name steps => fromVariable name (steps.map PathStep.unquoted)

/-- A function whose literals were read as they are written. -/
def Wrapper.unquoted : Wrapper → Wrapper
  | concat before after => concat (before.map Text.unquoted) (after.map Text.unquoted)
  | lookUp table default => lookUp table (default.map Text.unquoted)
  | lookUpPrefix table default => lookUpPrefix table (default.map Text.unquoted)
  | isNull => isNull
  | normalizeBrand => normalizeBrand
  | cleanVersion => cleanVersion
  | isInLookUpPrefix table => isInLookUpPrefix table
  | words range => words range

/-- A term whose literals were read as they are written. -/
def Term.unquoted (t : Term) : Term := ⟨t.wrappers.map Wrapper.unquoted, t.path.unquoted⟩

/-! ### Cursors -/

/-- Where a reader stands in a text. -/
structure Cursor where
  /-- The offset in bytes. -/
  pos : Nat
  /-- How many terms have been started and not ended. -/
  depth : Nat
  /-- The offsets that the cursor was moved away from, the latest first. -/
  past : List Nat
  deriving Repr

namespace Cursor

/-- The cursor before a text is read. -/
def start : Cursor := ⟨0, 0, []⟩

/-- All offsets that the cursor has been at, the latest first. -/
def visited (c : Cursor) : List Nat := c.pos :: c.past

/-- The cursor after a move. -/
def moveTo (c : Cursor) (pos : Nat) : Cursor := ⟨pos, c.depth, c.visited⟩

end Cursor

/-- What stops a reader. -/
inductive Stop
  /-- The text is no expression. -/
  | refused (error : ReadError)
  /-- A slice starts or ends where no character does. -/
  | badSlice (start stop : Nat)
  /-- A loop goes round without moving the cursor on. -/
  | stuck
  /-- A term is started while as many others as there may be have not ended. -/
  | noRoom
  deriving DecidableEq

/-- A reader at a cursor. -/
abbrev CursorReader := EStateM Stop Cursor

namespace CursorReader

open Text

/-! ### The cursor -/

/-- The offset of the cursor. -/
def here : CursorReader Nat := do return (← get).pos

/-- Moves the cursor. -/
def moveTo (pos : Nat) : CursorReader Unit := modify (·.moveTo pos)

/-- How many terms have been started and not ended. -/
def depth : CursorReader Nat := do return (← get).depth

/-- Starts a term. -/
def enter : CursorReader Unit := modify fun c => { c with depth := c.depth + 1 }

/-- Ends a term. -/
def leave : CursorReader Unit := modify fun c => { c with depth := c.depth - 1 }

/-- Reports a fault at an offset. -/
def failAt {α : Type} (offset : Nat) (f : ReadFault) : CursorReader α :=
  throw (.refused (.fault f offset))

/-- Reports a fault where the cursor stands. -/
def fail {α : Type} (f : ReadFault) : CursorReader α := do failAt (← here) f

/-! The readers are about one text. -/

variable (text : List Char)

/-- The text between two offsets. -/
def slice (start stop : Nat) : CursorReader (List Char) :=
  match splitBytes stop text with
  | none => throw (.badSlice start stop)
  | some (front, _) =>
    match splitBytes start front with
    | none => throw (.badSlice start stop)
    | some (_, part) => return part

/-- The text from the cursor on. -/
def remaining : CursorReader (List Char) := do slice text (← here) (byteLength text)

/-- The character at the cursor. -/
def peek : CursorReader (Option Char) := do return (← remaining text).head?

/-- Reads one character. -/
def bump : CursorReader (Option Char) := do
  let c? ← peek text
  if let some c := c? then moveTo ((← here) + c.utf8Size)
  return c?

/-- Does something again and again for as long as it gives something. Each round that is followed
    by another one has to move the cursor on, and not past the end of the text. -/
def loop {α : Type} (round : CursorReader (Option α)) (c : Cursor) :
    EStateM.Result Stop Cursor (List α) :=
  match round c with
  | .error e c' => .error e c'
  | .ok none c' => .ok [] c'
  | .ok (some a) c' =>
    if c.pos < c'.pos ∧ c'.pos ≤ byteLength text then
      match loop round c' with
      | .error e c'' => .error e c''
      | .ok as c'' => .ok (a :: as) c''
    else .error .stuck c'
termination_by byteLength text - c.pos

/-! ### The smallest parts -/

/-- Skips one character of a class, if one stands here. -/
def skipOne (p : Char → Bool) : CursorReader (Option Unit) := do
  if (← peek text).any p then
    let _ ← bump text
    return some ()
  else return none

/-- Skips characters of a class. -/
def skipWhile (p : Char → Bool) : CursorReader Unit := do
  let _ ← loop text (skipOne text p)

/-- Skips blanks. -/
def skipBlanks : CursorReader Unit := skipWhile text isBlank

/-- Reads one given character, if it stands here. -/
def eat (c : Char) : CursorReader Bool := do
  if (← peek text) = some c then
    let _ ← bump text
    return true
  else return false

/-- Reads one given character. -/
def sign (c : Char) : CursorReader Unit := do
  if ← eat text c then return () else fail (.expected c)

/-- Reads a name. -/
def name : CursorReader String := do
  let start ← here
  skipWhile text isNameChar
  if (← here) = start then fail .noName
  else return String.ofList (← slice text start (← here))

/-- Reads one character of a literal, or an escape, unless it is the quote at the end. -/
def literalChar (start : Nat) : CursorReader (Option Unit) := do
  match ← bump text with
  | none => failAt start .openLiteral
  | some x =>
    if x = '\\' then
      let _ ← bump text
      return some ()
    else if x = '"' then return none
    else return some ()

/-- Reads a quoted literal, as it is written. -/
def literal : CursorReader String := do
  let start ← here
  sign text '"'
  let _ ← loop text (literalChar text start)
  return String.ofList (← slice text start (← here))

/-- Reads everything up to a closing character, and that character. Gives what was read, and
    where it stands. -/
def upTo (close : Char) : CursorReader (List Char × Nat) := do
  let start ← here
  match splitAtMark close (← remaining text) with
  | none => failAt start (.unclosed close)
  | some (front, _) => do
    let stop := start + byteLength front
    moveTo (stop + close.utf8Size)
    return (← slice text start stop, start)

/-! ### Steps -/

/-- Reads the text of a word range. -/
def wordRange : CursorReader WordRange := do
  let (part, start) ← upTo text ']'
  match WordRange.parse (String.ofList part) with
  | .ok range => return range
  | .error e => failAt start (.range e)

/-- Reads the range of a descent, if one is written. -/
def writtenRange : CursorReader (Option (List Char × Nat)) := do
  if ← eat text '(' then return some (← upTo text ')') else return none

/-- Reads a descent after its dot. -/
def descent : CursorReader PathStep := do
  skipBlanks text
  let range ← writtenRange text
  skipBlanks text
  let start ← here
  let label ← name text
  match Reading.descentKind? label with
  | none => failAt start (.notDescendable label)
  | some kind =>
    match range with
    | none => return .down kind (.usual kind)
    | some (part, place) =>
      match ChildRange.parse (String.ofList part) kind with
      | .ok range => return .down kind range
      | .error e => failAt place (.range e)

/-- Reads the text of a test. -/
def operand (test : Test) : CursorReader PathStep := do
  skipBlanks text
  return .test test (← literal text)

/-- The reader of a step behind its first sign. -/
def stepBehind? : Char → Option (CursorReader PathStep)
  | '.' => some (descent text)
  | '=' => some (operand text .equals)
  | '!' => some do
    sign text '='
    operand text .notEquals
  | '\x7b' => some (operand text .startsWith)
  | '\x7d' => some (operand text .endsWith)
  | '~' => some (operand text .contains)
  | '[' => some do return .words (← wordRange text)
  | _ => none

/-- Reads one step of a path, if the text goes on with one. -/
def step? : CursorReader (Option PathStep) := do
  skipBlanks text
  match (← peek text).bind (stepBehind? text) with
  | some behind => do
    let _ ← bump text
    return some (← behind)
  | none => return none

/-- Reads the steps of a path. -/
def steps : CursorReader (List PathStep) := loop text (step? text)

/-! ### Functions -/

/-- Reads a literal that follows a semicolon, if there is a semicolon. -/
def optionalLiteral : CursorReader (Option String) := do
  skipBlanks text
  if ← eat text ';' then
    skipBlanks text
    return some (← literal text)
  else return none

/-- Reads the arguments of a concatenation. -/
def concatArguments (inner : CursorReader Term) : CursorReader Term := do
  skipBlanks text
  if (← peek text) = some '"' then
    let before ← literal text
    skipBlanks text
    sign text ';'
    let t ← inner
    let after ← optionalLiteral text
    return t.wrap (.concat (some before) after)
  else
    let t ← inner
    skipBlanks text
    sign text ';'
    skipBlanks text
    let after ← literal text
    return t.wrap (.concat none (some after))

/-- Reads the name of a table, the term to be looked up in it, and a default where there may be
    one. -/
def tableArguments (inner : CursorReader Term) (withDefault : Bool) :
    CursorReader (String × Term × Option String) := do
  skipBlanks text
  let table ← name text
  skipBlanks text
  sign text ';'
  let t ← inner
  if withDefault then return (table, t, ← optionalLiteral text)
  else
    skipBlanks text
    return (table, t, none)

/-- Reads the arguments of a function, and gives the function over its term. -/
def arguments (inner : CursorReader Term) (f : FunctionName) : CursorReader Term :=
  match f with
  | .isNull => return (← inner).wrap .isNull
  | .concat => concatArguments text inner
  | .normalizeBrand => return (← inner).wrap .normalizeBrand
  | .cleanVersion => return (← inner).wrap .cleanVersion
  | .lookUp => do
    let (table, t, default) ← tableArguments text inner true
    return t.wrap (.lookUp table default)
  | .lookUpPrefix => do
    let (table, t, default) ← tableArguments text inner true
    return t.wrap (.lookUpPrefix table default)
  | .isInLookUpPrefix => do
    let (table, t, _) ← tableArguments text inner false
    return t.wrap (.isInLookUpPrefix table)

/-- Reads a function after its name. -/
def function (inner : CursorReader Term) (f : FunctionName) : CursorReader Term := do
  skipBlanks text
  sign text '['
  let t ← arguments text inner f
  skipBlanks text
  sign text ']'
  if f = .isNull then return t
  else
    skipBlanks text
    if ← eat text '[' then return t.wrap (.words (← wordRange text)) else return t

/-- Reads what starts with a name. -/
def named (inner : CursorReader Term) (top : Bool) : CursorReader Term := do
  let start ← here
  let label ← name text
  if label = Fragment.agent.label then
    let ss ← steps text
    return ⟨[], .fromRoot (.down .agent (.single 0) :: ss)⟩
  else
    match FunctionName.ofLabel? label with
    | none => failAt start (.unknownFunction label)
    | some f => if f = .isNull ∧ !top then failAt start .innerIsNull else function text inner f

/-- Reads what a term consists of. -/
def termBody (inner : CursorReader Term) (top : Bool) : CursorReader Term := do
  skipBlanks text
  match ← peek text with
  | none => fail .noStart
  | some x =>
    if x = '"' then return ⟨[], .literal (← literal text)⟩
    else if x = '@' then
      let _ ← bump text
      let label ← name text
      return ⟨[], .fromVariable label (← steps text)⟩
    else if isAsciiLetter x then named text inner top
    else fail .noStart

/-- Reads a term, with room for `room` terms that have not ended, this one included. -/
def term (room : Nat) (top : Bool) : CursorReader Term :=
  match room with
  | 0 => throw .noRoom
  | room + 1 => do
    enter
    if maxNesting < (← depth) then fail .tooDeep
    else
      let t ← termBody text (term room false) top
      leave
      return t

/-- Reads the whole text as one term, with its literals as they are written. -/
def wholeText (room : Nat) : CursorReader Term := do
  let t ← term text room true
  skipBlanks text
  if (← peek text).isSome then fail .trailing else return t

end CursorReader

/-- Reads an expression at a cursor, with room for `room` terms that have not ended. Gives where
    the cursor stands in the end, too. -/
def Expression.parseAt (text : String) (room : Nat) : Except Stop Expression × Cursor :=
  let bytes := text.utf8ByteSize
  if maxExpressionBytes < bytes then (.error (.refused (.tooLong bytes)), .start)
  else
    match CursorReader.wholeText text.toList room .start with
    | .ok root c => (.ok ⟨text, root.unquoted⟩, c)
    | .error e c => (.error e, c)

end AgentRules
