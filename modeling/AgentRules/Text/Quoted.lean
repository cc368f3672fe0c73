/-
  Quoted text: the form in which a literal stands in an origin, in a program listing and
  in a trace.

  A quoted text stands between double quotes. A double quote, a backslash and the four
  controls with a short form (NUL, tab, line feed and carriage return) are written with a
  backslash. Any other character that is not printable is written as its code point in
  lower-case hexadecimal digits between `\u{` and `}`. All else is written as it is, so an
  unescaped double quote occurs at the two ends only.
-/
import AgentRules.Text.Printable

namespace AgentRules.Text

/-- The code point of a character as an escape, without leading zeros. -/
def codeEscape (c : Char) : List Char :=
  ['\\', 'u', '\x7b'] ++ Nat.toDigits 16 c.toNat ++ ['\x7d']

/-- The form of one character inside a quoted text. -/
def quoteChar (c : Char) : List Char :=
  if c = '\x00' then ['\\', '0']
  else if c = '\t' then ['\\', 't']
  else if c = '\n' then ['\\', 'n']
  else if c = '\r' then ['\\', 'r']
  else if c = '"' then ['\\', '"']
  else if c = '\\' then ['\\', '\\']
  else if isPrintable c then [c]
  else codeEscape c

/-- A text in quotes. -/
def quote (cs : List Char) : List Char := '"' :: (cs.flatMap quoteChar ++ ['"'])

/-- A string in quotes. -/
def quoted (s : String) : String := String.ofList (quote s.toList)

/-- An optional string as a trace shows it. -/
def quotedOption : Option String → String
  | none => "None"
  | some s => s!"Some({quoted s})"

end AgentRules.Text
