/-
  Lookup tables.

  A table maps keys to values without regard to capital and small letters: keys are put
  into small letters when they enter, and so is a text that is looked up. A table holds its
  entries twice: by their keys, for the key that equals a text, and in a prefix tree, for
  the longest key a text starts with. Each entry goes into both. A table may have a default,
  which expressions use where no key answers.
-/
import AgentRules.PrefixTree
import AgentRules.Text.Case
import AgentRules.Text.Quoted

namespace AgentRules

/-- A named table from keys in small letters to values. -/
structure LookupTable where
  name : String
  default : Option String
  /-- The keys with their values. No key is listed twice. -/
  byKey : List (List Char × String)
  /-- The same keys and values, for the keys that a text starts with. -/
  byPrefix : PrefixTree String

namespace LookupTable

/-- A table without entries. -/
def empty (name : String) (default : Option String) : LookupTable := ⟨name, default, [], .empty⟩

/-- A key as the table holds it. -/
def foldCase (key : String) : List Char := Text.toSmall key.toList

/-- Lists a value for a key in place of any other. -/
def setEntry (entries : List (List Char × String)) (key : List Char) (value : String) :
    List (List Char × String) :=
  (key, value) :: entries.filter (·.1 != key)

/-- Gives a key a value; a value it has already is replaced. -/
def insert (t : LookupTable) (key value : String) : LookupTable :=
  let key := foldCase key
  { t with byKey := setEntry t.byKey key value, byPrefix := t.byPrefix.insert key value }

/-- A table with given entries, entered in order. -/
def ofEntries (name : String) (default : Option String) (entries : List (String × String)) :
    LookupTable :=
  entries.foldl (fun t (key, value) => t.insert key value) (empty name default)

/-- The value of the key that equals a text. -/
def get? (t : LookupTable) (text : String) : Option String := t.byKey.lookup (foldCase text)

/-- The value of the longest key that a text starts with. -/
def longest? (t : LookupTable) (text : String) : Option String :=
  t.byPrefix.longest? (foldCase text)

/-- Whether a text starts with some key. -/
def startsWithKey (t : LookupTable) (text : String) : Bool := (t.longest? text).isSome

/-- The number of keys. -/
def size (t : LookupTable) : Nat := t.byKey.length

/-- One line about a table: its name, how many entries it has, and its default. -/
def summary (t : LookupTable) : String :=
  let name := Text.quoted t.name
  let default := Text.quotedOption t.default
  s!"LookupTable \x7b name: {name}, entries: {t.size}, default: {default} \x7d"

end LookupTable

/-- The tables that expressions may name. No two have the same name. -/
structure Lookups where
  tables : List LookupTable

namespace Lookups

/-- No tables. -/
def empty : Lookups := ⟨[]⟩

/-- Adds a table in place of any table of the same name. -/
def insert (l : Lookups) (t : LookupTable) : Lookups :=
  ⟨l.tables.filter (·.name != t.name) ++ [t]⟩

/-- The tables of a list; of several with one name the last. -/
def ofList (ts : List LookupTable) : Lookups := ts.foldl insert empty

/-- The table of a name. -/
def get? (l : Lookups) (name : String) : Option LookupTable := l.tables.find? (·.name == name)

/-- The number of tables. -/
def size (l : Lookups) : Nat := l.tables.length

end Lookups

end AgentRules
