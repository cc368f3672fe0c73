/-
  JSON values as configuration files write them.

  A value keeps all members of its objects in the order in which they are written, repeated
  names included, because what a repetition means depends on what is read. A text may
  contain an escape of half a surrogate pair; no string can hold it, so such a text has no
  string. Of numbers only integers are told apart, since no setting is a fraction.
-/
namespace AgentRules

/-- A JSON value. -/
inductive Json where
  | null
  | bool (value : Bool)
  /-- A number written without fraction and exponent, other than minus zero. -/
  | integer (value : Int)
  /-- Any other number. -/
  | decimal
  /-- A text, or none where it has half a surrogate pair. -/
  | text (value : Option String)
  | array (items : List Json)
  | object (members : List (Option String × Json))

namespace Json

mutual

/-- How deeply arrays and objects are nested in a value. -/
def depth : Json → Nat
  | array items => 1 + depthOfItems items
  | object members => 1 + depthOfMembers members
  | _ => 0

/-- The greatest depth among some values. -/
def depthOfItems : List Json → Nat
  | [] => 0
  | j :: js => max (depth j) (depthOfItems js)

/-- The greatest depth among the values of some members. -/
def depthOfMembers : List (Option String × Json) → Nat
  | [] => 0
  | (_, j) :: ms => max (depth j) (depthOfMembers ms)

end

/-! ### Taking values apart -/

/-- A truth value. -/
def bool? : Json → Option Bool
  | bool value => some value
  | _ => none

/-- A string. -/
def string? : Json → Option String
  | text value => value
  | _ => none

/-- A string, or nothing where there is null. -/
def optionalString? : Json → Option (Option String)
  | null => some none
  | text (some value) => some (some value)
  | _ => none

/-- A signed integer of 64 bits. -/
def int64? : Json → Option Int
  | integer value =>
    if -0x8000000000000000 ≤ value ∧ value < 0x8000000000000000 then some value else none
  | _ => none

/-- A list of values of one kind. -/
def list? {α : Type} (item? : Json → Option α) : Json → Option (List α)
  | array items => items.mapM item?
  | _ => none

/-- Puts an entry in the place that its key has among others, and instead of an entry of
    the same key. -/
def putEntry {α : Type} (key : String) (value : α) : List (String × α) → List (String × α)
  | [] => [(key, value)]
  | (k, v) :: entries =>
    if key < k then (key, value) :: (k, v) :: entries
    else if key = k then (key, value) :: entries
    else (k, v) :: putEntry key value entries

/-- A map to values of one kind, in the order of the keys. Of the values of a repeated key
    the last counts, but all must be of the kind. -/
def map? {α : Type} (value? : Json → Option α) : Json → Option (List (String × α))
  | object members => do
    let entries ← members.mapM fun (key, j) => do
      let key ← key
      let value ← value? j
      some (key, value)
    some (entries.foldl (fun map (key, value) => putEntry key value map) [])
  | _ => none

/-- The fields of a record, in the order of `names`, each with its value if it is there.
    A record is an object, in which fields must not be repeated and other members do not
    matter, or an array of the first fields in order. -/
def record? (names : List String) : Json → Option (List (Option Json))
  | array items =>
    if items.length ≤ names.length then
      some (items.map some ++ List.replicate (names.length - items.length) none)
    else none
  | object members => do
    let members ← members.mapM fun (name, j) => name.map (·, j)
    names.mapM fun name =>
      match members.filter (·.1 == name) with
      | [] => some none
      | [(_, j)] => some (some j)
      | _ => none
  | _ => none

/-- A field that must be there. -/
def required {α : Type} (value? : Json → Option α) (field : Option Json) : Option α :=
  field.bind value?

/-- A field that may be left out. -/
def orElse {α : Type} (default : α) (value? : Json → Option α) (field : Option Json) : Option α :=
  match field with
  | none => some default
  | some j => value? j

end Json

end AgentRules
