/-
  The kinds of node that a parsed user agent string is made of.

  A user agent string is read into a tree: products with a name, versions and comment
  blocks, entries inside the comments, and single-purpose leaves such as addresses and
  key-value pairs. Each kind has a label, by which expressions and fixtures name it, and
  a usual count, the number of siblings of that kind that a descent without a range
  looks at.
-/
namespace AgentRules

/-- The kind of a tree node. -/
inductive Fragment
  /-- The whole identification string, the root of a tree. -/
  | agent
  | product
  | name
  | version
  | comments
  | entry
  | text
  | url
  | email
  | base64
  | uuid
  | keyvalue
  | key
  | value
  deriving DecidableEq, Repr

namespace Fragment

/-- All kinds, in the order of their declaration. -/
def all : List Fragment :=
  [agent, product, name, version, comments, entry, text, url, email, base64, uuid, keyvalue, key,
    value]

/-- The word that names a kind in expressions, origins and fixtures. -/
def label : Fragment → String
  | agent => "agent"
  | product => "product"
  | name => "name"
  | version => "version"
  | comments => "comments"
  | entry => "entry"
  | text => "text"
  | url => "url"
  | email => "email"
  | base64 => "base64"
  | uuid => "uuid"
  | keyvalue => "keyvalue"
  | key => "key"
  | value => "value"

/-- How many siblings of a kind a descent without a range looks at. -/
def usualCount : Fragment → Nat
  | agent | name | text | key => 1
  | comments | url | email | base64 | value => 2
  | keyvalue => 3
  | uuid => 4
  | version => 5
  | product => 10
  | entry => 20

/-- The kind with a given label. -/
def ofLabel? (s : String) : Option Fragment := all.find? (·.label == s)

/-- What is said of a word that is no kind's label. -/
def unknownMessage (s : String) : String := s!"unknown fragment \"{s}\""

end Fragment

end AgentRules
