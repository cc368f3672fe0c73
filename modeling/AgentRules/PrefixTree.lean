/-
  Maps from texts to values that find all keys a text starts with in one descent.

  A prefix tree is a compressed trie. Its edges carry labels of one or more characters;
  the key of a point is what the labels on the way to it spell, and the point holds the
  key's value, if the key has one. The labels out of one point start with different
  characters, so a text can follow at most one of them. Edges are kept in the order of
  their first characters and are no longer split than the keys ask for. The shape of a
  tree therefore depends on its keys and values alone, and not on how it came about.

  `Edges` is the recursive part: the edges out of one point, each with what lies below
  it. A list of siblings and a tree in one type, it has plain structural induction. That
  labels are not empty is in the type, since the first character of a label stands apart;
  that siblings are in order is a law of `PrefixTree`.
-/
namespace AgentRules

/-- The edges out of a point of a prefix tree. -/
inductive Edges (α : Type) where
  /-- No edge. -/
  | nil
  /-- An edge with the first character and the rest of its label, the value at its end and
      the edges that go on from there; and the other edges out of the same point. -/
  | cons (first : Char) (label : List Char) (value : Option α) (below : Edges α)
      (others : Edges α)
  deriving DecidableEq, Repr

/-- The longest common start of two texts, and what each goes on with. -/
def splitCommon : List Char → List Char → List Char × List Char × List Char
  | a :: as, b :: bs =>
    if a = b then
      let (common, restA, restB) := splitCommon as bs
      (a :: common, restA, restB)
    else ([], a :: as, b :: bs)
  | as, bs => ([], as, bs)

/-- A place for a value in a whole: what it holds, and what the whole is with a value put there. -/
structure Slot (α σ : Type) where
  content : Option α
  put : α → σ

namespace Slot

variable {α σ τ : Type}

/-- The place in a larger whole, which is made of the smaller one. -/
def within (s : Slot α σ) (f : σ → τ) : Slot α τ := ⟨s.content, f ∘ s.put⟩

@[simp] theorem content_within (s : Slot α σ) (f : σ → τ) : (s.within f).content = s.content := rfl

@[simp] theorem put_within (s : Slot α σ) (f : σ → τ) (v : α) :
    (s.within f).put v = f (s.put v) := rfl

/-- Puts what `f` makes of the content. -/
def alter (f : Option α → α) (s : Slot α σ) : σ := s.put (f s.content)

/-- Puts a value, and answers with what was there. -/
def replace (s : Slot α σ) (v : α) : Option α × σ := (s.content, s.put v)

/-- Puts a value if there is none, and answers with what is there then. -/
def getOrInsert (s : Slot α σ) (v : α) : Option α × σ :=
  let now := s.content.getD v
  (some now, s.put now)

end Slot

namespace Edges

variable {α : Type}

/-- The two edges of a fork, in the order of their labels. The label of the old edge is
    `c :: cs`, that of the new one `k :: ks`. -/
def fork (c : Char) (cs : List Char) (value : Option α) (below : Edges α) (k : Char)
    (ks : List Char) (new : α) : Edges α :=
  if k < c then cons k ks (some new) nil (cons c cs value below nil)
  else cons c cs value below (cons k ks (some new) nil nil)

/-- The slot for the value of the key `k :: ks`. An edge that shares only a part of its label
    with the key is split. -/
def slot : Edges α → Char → List Char → Slot α (Edges α)
  | nil, k, ks => ⟨none, fun v => cons k ks (some v) nil nil⟩
  | cons c cs value below others, k, ks =>
    if k = c then
      match splitCommon cs ks with
      | (_, [], []) => ⟨value, fun v => cons c cs (some v) below others⟩
      | (_, [], r :: rs) => (slot below r rs).within fun below => cons c cs value below others
      | (common, t :: ts, []) =>
        ⟨none, fun v => cons c common (some v) (cons t ts value below nil) others⟩
      | (common, t :: ts, r :: rs) =>
        ⟨none, fun v => cons c common none (fork t ts value below r rs v) others⟩
    else if k < c then ⟨none, fun v => cons k ks (some v) nil (cons c cs value below others)⟩
    else (slot others k ks).within fun others => cons c cs value below others

/-- Sets the value of the key `k :: ks` to what `f` makes of the value that is there. -/
def alter (f : Option α → α) (e : Edges α) (k : Char) (ks : List Char) : Edges α :=
  (e.slot k ks).alter f

/-- The value of the key `k :: ks`. -/
def get? : Edges α → Char → List Char → Option α
  | nil, _, _ => none
  | cons c cs value below others, k, ks =>
    if k = c then
      match cs.isPrefixOf? ks with
      | some [] => value
      | some (r :: rs) => get? below r rs
      | none => none
    else get? others k ks

/-- The values of the keys that a text starts with, the shortest key first. -/
def prefixValues : Edges α → List Char → List α
  | nil, _ => []
  | cons c cs value below others, text =>
    match text with
    | [] => []
    | k :: ks =>
      if k = c then
        match cs.isPrefixOf? ks with
        | some rest => value.toList ++ prefixValues below rest
        | none => []
      else prefixValues others (k :: ks)

/-- All keys with their values, in ascending order; `path` is the key of the point that
    the edges go out of. -/
def entries (path : List Char) : Edges α → List (List Char × α)
  | nil => []
  | cons c cs value below others =>
    let key := path ++ c :: cs
    value.toList.map (key, ·) ++ entries key below ++ entries path others

/-- The number of keys. -/
def size : Edges α → Nat
  | nil => 0
  | cons _ _ value below others => value.toList.length + size below + size others

/-! ### Altering along the edges -/

theorem alter_cons (f : Option α → α) (c : Char) (cs : List Char) (value : Option α)
    (below others : Edges α) (k : Char) (ks : List Char) :
    (cons c cs value below others).alter f k ks =
      if k = c then
        match splitCommon cs ks with
        | (_, [], []) => cons c cs (some (f value)) below others
        | (_, [], r :: rs) => cons c cs value (below.alter f r rs) others
        | (common, t :: ts, []) =>
          cons c common (some (f none)) (cons t ts value below nil) others
        | (common, t :: ts, r :: rs) =>
          cons c common none (fork t ts value below r rs (f none)) others
      else if k < c then cons k ks (some (f none)) nil (cons c cs value below others)
      else cons c cs value below (others.alter f k ks) := by
  rw [alter, slot]
  split
  · split <;> rfl
  · split <;> rfl

theorem size_fork (c : Char) (cs : List Char) (value : Option α) (below : Edges α) (k : Char)
    (ks : List Char) (new : α) :
    (fork c cs value below k ks new).size = value.toList.length + below.size + 1 := by
  unfold fork
  split
  · exact Nat.add_comm 1 _
  · rfl

/-- **A key is new exactly when its slot is empty.** -/
theorem size_slot (e : Edges α) (k : Char) (ks : List Char) (v : α) :
    ((e.slot k ks).put v).size + (e.slot k ks).content.toList.length = e.size + 1 := by
  induction e generalizing k ks with
  | nil => rfl
  | cons c cs value below others ihb iho =>
    rw [slot]
    split
    · split
      · simp only [size, Option.toList_some, List.length_cons, List.length_nil]
        omega
      · rename_i r rs _
        have hbelow := ihb r rs
        simp only [Slot.put_within, Slot.content_within, size]
        omega
      · simp only [size, Option.toList_some, Option.toList_none, List.length_cons, List.length_nil]
        omega
      · simp only [size, size_fork, Option.toList_none, List.length_nil]
        omega
    · have hothers := iho k ks
      split
      · simp only [size, Option.toList_some, Option.toList_none, List.length_cons, List.length_nil]
        omega
      · simp only [Slot.put_within, Slot.content_within, size]
        omega

/-! ### The order of siblings -/

/-- Whether all edges out of a point start with characters after a given one. -/
def Above (k : Char) : Edges α → Prop
  | nil => True
  | cons c _ _ _ others => k < c ∧ Above k others

/-- Whether the edges out of each point are in the order of their first characters. -/
def Ordered : Edges α → Prop
  | nil => True
  | cons c _ _ below others => Above c others ∧ Ordered below ∧ Ordered others

theorem Above.mono {k k' : Char} (h : k < k') : ∀ {e : Edges α}, Above k' e → Above k e
  | nil, _ => trivial
  | cons .., ⟨hc, ho⟩ => ⟨Char.lt_trans h hc, ho.mono h⟩

theorem lt_of_ne_of_not_lt {k c : Char} (hne : k ≠ c) (hlt : ¬k < c) : c < k :=
  Char.not_le.mp fun hle => hne (Char.le_antisymm hle (Char.not_lt.mp hlt))

theorem splitCommon_ne (cs ks : List Char) {common ts rs : List Char} {t r : Char}
    (h : splitCommon cs ks = (common, t :: ts, r :: rs)) : r ≠ t := by
  induction cs generalizing ks common with
  | nil => simp [splitCommon] at h
  | cons a as ih =>
    cases ks with
    | nil => simp [splitCommon] at h
    | cons b bs =>
      rw [splitCommon] at h
      split at h
      · simp only [Prod.mk.injEq] at h
        exact ih bs (Prod.ext rfl (Prod.ext h.2.1 h.2.2))
      · rename_i hab
        simp only [Prod.mk.injEq, List.cons.injEq] at h
        obtain ⟨-, ⟨rfl, -⟩, rfl, -⟩ := h
        exact fun h => hab h.symm

theorem ordered_fork {c k : Char} {cs ks : List Char} {value : Option α} {below : Edges α}
    {new : α} (hne : k ≠ c) (hb : Ordered below) : Ordered (fork c cs value below k ks new) := by
  unfold fork
  split
  · rename_i hlt
    exact ⟨⟨hlt, trivial⟩, trivial, trivial, hb, trivial⟩
  · rename_i hlt
    exact ⟨⟨lt_of_ne_of_not_lt hne hlt, trivial⟩, hb, trivial, trivial, trivial⟩

theorem above_alter (f : Option α → α) {c k : Char} (ks : List Char) (hk : c < k) :
    ∀ {e : Edges α}, Above c e → Above c (e.alter f k ks)
  | nil, _ => ⟨hk, trivial⟩
  | cons d ds value below others, ⟨hd, ho⟩ => by
    rw [alter_cons]
    split
    · split <;> exact ⟨hd, ho⟩
    · split
      · exact ⟨hk, hd, ho⟩
      · exact ⟨hd, above_alter f ks hk ho⟩

/-- **Altering a value keeps siblings in order.** -/
theorem ordered_alter (f : Option α → α) {e : Edges α} (h : Ordered e) (k : Char)
    (ks : List Char) : Ordered (e.alter f k ks) := by
  induction e generalizing k ks with
  | nil => exact ⟨trivial, trivial, trivial⟩
  | cons c cs value below others ihb iho =>
    obtain ⟨ha, hb, ho⟩ := h
    rw [alter_cons]
    split
    · split
      · exact ⟨ha, hb, ho⟩
      · exact ⟨ha, ihb hb _ _, ho⟩
      · exact ⟨ha, ⟨trivial, hb, trivial⟩, ho⟩
      · rename_i hs
        exact ⟨ha, ordered_fork (splitCommon_ne _ _ hs) hb, ho⟩
    · rename_i hne
      split
      · rename_i hlt
        exact ⟨⟨hlt, ha.mono hlt⟩, trivial, ha, hb, ho⟩
      · rename_i hlt
        exact ⟨above_alter f ks (lt_of_ne_of_not_lt hne hlt) ha, hb, iho ho _ _⟩

end Edges

/-- A map from texts to values, as a compressed trie. -/
structure PrefixTree (α : Type) where
  /-- The value of the empty key. -/
  value : Option α
  edges : Edges α
  /-- The number of keys. -/
  size : Nat
  ordered : edges.Ordered
  counted : size = value.toList.length + edges.size
  deriving DecidableEq

namespace PrefixTree

variable {α : Type}

/-- The tree without keys. -/
def empty : PrefixTree α := ⟨none, .nil, 0, trivial, rfl⟩

/-- The slot for the value of a key. A key whose slot is empty is new, and it is counted when a
    value is put there. -/
def slot (t : PrefixTree α) : List Char → Slot α (PrefixTree α)
  | [] =>
    { content := t.value
      put v :=
        { t with
          value := some v
          size := if t.value.isNone then t.size + 1 else t.size
          counted := by
            rw [t.counted]
            cases t.value <;> simp [Nat.add_comm] } }
  | k :: ks =>
    let below := t.edges.slot k ks
    { content := below.content
      put v :=
        { t with
          edges := below.put v
          size := if below.content.isNone then t.size + 1 else t.size
          ordered := Edges.ordered_alter (fun _ => v) t.ordered k ks
          counted := by
            have hsize : (below.put v).size + below.content.toList.length = t.edges.size + 1 :=
              Edges.size_slot t.edges k ks v
            rw [t.counted]
            cases hold : below.content <;> simp [hold] at hsize ⊢ <;> omega } }

/-- Sets the value of a key to what `f` makes of the value it has. -/
def alter (f : Option α → α) (t : PrefixTree α) (key : List Char) : PrefixTree α :=
  (t.slot key).alter f

/-- Gives a key a value, whether or not it has one. -/
def insert (t : PrefixTree α) (key : List Char) (value : α) : PrefixTree α :=
  t.alter (fun _ => value) key

/-- Gives a key a value unless it has one. -/
def insertNew (t : PrefixTree α) (key : List Char) (value : α) : PrefixTree α :=
  t.alter (fun old => old.getD value) key

/-- Gives a key a value, and answers with the value that it had. -/
def replace (t : PrefixTree α) (key : List Char) (value : α) : Option α × PrefixTree α :=
  (t.slot key).replace value

/-- Gives a key a value unless it has one, and answers with the value that it has then. -/
def getOrInsert (t : PrefixTree α) (key : List Char) (value : α) : Option α × PrefixTree α :=
  (t.slot key).getOrInsert value

/-- The value of a key. -/
def get? (t : PrefixTree α) : List Char → Option α
  | [] => t.value
  | k :: ks => t.edges.get? k ks

/-- The values of the keys that a text starts with, the shortest key first. -/
def prefixValues (t : PrefixTree α) (text : List Char) : List α :=
  t.value.toList ++ t.edges.prefixValues text

/-- The value of the longest key that a text starts with. -/
def longest? (t : PrefixTree α) (text : List Char) : Option α := (t.prefixValues text).getLast?

/-- All keys with their values, in ascending order of the keys. -/
def entries (t : PrefixTree α) : List (List Char × α) :=
  t.value.toList.map ([], ·) ++ t.edges.entries []

end PrefixTree

end AgentRules
