/-
  Prefix trees against finite maps.

  Whatever calls make a prefix tree, it holds what a plain finite map holds after the same
  calls, and it answers as the map does (`refines_map`). The function behind a tree is known
  from `get?_alter`; here its listing is added. The entries of a tree are the graph of this
  function (`mem_entries`), and they are in strictly ascending order (`pairwise_entries`), so
  no key is listed twice and the number of entries is the number of keys.
-/
import AgentRules.Proofs.PrefixTree
import Mathlib.Data.Finmap

namespace AgentRules

/-- The starts of a text come by their lengths. -/
theorem pairwise_length_inits (text : List Char) :
    text.inits.Pairwise fun p q => p.length < q.length := by
  induction text with
  | nil => simp
  | cons c cs ih =>
    rw [List.inits_cons, List.pairwise_cons, List.pairwise_map]
    refine ⟨fun q hq => ?_, ih.imp fun hlt => Nat.succ_lt_succ hlt⟩
    obtain ⟨rest, -, rfl⟩ := List.mem_map.mp hq
    exact Nat.succ_pos _

/-! ### Entries of edges -/

namespace Edges

variable {α : Type}

/-- Edges that start after a character lead to keys that do so. -/
theorem lt_of_get?_eq_some {c k : Char} {ks : List Char} {v : α} {e : Edges α} (h : Above c e)
    (hget : e.get? k ks = some v) : c < k := by
  induction e with
  | nil => exact absurd hget (by simp)
  | cons d ds value below others _ iho =>
    obtain ⟨hd, ho⟩ := h
    rw [get?_cons] at hget
    by_cases hk : k = d
    · exact hk ▸ hd
    · rw [if_neg hk] at hget
      exact iho ho hget

/-- The entries that go by one edge are those of the point at its end. -/
theorem mem_entries_along {c : Char} {cs path key : List Char} {value : Option α}
    {below others : Edges α} {v : α}
    (hbelow : ∀ path, (key, v) ∈ below.entries path ↔
      ∃ k ks, key = path ++ k :: ks ∧ below.get? k ks = some v) :
    (key, v) ∈ (cons c cs value below others).entries path ↔
      (∃ rest, key = path ++ c :: (cs ++ rest) ∧ point value below rest = some v) ∨
        (key, v) ∈ others.entries path := by
  have hhere : (key, v) ∈ value.toList.map (path ++ c :: cs, ·) ↔
      key = path ++ c :: cs ∧ value = some v := by
    simp only [List.mem_map, Option.mem_toList, Prod.mk.injEq]
    constructor
    · rintro ⟨w, hw, rfl, rfl⟩
      exact ⟨rfl, hw⟩
    · rintro ⟨rfl, hv⟩
      exact ⟨v, hv, rfl, rfl⟩
  rw [entries, List.mem_append, List.mem_append, hhere, hbelow]
  refine or_congr_left ?_
  constructor
  · rintro (⟨rfl, hv⟩ | ⟨k, ks, rfl, hget⟩)
    · exact ⟨[], by simp, hv⟩
    · exact ⟨k :: ks, by simp, hget⟩
  · rintro ⟨rest, rfl, hv⟩
    cases rest with
    | nil => exact .inl ⟨by simp, hv⟩
    | cons k ks => exact .inr ⟨k, ks, by simp, hv⟩

/-- **The entries are the keys that are found, with their values.** -/
theorem mem_entries {e : Edges α} (h : Ordered e) (path key : List Char) (v : α) :
    (key, v) ∈ e.entries path ↔ ∃ k ks, key = path ++ k :: ks ∧ e.get? k ks = some v := by
  induction e generalizing path with
  | nil => simp [entries]
  | cons c cs value below others ihb iho =>
    obtain ⟨ha, hb, ho⟩ := h
    rw [mem_entries_along fun path => ihb hb path, iho ho]
    simp only [get?_cons]
    constructor
    · rintro (⟨rest, rfl, hv⟩ | ⟨k, ks, rfl, hget⟩)
      · refine ⟨c, cs ++ rest, rfl, ?_⟩
        rw [if_pos rfl, isPrefixOf?_append_self]
        exact hv
      · -- The other edges start with later characters.
        refine ⟨k, ks, rfl, ?_⟩
        rw [if_neg (Char.ne_of_lt (lt_of_get?_eq_some ha hget)).symm]
        exact hget
    · rintro ⟨k, ks, rfl, hget⟩
      by_cases hk : k = c
      · subst hk
        rw [if_pos rfl] at hget
        obtain ⟨rest, hrest, hv⟩ := Option.bind_eq_some_iff.mp hget
        refine .inl ⟨rest, ?_, hv⟩
        rw [List.isPrefixOf?_eq_some_iff_append_eq.mp hrest]
      · rw [if_neg hk] at hget
        exact .inr ⟨k, ks, rfl, hget⟩

/-- **The entries are in strictly ascending order of their keys.** -/
theorem pairwise_entries {e : Edges α} (h : Ordered e) (path : List Char) :
    (e.entries path).Pairwise fun p q => p.1 < q.1 := by
  induction e generalizing path with
  | nil => exact List.Pairwise.nil
  | cons c cs value below others ihb iho =>
    obtain ⟨ha, hb, ho⟩ := h
    -- What goes by the first edge comes before what goes by the others.
    have hothers : ∀ rest (q : List Char × α), q ∈ others.entries path →
        path ++ c :: rest < q.1 := by
      rintro rest ⟨key, v⟩ hq
      obtain ⟨k, ks, rfl, hget⟩ := (mem_entries ho path key v).mp hq
      exact List.append_left_lt (List.cons_lt_cons_iff.mpr (.inl (lt_of_get?_eq_some ha hget)))
    have hbelow : ∀ q ∈ below.entries (path ++ c :: cs), path ++ c :: cs < q.1 := by
      rintro ⟨key, v⟩ hq
      obtain ⟨k, ks, rfl, -⟩ := (mem_entries hb _ key v).mp hq
      have hlt : path ++ c :: cs ++ [] < path ++ c :: cs ++ k :: ks :=
        List.append_left_lt (List.nil_lt_cons k ks)
      rwa [List.append_nil] at hlt
    rw [entries, List.pairwise_append, List.pairwise_append]
    refine ⟨⟨?_, ihb hb _, ?_⟩, iho ho _, ?_⟩
    · cases value <;> simp
    · intro p hp q hq
      obtain ⟨v, -, rfl⟩ := List.mem_map.mp hp
      exact hbelow q hq
    · intro p hp q hq
      rcases List.mem_append.mp hp with hp | hp
      · obtain ⟨v, -, rfl⟩ := List.mem_map.mp hp
        exact hothers cs q hq
      · obtain ⟨key, v⟩ := p
        obtain ⟨k, ks, rfl, -⟩ := (mem_entries hb _ key v).mp hp
        simpa using hothers (cs ++ k :: ks) q hq

theorem length_entries (e : Edges α) (path : List Char) : (e.entries path).length = e.size := by
  induction e generalizing path with
  | nil => rfl
  | cons c cs value below others ihb iho =>
    rw [entries, List.length_append, List.length_append, List.length_map, ihb, iho, size]

end Edges

/-! ### Entries of trees -/

namespace PrefixTree

variable {α : Type}

theorem mem_entries (t : PrefixTree α) (key : List Char) (v : α) :
    (key, v) ∈ t.entries ↔ t.get? key = some v := by
  have hroot : (key, v) ∈ t.value.toList.map (([] : List Char), ·) ↔
      key = [] ∧ t.value = some v := by
    simp only [List.mem_map, Option.mem_toList, Prod.mk.injEq]
    constructor
    · rintro ⟨w, hw, rfl, rfl⟩
      exact ⟨rfl, hw⟩
    · rintro ⟨rfl, hv⟩
      exact ⟨v, hv, rfl, rfl⟩
  rw [entries, List.mem_append, hroot, Edges.mem_entries t.ordered]
  cases key with
  | nil => simp [get?]
  | cons k ks => simp [get?]

theorem pairwise_entries (t : PrefixTree α) : t.entries.Pairwise fun p q => p.1 < q.1 := by
  rw [entries, List.pairwise_append]
  refine ⟨?_, Edges.pairwise_entries t.ordered [], ?_⟩
  · cases t.value <;> simp
  · rintro p hp ⟨key, v⟩ hq
    obtain ⟨w, -, rfl⟩ := List.mem_map.mp hp
    obtain ⟨k, ks, rfl, -⟩ := (Edges.mem_entries t.ordered [] key v).mp hq
    exact List.nil_lt_cons k ks

/-- No key is listed twice. -/
theorem nodup_keys (t : PrefixTree α) : (t.entries.map (·.1)).Nodup := by
  rw [List.Nodup, List.pairwise_map]
  refine t.pairwise_entries.imp fun {p q} hlt heq => ?_
  rw [heq] at hlt
  exact List.lt_irrefl q.1 hlt

theorem length_entries (t : PrefixTree α) : t.entries.length = t.size := by
  rw [entries, List.length_append, List.length_map, Edges.length_entries, t.counted]

/-! ### The longest key that a text starts with -/

theorem longest?_eq_none_iff (t : PrefixTree α) (text : List Char) :
    t.longest? text = none ↔ ∀ key, key <+: text → t.get? key = none := by
  rw [longest?, prefixValues_eq, List.getLast?_eq_none_iff, List.filterMap_eq_nil_iff]
  simp only [List.mem_inits]

/-- **The longest key decides.** Its value is found, and no longer start of the text is a
    key. -/
theorem longest?_eq_some_iff (t : PrefixTree α) (text : List Char) (v : α) :
    t.longest? text = some v ↔
      ∃ key, key <+: text ∧ t.get? key = some v ∧
        ∀ q, q <+: text → (t.get? q).isSome → q.length ≤ key.length := by
  -- The last of the starts that are keys is the longest, since they come by length.
  have hlast : ∀ v, t.longest? text = some v →
      ∃ key, key <+: text ∧ t.get? key = some v ∧
        ∀ q, q <+: text → (t.get? q).isSome → q.length ≤ key.length := by
    intro v hv
    rw [longest?, prefixValues_eq, List.getLast?_filterMap,
      List.findSome?_eq_some_iff] at hv
    obtain ⟨after, key, before, hsplit, hkey, hafter⟩ := hv
    have hinits : text.inits = before.reverse ++ key :: after.reverse := by
      rw [← List.reverse_reverse text.inits, hsplit]
      simp
    have hordered := pairwise_length_inits text
    rw [hinits, List.pairwise_append] at hordered
    refine ⟨key, ?_, hkey, fun q hq hsome => ?_⟩
    · rw [← List.mem_inits, hinits]
      simp
    · rw [← List.mem_inits, hinits, List.mem_append, List.mem_cons, List.mem_reverse,
        List.mem_reverse] at hq
      rcases hq with hq | rfl | hq
      · exact Nat.le_of_lt (hordered.2.2 q (List.mem_reverse.mpr hq) key List.mem_cons_self)
      · exact Nat.le_refl _
      · rw [hafter q hq] at hsome
        exact absurd hsome (by simp)
  refine ⟨hlast v, ?_⟩
  rintro ⟨key, hprefix, hkey, hlongest⟩
  cases hfound : t.longest? text with
  | none =>
    have hnone := (longest?_eq_none_iff t text).mp hfound key hprefix
    exact absurd (hkey.symm.trans hnone) (by simp)
  | some w =>
    obtain ⟨q, hqprefix, hq, hqlongest⟩ := hlast w hfound
    -- Both keys are longest, and a text has one start of each length.
    have hlength : q.length = key.length :=
      Nat.le_antisymm (hlongest q hqprefix (by simp [hq])) (hqlongest key hprefix (by simp [hkey]))
    have hsame : q = key := by
      rw [List.prefix_iff_eq_take.mp hqprefix, List.prefix_iff_eq_take.mp hprefix, hlength]
    rw [← hq, hsame, hkey]

end PrefixTree

/-! ### Calls -/

/-- A call that gives a key a value: in any case, or only if the key has none. -/
inductive MapCall (α : Type) where
  | insert (key : List Char) (value : α)
  | insertNew (key : List Char) (value : α)

/-- Makes calls in a row, each on what the one before has left; gives all answers and what is
    left in the end. -/
def callAll {σ β γ : Type} (call : σ → β → γ × σ) (s : σ) : List β → List γ × σ
  | [] => ([], s)
  | b :: bs =>
    let (answer, s) := call s b
    let (answers, s) := callAll call s bs
    (answer :: answers, s)

namespace MapCall

variable {α : Type}

/-- A call on a prefix tree. -/
def onTree (t : PrefixTree α) : MapCall α → Option α × PrefixTree α
  | insert key value => t.replace key value
  | insertNew key value => t.getOrInsert key value

/-- A call on a plain map. -/
def onMap (m : Finmap fun _ : List Char => α) :
    MapCall α → Option α × Finmap fun _ : List Char => α
  | insert key value => (m.lookup key, m.insert key value)
  | insertNew key value =>
    match m.lookup key with
    | some old => (some old, m)
    | none => (some value, m.insert key value)

end MapCall

namespace PrefixTree

variable {α : Type}

/-- Whether a tree holds what a plain map holds. -/
def Represents (t : PrefixTree α) (m : Finmap fun _ : List Char => α) : Prop :=
  ∀ key, t.get? key = m.lookup key

theorem Represents.insert {t : PrefixTree α} {m : Finmap fun _ : List Char => α}
    (h : t.Represents m) (key : List Char) (value : α) :
    (t.insert key value).Represents (m.insert key value) := by
  intro q
  rw [PrefixTree.insert, get?_alter]
  by_cases hq : q = key
  · rw [if_pos hq, hq, Finmap.lookup_insert]
  · rw [if_neg hq, Finmap.lookup_insert_of_ne _ hq, h q]

/-- **A call is answered by a tree as by the map that it represents**, and the tree goes on to
    represent the map. -/
theorem Represents.call {t : PrefixTree α} {m : Finmap fun _ : List Char => α}
    (h : t.Represents m) (c : MapCall α) :
    (c.onTree t).1 = (c.onMap m).1 ∧ (c.onTree t).2.Represents (c.onMap m).2 := by
  cases c with
  | insert key value =>
    rw [MapCall.onTree, replace_eq]
    exact ⟨h key, h.insert key value⟩
  | insertNew key value =>
    have hnew : ∀ q, (t.insertNew key value).get? q =
        if q = key then some ((m.lookup key).getD value) else m.lookup q := by
      intro q
      rw [insertNew, get?_alter, h key, h q]
    simp only [MapCall.onTree, getOrInsert_eq, MapCall.onMap, hnew, if_pos]
    cases hold : m.lookup key with
    | some old =>
      refine ⟨rfl, fun q => ?_⟩
      rw [hnew, hold]
      by_cases hq : q = key
      · rw [if_pos hq, hq, hold]; rfl
      · rw [if_neg hq]
    | none =>
      refine ⟨rfl, fun q => ?_⟩
      rw [hnew, hold]
      by_cases hq : q = key
      · rw [if_pos hq, hq, Finmap.lookup_insert]; rfl
      · rw [if_neg hq, Finmap.lookup_insert_of_ne _ hq]

theorem Represents.callAll {t : PrefixTree α} {m : Finmap fun _ : List Char => α}
    (h : t.Represents m) (calls : List (MapCall α)) :
    (callAll MapCall.onTree t calls).1 = (callAll MapCall.onMap m calls).1 ∧
      (callAll MapCall.onTree t calls).2.Represents (callAll MapCall.onMap m calls).2 := by
  induction calls generalizing t m with
  | nil => exact ⟨rfl, h⟩
  | cons c calls ih =>
    obtain ⟨hanswer, hnext⟩ := h.call c
    obtain ⟨hanswers, hlast⟩ := ih hnext
    exact ⟨congrArg₂ List.cons hanswer hanswers, hlast⟩

theorem Represents.size_eq {t : PrefixTree α} {m : Finmap fun _ : List Char => α}
    (h : t.Represents m) : t.size = m.keys.card := by
  have hkeys : m.keys = (t.entries.map (·.1)).toFinset := by
    ext key
    rw [Finmap.mem_keys, ← Finmap.lookup_isSome, List.mem_toFinset, List.mem_map, ← h key,
      Option.isSome_iff_exists]
    constructor
    · rintro ⟨v, hv⟩
      exact ⟨(key, v), (t.mem_entries key v).mpr hv, rfl⟩
    · rintro ⟨⟨_, v⟩, hmem, rfl⟩
      exact ⟨v, (t.mem_entries _ v).mp hmem⟩
  rw [hkeys, List.toFinset_card_of_nodup t.nodup_keys, List.length_map, length_entries]

/-- **A prefix tree is a finite map.** After any calls on an empty tree, the answers are those
    of a plain map, and the tree holds what the map holds: it finds the same value for every
    key, its size is the number of keys, and its entries are all keys with their values, each
    once. For a text it finds the values of all keys that the text starts with, the shortest
    key first, and by itself the value of the longest of them, if there is one. -/
theorem refines_map (calls : List (MapCall α)) :
    let (treeAnswers, t) := callAll MapCall.onTree (empty : PrefixTree α) calls
    let (mapAnswers, m) := callAll MapCall.onMap (∅ : Finmap fun _ : List Char => α) calls
    treeAnswers = mapAnswers ∧
      (∀ key, t.get? key = m.lookup key) ∧
      t.size = m.keys.card ∧
      (t.entries.map (·.1)).Nodup ∧
      (∀ key v, (key, v) ∈ t.entries ↔ m.lookup key = some v) ∧
      ∀ text,
        t.prefixValues text = text.inits.filterMap m.lookup ∧
        (∀ v, t.longest? text = some v ↔
          ∃ key, key <+: text ∧ m.lookup key = some v ∧
            ∀ q, q <+: text → q ∈ m → q.length ≤ key.length) ∧
        (t.longest? text = none ↔ ∀ key, key <+: text → key ∉ m) := by
  have hempty : (empty : PrefixTree α).Represents ∅ := fun key => by
    rw [get?_empty, Finmap.lookup_empty]
  obtain ⟨hanswers, h⟩ := hempty.callAll calls
  refine ⟨hanswers, h, h.size_eq, nodup_keys _, fun key v => ?_, fun text => ⟨?_, fun v => ?_, ?_⟩⟩
  · rw [mem_entries, h key]
  · rw [prefixValues_eq, show PrefixTree.get? _ = _ from funext h]
  · rw [longest?_eq_some_iff]
    simp only [h _, Finmap.lookup_isSome]
  · rw [longest?_eq_none_iff]
    simp only [h _, Finmap.lookup_eq_none]

end PrefixTree

end AgentRules
