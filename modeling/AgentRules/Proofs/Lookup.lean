/-
  What lookup tables answer, from the entries that went in.

  A table holds its entries by their keys and in a prefix tree. Entering a key into both keeps
  them the same map (`Agrees.insert`), so after any entries the answer for a key and the answer
  for the longest key that a text starts with are not at odds: both give the value that came
  last for the key (`ofEntries_answers`).

  Keys and texts are put into small letters apart from one another. A text that goes on behind
  a key is therefore found by this key, unless going on changes the small form of the key,
  which it does to a final sigma and to nothing else (`startsWithKey_append_iff`).
-/
import AgentRules.Lookup
import AgentRules.Proofs.Case
import AgentRules.Proofs.FiniteMap

namespace AgentRules.LookupTable

/-! ### Lists of entries -/

theorem lookup_filter_ne {q key : List Char} (h : q ≠ key) (entries : List (List Char × String)) :
    (entries.filter (·.1 != key)).lookup q = entries.lookup q := by
  induction entries with
  | nil => rfl
  | cons e entries ih =>
    by_cases he : e.1 = key
    · have hdrop : (q == e.1) = false := beq_eq_false_iff_ne.mpr (he ▸ h)
      rw [List.filter_cons_of_neg (by simp [he]), ih, List.lookup_cons, hdrop]
    · rw [List.filter_cons_of_pos (by simp [he]), List.lookup_cons, List.lookup_cons, ih]

theorem lookup_setEntry (entries : List (List Char × String)) (key : List Char) (value : String)
    (q : List Char) :
    (setEntry entries key value).lookup q = if q = key then some value else entries.lookup q := by
  rw [setEntry, List.lookup_cons]
  by_cases hq : q = key
  · rw [if_pos hq, beq_iff_eq.mpr hq]
  · rw [if_neg hq, beq_eq_false_iff_ne.mpr hq]
    exact lookup_filter_ne hq entries

theorem mem_keys_setEntry (entries : List (List Char × String)) (key : List Char) (value : String)
    (q : List Char) :
    q ∈ (setEntry entries key value).map (·.1) ↔ q = key ∨ q ∈ entries.map (·.1) := by
  rw [setEntry, List.map_cons, List.mem_cons]
  by_cases hq : q = key
  · simp [hq]
  · simp [hq]

theorem nodup_keys_setEntry {entries : List (List Char × String)}
    (h : (entries.map (·.1)).Nodup) (key : List Char) (value : String) :
    ((setEntry entries key value).map (·.1)).Nodup := by
  have hfresh : key ∉ (entries.filter (·.1 != key)).map (·.1) := by
    intro hmem
    obtain ⟨e, he, heq⟩ := List.mem_map.mp hmem
    have hne := (List.mem_filter.mp he).2
    simp [heq] at hne
  rw [setEntry, List.map_cons, List.nodup_cons]
  exact ⟨hfresh, (List.filter_sublist.map _).nodup h⟩

/-! ### One entry -/

/-- Whether both parts of a table are the same map. -/
structure Agrees (t : LookupTable) : Prop where
  distinct : (t.byKey.map (·.1)).Nodup
  same : ∀ key, t.byPrefix.get? key = t.byKey.lookup key

theorem agrees_empty (name : String) (default : Option String) : (empty name default).Agrees where
  distinct := List.nodup_nil
  same key := PrefixTree.get?_empty key

/-- **An entry goes into both parts alike.** -/
theorem Agrees.insert {t : LookupTable} (h : t.Agrees) (key value : String) :
    (t.insert key value).Agrees where
  distinct := nodup_keys_setEntry h.distinct (foldCase key) value
  same q := by
    have htree : (t.insert key value).byPrefix.get? q =
        if q = foldCase key then some value else t.byPrefix.get? q :=
      PrefixTree.get?_alter _ t.byPrefix (foldCase key) q
    have hlist : (t.insert key value).byKey.lookup q =
        if q = foldCase key then some value else t.byKey.lookup q :=
      lookup_setEntry t.byKey (foldCase key) value q
    rw [htree, hlist, h.same]

/-! ### All entries -/

/-- The value that comes last for a key among entries whose keys are put into small letters. -/
def lastValue? (entries : List (String × String)) (key : List Char) : Option String :=
  (entries.reverse.find? fun e => foldCase e.1 = key).map (·.2)

theorem isSome_lastValue? (entries : List (String × String)) (key : List Char) :
    (lastValue? entries key).isSome ↔ key ∈ entries.map (foldCase ·.1) := by
  rw [lastValue?, Option.isSome_map, List.find?_isSome, List.mem_map]
  simp

section OfEntries

variable (name : String) (default : Option String) (entries : List (String × String))

theorem ofEntries_concat (e : String × String) :
    ofEntries name default (entries ++ [e]) = (ofEntries name default entries).insert e.1 e.2 := by
  rw [ofEntries, List.foldl_concat]
  rfl

theorem agrees_ofEntries : (ofEntries name default entries).Agrees := by
  induction entries using List.reverseRecOn with
  | nil => exact agrees_empty name default
  | append_singleton entries e ih =>
    rw [ofEntries_concat]
    exact ih.insert e.1 e.2

/-- **A table lists the last value of each key.** -/
theorem lookup_ofEntries (key : List Char) :
    (ofEntries name default entries).byKey.lookup key = lastValue? entries key := by
  induction entries using List.reverseRecOn with
  | nil => rfl
  | append_singleton entries e ih =>
    have hinsert := lookup_setEntry (ofEntries name default entries).byKey (foldCase e.1) e.2 key
    rw [ofEntries_concat, LookupTable.insert, hinsert, ih, lastValue?, lastValue?,
      List.reverse_concat, List.find?_cons]
    by_cases hkey : foldCase e.1 = key
    · simp [hkey]
    · simp [hkey, Ne.symm hkey]

theorem mem_keys_ofEntries (key : List Char) :
    key ∈ (ofEntries name default entries).byKey.map (·.1) ↔ key ∈ entries.map (foldCase ·.1) := by
  induction entries using List.reverseRecOn with
  | nil => rfl
  | append_singleton entries e ih =>
    have hinsert := mem_keys_setEntry (ofEntries name default entries).byKey (foldCase e.1) e.2 key
    rw [ofEntries_concat, LookupTable.insert, hinsert, ih, List.map_append, List.mem_append,
      List.map_singleton, List.mem_singleton, or_comm]

theorem size_ofEntries :
    (ofEntries name default entries).size = (entries.map (foldCase ·.1)).toFinset.card := by
  have hkeys : (entries.map (foldCase ·.1)).toFinset =
      ((ofEntries name default entries).byKey.map (·.1)).toFinset := by
    ext key
    rw [List.mem_toFinset, List.mem_toFinset, mem_keys_ofEntries]
  rw [hkeys, List.toFinset_card_of_nodup (agrees_ofEntries name default entries).distinct,
    List.length_map, size]

theorem get?_byPrefix_ofEntries (key : List Char) :
    (ofEntries name default entries).byPrefix.get? key = lastValue? entries key := by
  rw [(agrees_ofEntries name default entries).same, lookup_ofEntries]

theorem longest?_ofEntries_eq_none_iff (text : String) :
    (ofEntries name default entries).longest? text = none ↔
      ∀ key ∈ entries.map (foldCase ·.1), ¬key <+: foldCase text := by
  rw [longest?, PrefixTree.longest?_eq_none_iff]
  simp only [get?_byPrefix_ofEntries]
  constructor
  · intro h key hkey hprefix
    rw [← isSome_lastValue?, h key hprefix] at hkey
    exact absurd hkey (by simp)
  · intro h key hprefix
    by_contra hvalue
    have hkey : key ∈ entries.map (foldCase ·.1) :=
      (isSome_lastValue? entries key).mp (Option.isSome_iff_ne_none.mpr hvalue)
    exact h key hkey hprefix

theorem longest?_ofEntries_eq_some_iff (text value : String) :
    (ofEntries name default entries).longest? text = some value ↔
      ∃ key ∈ entries.map (foldCase ·.1), key <+: foldCase text ∧
        (∀ q ∈ entries.map (foldCase ·.1), q <+: foldCase text → q.length ≤ key.length) ∧
        lastValue? entries key = some value := by
  rw [longest?, PrefixTree.longest?_eq_some_iff]
  simp only [get?_byPrefix_ofEntries, isSome_lastValue?]
  constructor
  · rintro ⟨key, hprefix, hvalue, hlongest⟩
    have hkey : key ∈ entries.map (foldCase ·.1) := by
      rw [← isSome_lastValue?, hvalue]
      rfl
    exact ⟨key, hkey, hprefix, fun q hq hqprefix => hlongest q hqprefix hq, hvalue⟩
  · rintro ⟨key, -, hprefix, hlongest, hvalue⟩
    exact ⟨key, hprefix, hvalue, fun q hqprefix hq => hlongest q hq hqprefix⟩

theorem startsWithKey_ofEntries_iff (text : String) :
    (ofEntries name default entries).startsWithKey text ↔
      ∃ key ∈ entries.map (foldCase ·.1), key <+: foldCase text := by
  rw [startsWithKey, Option.isSome_iff_ne_none, Ne, longest?_ofEntries_eq_none_iff]
  simp only [not_forall, not_not, exists_prop]

end OfEntries

/-- What a table answers after entries, of which each counts by the small form of its key. -/
structure Answers (t : LookupTable) (entries : List (String × String)) : Prop where
  /-- A text is given the last value of a key of the same small form, if there is one. -/
  get?_eq : ∀ text, t.get? text = lastValue? entries (foldCase text)
  /-- A text is given the last value of the longest key that its small form starts with. -/
  longest?_eq_some_iff : ∀ text value, t.longest? text = some value ↔
    ∃ key ∈ entries.map (foldCase ·.1), key <+: foldCase text ∧
      (∀ q ∈ entries.map (foldCase ·.1), q <+: foldCase text → q.length ≤ key.length) ∧
      lastValue? entries key = some value
  /-- It is given no value where its small form starts with no key. -/
  longest?_eq_none_iff : ∀ text, t.longest? text = none ↔
    ∀ key ∈ entries.map (foldCase ·.1), ¬key <+: foldCase text
  startsWithKey_iff : ∀ text, t.startsWithKey text ↔
    ∃ key ∈ entries.map (foldCase ·.1), key <+: foldCase text
  /-- Keys of one small form count once. -/
  size_eq : t.size = (entries.map (foldCase ·.1)).toFinset.card
  /-- A text that is a key is also found as a start of itself, with the same value. -/
  longest?_of_get? : ∀ text value, t.get? text = some value → t.longest? text = some value

/-- **The answers of a table are those of its entries**, whatever entries went in, in whatever
    order. -/
theorem ofEntries_answers (name : String) (default : Option String)
    (entries : List (String × String)) : (ofEntries name default entries).Answers entries where
  get?_eq text := lookup_ofEntries name default entries (foldCase text)
  longest?_eq_some_iff := longest?_ofEntries_eq_some_iff name default entries
  longest?_eq_none_iff := longest?_ofEntries_eq_none_iff name default entries
  startsWithKey_iff := startsWithKey_ofEntries_iff name default entries
  size_eq := size_ofEntries name default entries
  longest?_of_get? text value hget := by
    -- The whole text is the longest of its starts.
    rw [get?, ← (agrees_ofEntries name default entries).same] at hget
    rw [longest?, PrefixTree.longest?_eq_some_iff]
    exact ⟨foldCase text, List.prefix_refl _, hget, fun q hq _ => hq.length_le⟩

/-! ### Texts that go on behind a key -/

theorem foldCase_prefix_append_iff (key more : String) :
    foldCase key <+: foldCase (key ++ more) ↔ ¬Text.FinalSigmaLost [] key.toList more.toList := by
  rw [foldCase, foldCase, String.toList_append, Text.toSmall_prefix_append_iff]

/-- **When a text is found by a key that it starts with.** All tables with the key find the text,
    exactly if what follows the key does not turn a final sigma of the key into another letter. -/
theorem startsWithKey_append_iff (key more : String) :
    (∀ name default entries, key ∈ entries.map (·.1) →
        (ofEntries name default entries).startsWithKey (key ++ more) ∧
          ((ofEntries name default entries).longest? (key ++ more)).isSome) ↔
      ¬Text.FinalSigmaLost [] key.toList more.toList := by
  rw [← foldCase_prefix_append_iff]
  constructor
  · intro h
    have halone := (h "" none [(key, "")] List.mem_cons_self).1
    rw [startsWithKey_ofEntries_iff] at halone
    simpa using halone
  · intro hprefix name default entries hmem
    obtain ⟨e, he, rfl⟩ := List.mem_map.mp hmem
    have hfound : (ofEntries name default entries).startsWithKey (e.1 ++ more) :=
      (startsWithKey_ofEntries_iff name default entries _).mpr
        ⟨foldCase e.1, List.mem_map_of_mem he, hprefix⟩
    exact ⟨hfound, hfound⟩

/-- The sigma of the key `ΑΣ` is final, and in the text `ΑΣΑ` it is not, so the text is not
    found. -/
theorem startsWithKey_final_sigma :
    let t := ofEntries "T" none [("ΑΣ", "v")]
    t.get? "ΑΣ" = some "v" ∧ t.startsWithKey ("ΑΣ" ++ "Α") = false ∧
      t.longest? ("ΑΣ" ++ "Α") = none := by
  decide +kernel

end AgentRules.LookupTable
