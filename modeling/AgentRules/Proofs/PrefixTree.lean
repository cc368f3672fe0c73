/-
  Prefix trees as finite maps.

  A prefix tree is read as the function from keys to values that `get?` is. The slot of a key
  holds what the function has there (`content_slot`), and putting a value into it changes the
  function at this one key (`get?_put`). The values that `prefixValues` finds
  for a text are those that the function has at the starts of the text, the shortest start
  first (`prefixValues_eq`). How edges are split does not show in either statement.

  An edge is a label in front of a point, and a point is a value with the edges that go on
  from it. Both recursions, over the edges and over the characters of a label, meet in
  `isPrefixOf?`, so the lemmas about it come first.
-/
import AgentRules.PrefixTree
import Mathlib.Data.List.Infix

namespace AgentRules

/-! ### Removing a prefix -/

theorem isPrefixOf?_append (as bs ks : List Char) :
    (as ++ bs).isPrefixOf? ks = (as.isPrefixOf? ks).bind bs.isPrefixOf? := by
  induction as generalizing ks with
  | nil => rfl
  | cons a as ih =>
    cases ks with
    | nil => rfl
    | cons k ks =>
      simp only [List.cons_append, List.isPrefixOf?]
      split
      · exact ih ks
      · rfl

theorem isPrefixOf?_self (as : List Char) : as.isPrefixOf? as = some [] :=
  List.isPrefixOf?_eq_some_iff_append_eq.mpr (List.append_nil as)

theorem isPrefixOf?_append_self (as bs : List Char) : as.isPrefixOf? (as ++ bs) = some bs :=
  List.isPrefixOf?_eq_some_iff_append_eq.mpr rfl

/-- Of the starts of a text only those from a prefix on have the prefix. -/
theorem filterMap_inits_isPrefixOf? {β : Type} (g : List Char → Option β) (as ks : List Char) :
    (ks.inits.filterMap fun p => (as.isPrefixOf? p).bind g) =
      ((as.isPrefixOf? ks).map fun rest => rest.inits.filterMap g).getD [] := by
  induction as generalizing ks with
  | nil => rfl
  | cons a as ih =>
    cases ks with
    | nil => rfl
    | cons k ks =>
      rw [List.inits, List.filterMap_cons_none rfl, List.filterMap_map]
      by_cases h : a = k
      · subst h
        simp only [Function.comp_def, List.isPrefixOf?, beq_self_eq_true, if_true]
        exact ih ks
      · simp [List.isPrefixOf?, h]

/-- Changing the function behind a prefix at one rest changes it at one text. -/
theorem isPrefixOf?_bind_ite {β : Type} (as rest : List Char) (x : β) (g : List Char → Option β)
    (ks : List Char) :
    ((as.isPrefixOf? ks).bind fun p => if p = rest then some x else g p) =
      if ks = as ++ rest then some x else (as.isPrefixOf? ks).bind g := by
  by_cases hks : ks = as ++ rest
  · rw [if_pos hks, hks, isPrefixOf?_append_self, Option.bind_some, if_pos rfl]
  · rw [if_neg hks]
    cases hp : as.isPrefixOf? ks with
    | none => rfl
    | some p =>
      rw [Option.bind_some, Option.bind_some, if_neg]
      rintro rfl
      exact hks (List.isPrefixOf?_eq_some_iff_append_eq.mp hp).symm

/-- What two texts have in common, followed by what each goes on with, gives them back. -/
theorem splitCommon_append (cs ks : List Char) :
    cs = (splitCommon cs ks).1 ++ (splitCommon cs ks).2.1 ∧
      ks = (splitCommon cs ks).1 ++ (splitCommon cs ks).2.2 := by
  induction cs generalizing ks with
  | nil => simp [splitCommon]
  | cons a as ih =>
    cases ks with
    | nil => simp [splitCommon]
    | cons b bs =>
      rw [splitCommon]
      split
      · rename_i hab
        obtain ⟨h1, h2⟩ := ih bs
        subst hab
        exact ⟨congrArg (a :: ·) h1, congrArg (a :: ·) h2⟩
      · exact ⟨rfl, rfl⟩

theorem splitCommon_eq {cs ks common ts rs : List Char}
    (h : splitCommon cs ks = (common, ts, rs)) : cs = common ++ ts ∧ ks = common ++ rs := by
  have := splitCommon_append cs ks
  rwa [h] at this

namespace Edges

variable {α : Type}

/-! ### Points -/

/-- The value of a point and of what lies below it, by the rest of a key. -/
def point (value : Option α) (below : Edges α) : List Char → Option α
  | [] => value
  | k :: ks => below.get? k ks

@[simp] theorem get?_nil (k : Char) (ks : List Char) : (nil : Edges α).get? k ks = none := rfl

theorem get?_cons (c : Char) (cs : List Char) (value : Option α) (below others : Edges α)
    (k : Char) (ks : List Char) :
    (cons c cs value below others).get? k ks =
      if k = c then (cs.isPrefixOf? ks).bind (point value below) else others.get? k ks := by
  rw [get?]
  split
  · rcases cs.isPrefixOf? ks with _ | _ | _ <;> rfl
  · rfl

/-- No edge leads to a key whose first character comes before those of all edges. -/
theorem get?_of_above {k : Char} (ks : List Char) : ∀ {e : Edges α}, Above k e → e.get? k ks = none
  | nil, _ => rfl
  | cons c cs value below others, ⟨hc, ho⟩ => by
    rw [get?_cons, if_neg, get?_of_above ks ho]
    rintro rfl
    exact Char.lt_irrefl k hc

/-- A point is changed at the empty rest of a key by its value alone. -/
theorem point_some (value : Option α) (x : α) (below : Edges α) :
    point (some x) below = fun p => if p = [] then some x else point value below p := by
  funext p
  cases p <;> rfl

/-- A point without a value and with one edge is what lies behind the label of the edge. -/
theorem point_edge (c : Char) (cs : List Char) (value : Option α) (below : Edges α) :
    point none (cons c cs value below nil) =
      fun p => ((c :: cs).isPrefixOf? p).bind (point value below) := by
  funext p
  cases p with
  | nil => rfl
  | cons k ks =>
    rw [point, get?_cons, get?_nil, List.isPrefixOf?]
    by_cases h : c = k
    · simp [h]
    · simp [h, Ne.symm h]

/-- An edge to a new key, in front of edges that lead elsewhere. -/
theorem get?_new (k : Char) (ks : List Char) (x : α) (others : Edges α) (q : Char)
    (qs : List Char) :
    (cons k ks (some x) nil others).get? q qs =
      if q = k ∧ qs = ks then some x else if q = k then none else others.get? q qs := by
  have hpoint : point (some x) nil = fun p : List Char => if p = [] then some x else none := by
    funext p
    cases p <;> rfl
  rw [get?_cons, hpoint, isPrefixOf?_bind_ite, List.append_nil, Option.bind_fun_none]
  by_cases hq : q = k <;> by_cases hqs : qs = ks <;> simp [hq, hqs]

/-- Both edges of a fork are found, whatever their order. -/
theorem get?_fork {c k : Char} (hne : k ≠ c) (cs : List Char) (value : Option α)
    (below : Edges α) (ks : List Char) (x : α) (q : Char) (qs : List Char) :
    (fork c cs value below k ks x).get? q qs =
      if q = k ∧ qs = ks then some x else (cons c cs value below nil).get? q qs := by
  unfold fork
  split
  · rw [get?_new, get?_cons c]
    by_cases hq : q = k <;> simp [hq, hne]
  · rw [get?_cons c, get?_cons c, get?_new, get?_nil]
    by_cases hq : q = k <;> simp [hq, hne]

/-! ### Slots -/

/-- **A slot holds the value that is found for its key.** -/
theorem content_slot {e : Edges α} (h : Ordered e) (k : Char) (ks : List Char) :
    (e.slot k ks).content = e.get? k ks := by
  induction e generalizing k ks with
  | nil => rfl
  | cons c cs value below others ihb iho =>
    obtain ⟨ha, hb, ho⟩ := h
    rw [slot, get?_cons]
    split
    · split <;> rename_i hs <;> obtain ⟨hcs, hks⟩ := splitCommon_eq hs
      · -- The key ends where the label ends.
        rw [List.append_nil] at hcs hks
        rw [hks, hcs, isPrefixOf?_self]
        rfl
      · -- The key goes on below the edge.
        rename_i r rs
        rw [List.append_nil] at hcs
        rw [Slot.content_within, ihb hb, hks, hcs, isPrefixOf?_append_self]
        rfl
      · -- The key ends inside the label.
        rw [List.append_nil] at hks
        rw [hks, hcs, isPrefixOf?_append, isPrefixOf?_self]
        rfl
      · -- Key and label part.
        rw [hks, hcs, isPrefixOf?_append, isPrefixOf?_append_self, Option.bind_some,
          List.isPrefixOf?, beq_false_of_ne (splitCommon_ne _ _ hs).symm]
        rfl
    · split
      · rename_i hlt
        exact (get?_of_above ks (ha.mono hlt)).symm
      · exact iho ho k ks

/-- To put a value along an edge it is enough to put it behind the label. -/
theorem get?_cons_of_label {c : Char} {cs cs' ks : List Char} {value value' : Option α}
    {below below' others : Edges α} {x : α}
    (h : ∀ qs, (cs'.isPrefixOf? qs).bind (point value' below') =
      if qs = ks then some x else (cs.isPrefixOf? qs).bind (point value below))
    (q : Char) (qs : List Char) :
    (cons c cs' value' below' others).get? q qs =
      if q = c ∧ qs = ks then some x else (cons c cs value below others).get? q qs := by
  rw [get?_cons, get?_cons, h]
  by_cases hq : q = c <;> simp [hq]

/-- A value is put along an edge, where putting it below is right: the label of the edge and the
    rest of the key part behind what they have in common. -/
theorem get?_put_along (v : α) (c : Char) (cs : List Char) (value : Option α)
    {below : Edges α} (others : Edges α)
    (hbelow : ∀ r rs q qs, ((below.slot r rs).put v).get? q qs =
      if q = r ∧ qs = rs then some v else below.get? q qs)
    (ks : List Char) (q : Char) (qs : List Char) :
    (((cons c cs value below others).slot c ks).put v).get? q qs =
      if q = c ∧ qs = ks then some v else (cons c cs value below others).get? q qs := by
  rw [slot, if_pos rfl]
  split <;> rename_i hs <;> obtain ⟨hcs, hks⟩ := splitCommon_eq hs
  · -- The key ends where the label ends.
    rw [List.append_nil] at hcs hks
    refine get?_cons_of_label (fun qs => ?_) q qs
    rw [point_some value, isPrefixOf?_bind_ite, List.append_nil, hks, hcs]
  · -- The key goes on below the edge.
    rename_i r rs
    rw [List.append_nil] at hcs
    have hpoint : point value ((below.slot r rs).put v) =
        fun p => if p = r :: rs then some v else point value below p := by
      funext p
      cases p with
      | nil => simp [point]
      | cons d ds => rw [point, hbelow]; simp [point]
    refine get?_cons_of_label (fun qs => ?_) q qs
    rw [hpoint, isPrefixOf?_bind_ite, hks, hcs]
  · -- The key ends inside the label.
    rw [List.append_nil] at hks
    refine get?_cons_of_label (fun qs => ?_) q qs
    rw [point_some none, isPrefixOf?_bind_ite, point_edge, List.append_nil, hks, hcs]
    simp only [isPrefixOf?_append, Option.bind_assoc]
  · -- Key and label part, and the edge forks.
    rename_i t ts r rs
    have hpoint : point none (fork t ts value below r rs v) =
        fun p => if p = r :: rs then some v else point none (cons t ts value below nil) p := by
      funext p
      cases p with
      | nil => simp [point]
      | cons d ds => rw [point, get?_fork (splitCommon_ne _ _ hs)]; simp [point]
    refine get?_cons_of_label (fun qs => ?_) q qs
    rw [hpoint, isPrefixOf?_bind_ite, point_edge, hks, hcs]
    simp only [isPrefixOf?_append, Option.bind_assoc]

/-- **What is put into a slot is found for its key, and nothing else changes.** -/
theorem get?_put (v : α) {e : Edges α} (h : Ordered e) (k : Char) (ks : List Char)
    (q : Char) (qs : List Char) :
    ((e.slot k ks).put v).get? q qs = if q = k ∧ qs = ks then some v else e.get? q qs := by
  induction e generalizing k ks q qs with
  | nil => rw [slot, get?_new]; simp
  | cons c cs value below others ihb iho =>
    obtain ⟨ha, hb, ho⟩ := h
    by_cases hk : k = c
    · subst hk
      exact get?_put_along v k cs value others (ihb hb) ks q qs
    · rw [slot, if_neg hk]
      split
      · -- The key comes before all edges, so nothing was stored for it.
        rename_i hlt
        have habove : Above k (cons c cs value below others) := ⟨hlt, ha.mono hlt⟩
        rw [get?_new]
        by_cases hq : q = k
        · rw [hq, get?_of_above qs habove]; simp
        · simp [hq]
      · rw [Slot.put_within, get?_cons, iho ho, get?_cons]
        by_cases hq : q = c
        · rw [if_pos hq, if_pos hq, if_neg fun h => hk (h.1.symm.trans hq)]
        · rw [if_neg hq, if_neg hq]

/-! ### The keys that a text starts with -/

theorem prefixValues_nil (e : Edges α) : e.prefixValues [] = [] := by
  cases e <;> rfl

/-- The values below a point for the starts of a text. -/
theorem prefixValues_cons (e : Edges α) (k : Char) (ks : List Char) :
    e.prefixValues (k :: ks) = ks.inits.filterMap (e.get? k) := by
  induction e generalizing k ks with
  | nil => simp [prefixValues, get?]
  | cons c cs value below others ihb iho =>
    have hget : (cons c cs value below others).get? k = fun p =>
        if k = c then (cs.isPrefixOf? p).bind (point value below) else others.get? k p := by
      funext p
      exact get?_cons ..
    rw [prefixValues, hget]
    by_cases hk : k = c
    · simp only [hk, if_true]
      rw [filterMap_inits_isPrefixOf?]
      cases cs.isPrefixOf? ks with
      | none => rfl
      | some rest =>
        cases rest with
        | nil => cases value <;> simp [prefixValues_nil, point]
        | cons r rs =>
          have hpoint : (point value below ∘ fun t => r :: t) = below.get? r := rfl
          simp only [Option.map_some, Option.getD_some, List.inits, ihb, List.filterMap_cons,
            List.filterMap_map, hpoint]
          cases value <;> rfl
    · simp only [hk, if_false]
      exact iho k ks

end Edges

/-! ### Trees -/

namespace PrefixTree

variable {α : Type}

@[simp] theorem get?_empty (key : List Char) : (empty : PrefixTree α).get? key = none := by
  cases key <;> rfl

theorem content_slot (t : PrefixTree α) (key : List Char) :
    (t.slot key).content = t.get? key := by
  cases key with
  | nil => rfl
  | cons k ks => exact Edges.content_slot t.ordered k ks

theorem get?_put (t : PrefixTree α) (key : List Char) (v : α) (q : List Char) :
    ((t.slot key).put v).get? q = if q = key then some v else t.get? q := by
  cases key with
  | nil => cases q <;> simp [slot, get?]
  | cons k ks =>
    cases q with
    | nil => simp [slot, get?]
    | cons d ds => simp only [slot, get?, Edges.get?_put v t.ordered, List.cons.injEq]

/-- **Altering the value of one key changes no other**, and what is stored for the key is
    made of what was there. -/
theorem get?_alter (f : Option α → α) (t : PrefixTree α) (key q : List Char) :
    (t.alter f key).get? q = if q = key then some (f (t.get? key)) else t.get? q := by
  rw [alter, Slot.alter, get?_put, content_slot]

/-- What a slot held is what a lookup finds. -/
theorem replace_eq (t : PrefixTree α) (key : List Char) (v : α) :
    t.replace key v = (t.get? key, t.insert key v) :=
  Prod.ext (t.content_slot key) rfl

theorem getOrInsert_eq (t : PrefixTree α) (key : List Char) (v : α) :
    t.getOrInsert key v = ((t.insertNew key v).get? key, t.insertNew key v) := by
  refine Prod.ext ?_ rfl
  rw [insertNew, get?_alter, if_pos rfl, ← content_slot]
  rfl

/-- **The values found for a text are those of the keys it starts with**, the shortest key
    first. -/
theorem prefixValues_eq (t : PrefixTree α) (text : List Char) :
    t.prefixValues text = text.inits.filterMap t.get? := by
  rw [prefixValues]
  cases text with
  | nil => cases h : t.value <;> simp [Edges.prefixValues_nil, get?, h]
  | cons k ks =>
    have hget : (t.get? ∘ fun p => k :: p) = t.edges.get? k := rfl
    simp only [Edges.prefixValues_cons, List.inits, List.filterMap_cons, List.filterMap_map, hget]
    cases h : t.value <;> simp [get?, h]

end PrefixTree

end AgentRules
