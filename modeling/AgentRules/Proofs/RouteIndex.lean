/-
  What is filed in an index.

  An index is read as the function from routes to the actions filed under them, `ids`. Filing
  goes down a path and, where the path may take several children, into all of them. Along one
  way through the tree a path has at most one route (`mem_filings`). So at the end of a way the
  action is filed once, as this route says, or not at all (`here_descend_enter`): filing adds it
  to the end of the lists for the routes of the path, and leaves all other lists as they are
  (`ids_enter`).

  Besides, an index is in order: a node of the prefix tree carries the text that leads to it,
  and no word range stands twice at a place (`WellFormed`). Both hold of the empty index and
  are kept by filing.
-/
import AgentRules.Proofs.Lists
import AgentRules.Proofs.Place
import AgentRules.Proofs.PrefixTree

namespace AgentRules

/-! ### Actions at a value -/

namespace TestNode

theorem find?_insert (id : ActionId) (text t : String) (ns : List TestNode) :
    (insert id text ns).find? (·.text == t) =
      if t = text then some (add id text (ns.find? (·.text == text)))
      else ns.find? (·.text == t) := by
  induction ns with
  | nil =>
    by_cases h : t = text
    · simp [insert, add, h]
    · simp [insert, add, h, Ne.symm h]
  | cons n ns ih =>
    rw [insert]
    by_cases hn : n.text = text
    · by_cases h : t = text
      · simp [hn, h, add]
      · simp [hn, h, Ne.symm h, add]
    · -- The node stays, and it is found for its own text only.
      rw [if_neg hn, List.find?_cons, ih]
      by_cases h : t = text
      · subst h
        simp [beq_false_of_ne hn]
      · rw [if_neg h, if_neg h, List.find?_cons]

theorem actions_add (id : ActionId) (text : String) (old : Option TestNode) :
    (add id text old).actions = (old.map actions).getD [] ++ [id] := rfl

end TestNode

namespace ValueNode

/-- The actions that are filed at a value under a test. -/
def ids (n : ValueNode) : Option IndexedTest → List ActionId
  | none => n.actions
  | some (.equals text) => ((n.equals.find? (·.text == text)).map TestNode.actions).getD []
  | some (.startsWith text) => ((n.starts.get? text.toList).map TestNode.actions).getD []

@[simp] theorem ids_empty (test : Option IndexedTest) : empty.ids test = [] := by
  rcases test with _ | _ | _
  · rfl
  · rfl
  · simp [ids, empty]

theorem ids_insert (id : ActionId) (test t : Option IndexedTest) (n : ValueNode) :
    (n.insert id test).ids t = n.ids t ++ if t = test then [id] else [] := by
  rcases test with _ | text | text
  · rcases t with _ | _ | _ <;> simp [insert, ids]
  · rcases t with _ | t | t
    · simp [insert, ids]
    · by_cases h : t = text
      · subst h
        simp [insert, ids, TestNode.find?_insert, TestNode.actions_add]
      · simp [insert, ids, TestNode.find?_insert, h]
    · simp [insert, ids]
  · rcases t with _ | t | t
    · simp [insert, ids]
    · simp [insert, ids]
    · by_cases h : t = text
      · subst h
        simp [insert, ids, PrefixTree.get?_alter, TestNode.actions_add]
      · have hne : t.toList ≠ text.toList := fun he => h (String.toList_inj.mp he)
        simp [insert, ids, PrefixTree.get?_alter, h, hne]

/-- Whether the nodes for starts carry the texts that lead to them. -/
def WellFormed (n : ValueNode) : Prop :=
  ∀ key m, n.starts.get? key = some m → m.text.toList = key

theorem wellFormed_empty : empty.WellFormed := by
  intro key m h
  simp [empty] at h

theorem WellFormed.insert {n : ValueNode} (h : n.WellFormed) (id : ActionId)
    (test : Option IndexedTest) : (n.insert id test).WellFormed := by
  rcases test with _ | text | text
  · exact h
  · exact h
  · intro key m hm
    simp only [ValueNode.insert, PrefixTree.get?_alter] at hm
    split at hm
    · rename_i hkey
      obtain rfl := Option.some.inj hm
      exact hkey.symm
    · exact h key m hm

end ValueNode

/-! ### Actions at a place -/

namespace PlaceNode

/-- The actions that are filed at a place under some words and a test. -/
def ids (n : PlaceNode) (words : Option WordRange) (test : Option IndexedTest) : List ActionId :=
  match words with
  | none => n.plain.ids test
  | some range => ((n.worded.lookup range).map (·.ids test)).getD []

theorem lookup_insertWords (id : ActionId) (range r : WordRange) (test : Option IndexedTest)
    (ns : List (WordRange × ValueNode)) :
    (insertWords id range test ns).lookup r =
      if r = range then some (((ns.lookup range).getD .empty).insert id test)
      else ns.lookup r := by
  induction ns with
  | nil =>
    by_cases h : r = range
    · simp [insertWords, h]
    · simp [insertWords, h, List.lookup_cons, beq_false_of_ne h]
  | cons m ns ih =>
    obtain ⟨q, m⟩ := m
    rw [insertWords]
    by_cases hq : q = range
    · subst hq
      by_cases h : r = q
      · simp [h]
      · simp [h, List.lookup_cons, beq_false_of_ne h]
    · rw [if_neg hq, List.lookup_cons, ih]
      by_cases h : r = range
      · subst h
        simp [List.lookup_cons, beq_false_of_ne (Ne.symm hq)]
      · rw [if_neg h, if_neg h, List.lookup_cons]

@[simp] theorem ids_empty (words : Option WordRange) (test : Option IndexedTest) :
    empty.ids words test = [] := by
  cases words with
  | none => exact ValueNode.ids_empty test
  | some range => rfl

theorem ids_insert (id : ActionId) (words w : Option WordRange) (test t : Option IndexedTest)
    (n : PlaceNode) :
    (n.insert id words test).ids w t =
      n.ids w t ++ if w = words ∧ t = test then [id] else [] := by
  cases words with
  | none =>
    cases w with
    | none => simp [insert, ids, ValueNode.ids_insert]
    | some r => simp [insert, ids]
  | some range =>
    cases w with
    | none => simp [insert, ids]
    | some r =>
      by_cases h : r = range
      · subst h
        cases hl : n.worded.lookup r with
        | none => simp [insert, ids, lookup_insertWords, ValueNode.ids_insert, hl]
        | some m => simp [insert, ids, lookup_insertWords, ValueNode.ids_insert, hl]
      · simp [insert, ids, lookup_insertWords, h]

/-- Whether no word range stands twice at a place, and all that is filed there is in order. -/
structure WellFormed (n : PlaceNode) : Prop where
  plain : n.plain.WellFormed
  worded : ∀ m ∈ n.worded, m.2.WellFormed
  distinct : (n.worded.map (·.1)).Nodup

theorem wellFormed_empty : empty.WellFormed :=
  ⟨ValueNode.wellFormed_empty, by simp [empty], by simp [empty]⟩

theorem mem_insertWords {id : ActionId} {range : WordRange} {test : Option IndexedTest}
    {ns : List (WordRange × ValueNode)} (h : ∀ m ∈ ns, m.2.WellFormed) :
    ∀ m ∈ insertWords id range test ns, m.2.WellFormed := by
  induction ns with
  | nil =>
    intro m hm
    rw [insertWords, List.mem_singleton] at hm
    exact hm ▸ ValueNode.wellFormed_empty.insert id test
  | cons n ns ih =>
    obtain ⟨hn, hns⟩ := List.forall_mem_cons.mp h
    rw [insertWords]
    split
    · exact List.forall_mem_cons.mpr ⟨hn.insert id test, hns⟩
    · exact List.forall_mem_cons.mpr ⟨hn, ih hns⟩

theorem keys_insertWords (id : ActionId) (range : WordRange) (test : Option IndexedTest)
    (ns : List (WordRange × ValueNode)) :
    (insertWords id range test ns).map (·.1) =
      if range ∈ ns.map (·.1) then ns.map (·.1) else ns.map (·.1) ++ [range] := by
  induction ns with
  | nil => rfl
  | cons n ns ih =>
    rw [insertWords]
    by_cases h : n.1 = range
    · simp [h]
    · rw [if_neg h, List.map_cons, ih, List.map_cons]
      by_cases hmem : range ∈ ns.map (·.1)
      · rw [if_pos hmem, if_pos (List.mem_cons_of_mem _ hmem)]
      · rw [if_neg hmem, if_neg (by simpa [Ne.symm h] using hmem), List.cons_append]

theorem WellFormed.insert {n : PlaceNode} (h : n.WellFormed) (id : ActionId)
    (words : Option WordRange) (test : Option IndexedTest) :
    (n.insert id words test).WellFormed := by
  cases words with
  | none => exact ⟨h.plain.insert id test, h.worded, h.distinct⟩
  | some range =>
    refine ⟨h.plain, mem_insertWords h.worded, ?_⟩
    show ((insertWords id range test n.worded).map (·.1)).Nodup
    rw [keys_insertWords]
    exact nodup_add_key h.distinct

end PlaceNode

/-! ### The routes of a path -/

theorem ChildRange.mem_indices {range : ChildRange} {i : Nat} :
    i ∈ range.indices ↔ range.contains i := by
  simp only [indices, contains, List.mem_range'_1, Bool.and_eq_true, decide_eq_true_eq]
  omega

namespace PathStep

theorem under_injective (c : Fragment × Nat) : Function.Injective (Route.under c) := by
  intro r r' h
  cases r
  cases r'
  simpa [Route.under] using h

/-- **The routes of a path are all different.** -/
theorem nodup_filings (steps : List PathStep) : (filings steps).Nodup := by
  induction steps with
  | nil => exact List.nodup_singleton _
  | cons step steps ih =>
    cases step with
    | test t text => exact List.nodup_singleton _
    | words range => exact List.nodup_singleton _
    | down kind range =>
      rw [filings, List.nodup_flatMap]
      refine ⟨fun i _ => ih.map (under_injective (kind, i)), ?_⟩
      -- Routes through different children differ in their first child.
      refine List.Nodup.pairwise_of_forall_ne List.nodup_range' fun i _ j _ hij r hi hj => ?_
      obtain ⟨r1, -, rfl⟩ := List.mem_map.mp hi
      obtain ⟨r2, -, h2⟩ := List.mem_map.mp hj
      simp only [Route.under, Route.mk.injEq, List.cons.injEq, Prod.mk.injEq] at h2
      exact hij h2.1.1.2.symm

/-- The one of the routes of steps that leads along a way. -/
def routeAlong : List PathStep → List (Fragment × Nat) → Option Route
  | down kind range :: steps, (k, i) :: way =>
    if k = kind ∧ range.contains i then (routeAlong steps way).map (.under (k, i)) else none
  | down _ _ :: _, [] => none
  | _, _ :: _ => none
  | words range :: steps, [] => some ⟨[], some range, leadingTest? steps⟩
  | steps, [] => some ⟨[], none, leadingTest? steps⟩

theorem children_routeAlong {steps : List PathStep} {way : List (Fragment × Nat)} {r : Route}
    (h : routeAlong steps way = some r) : r.children = way := by
  fun_induction routeAlong steps way generalizing r with
  | case1 kind range steps k i way hin ih =>
    obtain ⟨r, hr, rfl⟩ := Option.map_eq_some_iff.mp h
    rw [Route.under, ih hr]
  | case2 | case3 | case4 => simp at h
  | case5 | case6 => obtain rfl := Option.some.inj h; rfl

/-- **Steps have one route along a way at most**, and are filed under all these routes. -/
theorem mem_filings {steps : List PathStep} {r : Route} :
    r ∈ filings steps ↔ routeAlong steps r.children = some r := by
  obtain ⟨way, w, t⟩ := r
  induction steps generalizing way with
  | nil => cases way <;> simp [filings, routeAlong, eq_comm]
  | cons step steps ih =>
    cases step with
    | test u text => cases way <;> simp [filings, routeAlong, eq_comm]
    | words range => cases way <;> simp [filings, routeAlong, eq_comm]
    | down kind range =>
      cases way with
      | nil => simp [filings, routeAlong, Route.under]
      | cons c way =>
        obtain ⟨k, i⟩ := c
        rw [filings, List.mem_flatMap, routeAlong]
        constructor
        · -- The index that was chosen for the descent is that of the first child.
          rintro ⟨j, hj, hmem⟩
          obtain ⟨⟨way', w', t'⟩, hr, heq⟩ := List.mem_map.mp hmem
          simp only [Route.under, Route.mk.injEq, List.cons.injEq, Prod.mk.injEq] at heq
          obtain ⟨⟨⟨rfl, rfl⟩, rfl⟩, rfl, rfl⟩ := heq
          rw [if_pos ⟨rfl, ChildRange.mem_indices.mp hj⟩, (ih way').mp hr]
          rfl
        · intro h
          split at h
          · rename_i hc
            obtain ⟨r, hr, heq⟩ := Option.map_eq_some_iff.mp h
            obtain rfl := children_routeAlong hr
            obtain ⟨way, w', t'⟩ := r
            simp only [Route.under, Route.mk.injEq] at heq
            obtain ⟨-, rfl, rfl⟩ := heq
            obtain ⟨rfl, hi⟩ := hc
            exact ⟨i, ChildRange.mem_indices.mpr hi, List.mem_map.mpr ⟨_, (ih _).mpr hr, rfl⟩⟩
          · exact absurd h (by simp)

end PathStep

namespace Path

theorem nodup_filings (path : Path) : path.filings.Nodup := by
  cases path with
  | fromRoot steps => exact PathStep.nodup_filings steps
  | literal text => exact List.nodup_nil
  | fromVariable name steps => exact List.nodup_nil

/-- The one of the routes of a path that leads along a way. -/
def routeAlong : Path → List (Fragment × Nat) → Option Route
  | fromRoot steps => PathStep.routeAlong steps
  | literal _ | fromVariable .. => fun _ => none

theorem mem_filings {path : Path} {r : Route} :
    r ∈ path.filings ↔ path.routeAlong r.children = some r := by
  cases path with
  | fromRoot steps => exact PathStep.mem_filings
  | literal text => simp [filings, routeAlong]
  | fromVariable name steps => simp [filings, routeAlong]

theorem children_routeAlong {path : Path} {way : List (Fragment × Nat)} {r : Route}
    (h : path.routeAlong way = some r) : r.children = way := by
  cases path with
  | fromRoot steps => exact PathStep.children_routeAlong h
  | literal text => exact absurd h (by simp [routeAlong])
  | fromVariable name steps => exact absurd h (by simp [routeAlong])

end Path

/-! ### Actions in an index -/

namespace RouteNodes

theorem content_slot (kind : Fragment) (index : Nat) (ns : RouteNodes) :
    (ns.slot kind index).content = ns.find? kind index := by
  induction ns with
  | nil => rfl
  | node k i here below others _ ih =>
    rw [slot, find?]
    split
    · rfl
    · exact ih

theorem find?_put (kind k : Fragment) (index i : Nat) (n : IndexNode) (ns : RouteNodes) :
    ((ns.slot kind index).put n).find? k i =
      if k = kind ∧ i = index then some n else ns.find? k i := by
  induction ns with
  | nil =>
    by_cases h : k = kind ∧ i = index
    · obtain ⟨rfl, rfl⟩ := h
      simp [slot, find?]
    · have h' : ¬(kind = k ∧ index = i) := fun ⟨h1, h2⟩ => h ⟨h1.symm, h2.symm⟩
      simp [slot, find?, h, h']
  | node k' i' here below others _ ih =>
    rw [slot]
    by_cases hn : k' = kind ∧ i' = index
    · obtain ⟨rfl, rfl⟩ := hn
      by_cases h : k = k' ∧ i = i'
      · obtain ⟨rfl, rfl⟩ := h
        simp [find?]
      · have h' : ¬(k' = k ∧ i' = i) := fun ⟨h1, h2⟩ => h ⟨h1.symm, h2.symm⟩
        simp [find?, h, h']
    · rw [if_neg hn, Slot.put_within, find?, ih]
      by_cases h : k = kind ∧ i = index
      · obtain ⟨rfl, rfl⟩ := h
        simp [hn]
      · rw [if_neg h, if_neg h, find?]

end RouteNodes

namespace IndexNode

@[simp] theorem descend_empty (way : List (Fragment × Nat)) : empty.descend way = empty := by
  induction way with
  | nil => rfl
  | cons c way ih => exact ih

section

variable (file : IndexNode → Nat × IndexNode) (kind : Fragment)

theorem find?_atChild (index : Nat) (n : IndexNode) (k : Fragment) (i : Nat) :
    (n.atChild file kind index).2.below.find? k i =
      if k = kind ∧ i = index then some (file ((n.below.find? kind index).getD empty)).2
      else n.below.find? k i := by
  rw [← RouteNodes.content_slot kind index]
  exact RouteNodes.find?_put kind k index i _ n.below

theorem here_atChildren (indices : List Nat) (n : IndexNode) :
    (n.atChildren file kind indices).2.here = n.here := by
  induction indices generalizing n with
  | nil => rfl
  | cons index indices ih => exact ih (n.atChild file kind index).2

/-- Filing at several children changes each of them, and no other child. -/
theorem find?_atChildren {indices : List Nat} (hnd : indices.Nodup) (n : IndexNode) (k : Fragment)
    (i : Nat) :
    (n.atChildren file kind indices).2.below.find? k i =
      if k = kind ∧ i ∈ indices then some (file ((n.below.find? kind i).getD empty)).2
      else n.below.find? k i := by
  induction indices generalizing n with
  | nil => simp [atChildren]
  | cons index indices ih =>
    obtain ⟨hnot, hnd⟩ := List.nodup_cons.mp hnd
    have hrest := ih hnd (n.atChild file kind index).2
    rw [find?_atChild, find?_atChild] at hrest
    refine hrest.trans ?_
    -- An index comes up once, so its child is changed now or later, not twice.
    by_cases hi : i = index
    · subst hi
      simp [hnot]
    · simp [hi]

end

/-- **Filing adds the action at the end of the ways that steps lead along**, and changes nothing
    at the end of others. -/
theorem here_descend_enter (id : ActionId) (steps : List PathStep) (way : List (Fragment × Nat))
    (n : IndexNode) :
    ((enter id steps n).2.descend way).here =
      (PathStep.routeAlong steps way).elim (n.descend way).here
        fun r => (n.descend way).here.insert id r.words r.test := by
  induction steps generalizing way n with
  | nil => cases way <;> rfl
  | cons step steps ih =>
    cases step with
    | test u text => cases way <;> rfl
    | words range => cases way <;> rfl
    | down kind range =>
      rw [enter]
      cases way with
      | nil => exact here_atChildren _ kind range.indices n
      | cons c way =>
        obtain ⟨k, i⟩ := c
        have hnd : range.indices.Nodup := List.nodup_range'
        rw [descend, find?_atChildren _ kind hnd, descend, PathStep.routeAlong]
        simp only [ChildRange.mem_indices]
        by_cases h : k = kind ∧ range.contains i
        · obtain ⟨rfl, hi⟩ := h
          rw [if_pos ⟨rfl, hi⟩, if_pos ⟨rfl, hi⟩, Option.getD_some, ih]
          cases PathStep.routeAlong steps way <;> rfl
        · rw [if_neg h, if_neg h]
          rfl

/-- There are as many filings as routes. -/
theorem fst_enter (id : ActionId) (steps : List PathStep) (n : IndexNode) :
    (enter id steps n).1 = (PathStep.filings steps).length := by
  have hchildren : ∀ (file : IndexNode → Nat × IndexNode) (kind : Fragment) (count : Nat),
      (∀ n, (file n).1 = count) → ∀ (indices : List Nat) (n : IndexNode),
        (n.atChildren file kind indices).1 = indices.length * count := by
    intro file kind count hfile indices
    induction indices with
    | nil => exact fun n => (Nat.zero_mul count).symm
    | cons index indices ih =>
      intro n
      have hcons : (n.atChildren file kind (index :: indices)).1 = (n.atChild file kind index).1 +
          ((n.atChild file kind index).2.atChildren file kind indices).1 := rfl
      have hfirst : (n.atChild file kind index).1 = count := hfile _
      rw [hcons, hfirst, ih, List.length_cons, Nat.succ_mul, Nat.add_comm]
  induction steps generalizing n with
  | nil => rfl
  | cons step steps ih =>
    cases step with
    | test u text => rfl
    | words range => rfl
    | down kind range =>
      rw [enter, hchildren _ kind _ ih, PathStep.filings]
      simp only [List.length_flatMap, List.length_map, List.map_const', List.sum_replicate_nat]

end IndexNode

namespace RouteIndex

/-- The actions that are filed under a route. -/
def ids (index : RouteIndex) (route : Route) : List ActionId :=
  (index.hereAt route.children).ids route.words route.test

theorem hereAt_empty (way : List (Fragment × Nat)) : empty.hereAt way = .empty := by
  have h : empty.top = .empty := rfl
  rw [hereAt, h, IndexNode.descend_empty]
  rfl

@[simp] theorem ids_empty (route : Route) : empty.ids route = [] := by
  rw [ids, hereAt_empty]
  exact PlaceNode.ids_empty _ _

theorem hereAt_enter (index : RouteIndex) (id : ActionId) (path : Path)
    (way : List (Fragment × Nat)) :
    (index.enter id path).2.hereAt way =
      (path.routeAlong way).elim (index.hereAt way)
        fun r => (index.hereAt way).insert id r.words r.test := by
  cases path with
  | fromRoot steps => exact IndexNode.here_descend_enter id steps way index.top
  | literal text => rfl
  | fromVariable name steps => rfl

/-- **Filing adds the action once to each route of its path** and leaves all others as they
    are. -/
theorem ids_enter (index : RouteIndex) (id : ActionId) (path : Path) (r : Route) :
    (index.enter id path).2.ids r = index.ids r ++ if r ∈ path.filings then [id] else [] := by
  rw [ids, hereAt_enter, ids]
  cases hq : path.routeAlong r.children with
  | none =>
    have hnot : r ∉ path.filings := fun hr => by simp [Path.mem_filings.mp hr] at hq
    rw [if_neg hnot, List.append_nil]
    rfl
  | some q =>
    -- Two routes that lead to one place are the same if they have the same words and test.
    have hmem : r ∈ path.filings ↔ r.words = q.words ∧ r.test = q.test := by
      rw [Path.mem_filings, hq, Option.some.injEq]
      have hchildren := Path.children_routeAlong hq
      obtain ⟨children, words, test⟩ := r
      obtain ⟨children', words', test'⟩ := q
      simp only [Route.mk.injEq, eq_comm] at hchildren ⊢
      simp [hchildren]
    rw [Option.elim_some, PlaceNode.ids_insert]
    simp only [hmem]

/-- The answer to a filing is the number of routes of its path. -/
theorem fst_enter (index : RouteIndex) (id : ActionId) (path : Path) :
    (index.enter id path).1 = path.filings.length := by
  cases path with
  | fromRoot steps => exact IndexNode.fst_enter id steps index.top
  | literal text => rfl
  | fromVariable name steps => rfl

/-- **The count of filings grows by the answer.** -/
theorem registrations_enter (index : RouteIndex) (id : ActionId) (path : Path) :
    (index.enter id path).2.registrations = index.registrations + (index.enter id path).1 := by
  cases path <;> rfl

/-- Whether all that is filed in an index is in order. -/
def WellFormed (index : RouteIndex) : Prop := ∀ way, (index.hereAt way).WellFormed

theorem wellFormed_empty : empty.WellFormed := by
  intro way
  rw [hereAt_empty]
  exact PlaceNode.wellFormed_empty

theorem WellFormed.enter {index : RouteIndex} (h : index.WellFormed) (id : ActionId)
    (path : Path) : (index.enter id path).2.WellFormed := by
  intro way
  rw [hereAt_enter]
  cases path.routeAlong way with
  | none => exact h way
  | some r => exact (h way).insert id r.words r.test

end RouteIndex

end AgentRules
