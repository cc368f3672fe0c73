/-
  Rule sets.

  A rule set that builds consists of rules that build by themselves, each moved to its
  position and to its numbers (`rules_of_build`). The numbers, the owners and the index fit
  together (`WellFormed`), so a number finds its action and an action its number.

  After a walk each action has the first candidate of its own path (`candidate?_collect`),
  the gate asks whether all actions that must have a candidate have one
  (`passesGate_iff`), and evaluating a rule leaves all other rules as they are. So it does
  not matter when a rule is evaluated (`classify_eq`), nor in which set (`finding_moved`).
-/
import AgentRules.Proofs.Classification
import AgentRules.Proofs.Rule
import AgentRules.Proofs.Walk
import Mathlib.Data.List.Forall2

namespace AgentRules

/-! ### Numbers of a rule -/

namespace Rule

theorem length_actions_pos (r : Rule) : 0 < r.actions.length := by
  simp only [actions, List.length_append, List.length_singleton]
  omega

theorem firstId_eq {r : Rule} {n : ActionId}
    (h : r.actions.map (·.id) = List.range' n r.actions.length) : r.firstId = n := by
  have hhead : (r.actions.map (·.id)).head? = some n := by
    rw [h, List.head?_range', if_neg (Nat.pos_iff_ne_zero.mp r.length_actions_pos)]
  rw [firstId, ← List.head?_map, hhead]
  rfl

/-- The parts in which the actions of a rule are kept are looked up like one list. -/
theorem getElem?_actions (r : Rule) (offset : Nat) :
    r.actions[offset]? =
      if offset < r.bindings.length then r.bindings[offset]?.map (·.2)
      else if offset < r.bindings.length + r.requirements.length then
        r.requirements[offset - r.bindings.length]?
      else if offset = r.bindings.length + r.requirements.length then some r.extraction
      else none := by
  rw [actions, List.append_assoc]
  have hlength : (r.bindings.map (·.2)).length = r.bindings.length := List.length_map _
  -- The parts are passed one after the other until the offset falls into one.
  by_cases hbindings : offset < r.bindings.length
  · have hin : offset < (r.bindings.map (·.2)).length := hlength ▸ hbindings
    rw [if_pos hbindings, List.getElem?_append_left hin, List.getElem?_map]
  have hpast : (r.bindings.map (·.2)).length ≤ offset := hlength ▸ Nat.not_lt.mp hbindings
  rw [if_neg hbindings, List.getElem?_append_right hpast, hlength]
  by_cases hrequirements : offset < r.bindings.length + r.requirements.length
  · have hin : offset - r.bindings.length < r.requirements.length := by omega
    rw [if_pos hrequirements, List.getElem?_append_left hin]
  have hpast : r.requirements.length ≤ offset - r.bindings.length := by omega
  rw [if_neg hrequirements, List.getElem?_append_right hpast]
  by_cases hlast : offset = r.bindings.length + r.requirements.length
  · have hzero : offset - r.bindings.length - r.requirements.length = 0 := by omega
    rw [if_pos hlast, hzero]
    rfl
  · have hbeyond : [r.extraction].length ≤
        offset - r.bindings.length - r.requirements.length := by
      rw [List.length_singleton]
      omega
    rw [if_neg hlast, List.getElem?_eq_none hbeyond]

theorem action?_eq (r : Rule) (id : ActionId) :
    r.action? id = if id < r.firstId then none else r.actions[id - r.firstId]? := by
  rw [getElem?_actions]
  rfl

/-- In a rule with consecutive numbers a number finds the action that has it. -/
theorem action?_eq_some {r : Rule}
    (h : r.actions.map (·.id) = List.range' r.firstId r.actions.length) {id : ActionId}
    {a : Action} : r.action? id = some a ↔ a ∈ r.actions ∧ a.id = id := by
  have hget := fun k => getElem?_eq_some_iff_of_map_eq_range' h (k := k) (a := a)
  rw [action?_eq]
  by_cases hid : id < r.firstId
  · -- All actions have numbers from the first one on.
    have hnot : ¬(a ∈ r.actions ∧ a.id = id) := by
      rintro ⟨ha, rfl⟩
      obtain ⟨k, hk⟩ := List.getElem?_of_mem ha
      obtain ⟨-, hak⟩ := (hget k).mp hk
      rw [hak] at hid
      exact absurd hid (Nat.not_lt.mpr (Nat.le_add_right _ _))
    rw [if_pos hid]
    exact iff_of_false (by simp) hnot
  · rw [if_neg hid, hget, Nat.add_sub_of_le (Nat.not_lt.mp hid)]

end Rule

namespace RuleSet

/-! ### Sets in order -/

/-- All actions of a set, in the order of their numbers. -/
def actions (rs : RuleSet) : List Action := rs.rules.flatMap Rule.actions

/-- What holds of a set that is built: each rule knows its position and so do its actions; the
    actions are numbered consecutively, in each rule and over the set; their owners are
    their rules; and they are filed in the index, as they know themselves. -/
structure WellFormed (rs : RuleSet) : Prop where
  position : ∀ (i : Nat) (r : Rule), rs.rules[i]? = some r →
    r.index = i ∧ ∀ a ∈ r.actions, a.rule = i
  numbers : ∀ r ∈ rs.rules, r.actions.map (·.id) = List.range' r.firstId r.actions.length
  ids : rs.actions.map (·.id) = List.range rs.owners.size
  owners : rs.owners.toList = rs.actions.map (·.rule)
  filed : rs.index = .registerAll (rs.actions.map fun a => (a.id, a.path))
  informs : ∀ a ∈ rs.actions, a.informs = a.path.filings.length

theorem wellFormed_empty : empty.WellFormed :=
  ⟨by simp [empty], by simp [empty], rfl, rfl, rfl, by simp [empty, actions]⟩

namespace WellFormed

variable {rs : RuleSet}

theorem nodup_ids (h : rs.WellFormed) : (rs.actions.map (·.id)).Nodup :=
  h.ids ▸ List.nodup_range

theorem id_lt (h : rs.WellFormed) {a : Action} (ha : a ∈ rs.actions) : a.id < rs.owners.size := by
  have hmem := List.mem_map_of_mem (f := (·.id)) ha
  rwa [h.ids, List.mem_range] at hmem

theorem rule_eq_index (h : rs.WellFormed) {r : Rule} (hr : r ∈ rs.rules) {a : Action}
    (ha : a ∈ r.actions) : a.rule = r.index := by
  obtain ⟨i, hi⟩ := List.getElem?_of_mem hr
  obtain ⟨hindex, hrule⟩ := h.position i r hi
  rw [hrule a ha, hindex]

theorem mem_actions {r : Rule} (hr : r ∈ rs.rules) : r.actions ⊆ rs.actions :=
  fun _ ha => List.mem_flatMap.mpr ⟨r, hr, ha⟩

/-- Different rules have actions with different numbers. -/
theorem eq_of_id_eq (h : rs.WellFormed) {q r : Rule} (hq : q ∈ rs.rules) (hr : r ∈ rs.rules)
    {a b : Action} (ha : a ∈ q.actions) (hb : b ∈ r.actions) (hid : a.id = b.id) : q = r := by
  have hsame : a = b :=
    List.inj_on_of_nodup_map h.nodup_ids (mem_actions hq ha) (mem_actions hr hb) hid
  have hindex : q.index = r.index := by
    rw [← h.rule_eq_index hq ha, ← h.rule_eq_index hr hb, hsame]
  obtain ⟨i, hi⟩ := List.getElem?_of_mem hq
  obtain ⟨j, hj⟩ := List.getElem?_of_mem hr
  rw [(h.position i q hi).1, (h.position j r hj).1] at hindex
  rw [hindex] at hi
  exact Option.some.inj (hi.symm.trans hj)

/-- **A number finds its action.** -/
theorem action?_eq_some (h : rs.WellFormed) {id : ActionId} {a : Action} :
    rs.action? id = some a ↔ a ∈ rs.actions ∧ a.id = id := by
  simp only [RuleSet.action?, Option.bind_eq_some_iff]
  constructor
  · rintro ⟨i, -, r, hr, ha⟩
    have hmem := List.mem_of_getElem? hr
    obtain ⟨ha, hid⟩ := (Rule.action?_eq_some (h.numbers r hmem)).mp ha
    exact ⟨mem_actions hmem ha, hid⟩
  · rintro ⟨ha, rfl⟩
    obtain ⟨r, hr, har⟩ := List.mem_flatMap.mp ha
    obtain ⟨i, hi⟩ := List.getElem?_of_mem hr
    obtain ⟨-, hrule⟩ := h.position i r hi
    refine ⟨i, ?_, r, hi, (Rule.action?_eq_some (h.numbers r hr)).mpr ⟨har, rfl⟩⟩
    -- The action stands in the list of all actions at its own number.
    obtain ⟨k, hk⟩ := List.getElem?_of_mem ha
    have hid : (rs.actions.map (·.id))[k]? = some a.id := by rw [List.getElem?_map, hk]; rfl
    have hklt := h.id_lt ha
    rw [h.ids] at hid
    obtain ⟨hlt, hid⟩ := List.getElem?_eq_some_iff.mp hid
    rw [List.getElem_range] at hid
    rw [← Array.getElem?_toList, h.owners, ← hid, List.getElem?_map, hk, Option.map_some,
      hrule a har]

theorem keyed (h : rs.WellFormed) : MatchState.Keyed rs.action? :=
  fun _ _ ha => (h.action?_eq_some.mp ha).2

end WellFormed

/-! ### Building -/

/-- What an action knows once it is filed is what the index answers. -/
theorem informs_registered (a : Action) (index : RouteIndex) :
    a.registered.informs = (index.enter a.id a.path).1 :=
  (index.fst_enter a.id a.path).symm

/-- A set with one more rule, which was built by itself. -/
def append (rs : RuleSet) (r : Rule) : RuleSet :=
  let moved := r.registered.moved rs.rules.length rs.owners.size
  ⟨rs.rules ++ [moved], moved.file rs.index,
    rs.owners ++ Array.replicate r.actions.length rs.rules.length⟩

/-- **Adding a rule is building it by itself and appending it.** -/
theorem add_eq (lookups : Lookups) (verbose : Bool) (rs : RuleSet) (d : RuleDefinition) :
    rs.add lookups verbose d =
      match Rule.compile ⟨lookups, 0, verbose⟩ 0 d with
      | .ok r => .ok (rs.append r)
      | .error cause => .error ⟨d.name, cause⟩ := by
  rw [add, Rule.build, Rule.compile_moved]
  cases hr : Rule.compile ⟨lookups, 0, verbose⟩ 0 d with
  | error cause => rfl
  | ok r =>
    have hcount : r.actions.length = d.actionCount := by
      simpa using congrArg List.length (Rule.built_of_compile hr).ids
    have hfile : ∀ (r : Rule) (index : RouteIndex), r.registered.file index = r.file index := by
      intro r index
      rw [Rule.file, Rule.actions_registered, List.foldl_map]
      rfl
    -- Moving a rule and registering it commute, and filing goes by numbers and paths only.
    simp only [Except.map, append, ← hcount, ← Rule.registered_moved, hfile]

/-- A rule that was built by itself, as it is when it is appended to a set. -/
def placed (rs : RuleSet) (r : Rule) : Rule :=
  r.registered.moved rs.rules.length rs.owners.size

section Appending

variable (rs : RuleSet) (r : Rule)

theorem rules_append : (rs.append r).rules = rs.rules ++ [rs.placed r] := rfl

theorem actions_append : (rs.append r).actions = rs.actions ++ (rs.placed r).actions := by
  simp [actions, rules_append]

theorem actions_placed :
    (rs.placed r).actions =
      r.actions.map fun a => a.registered.moved rs.rules.length rs.owners.size := by
  rw [placed, Rule.actions_moved, Rule.actions_registered, List.map_map]
  rfl

theorem length_actions_placed : (rs.placed r).actions.length = r.actions.length := by
  rw [actions_placed, List.length_map]

variable {rs r}

theorem rule_of_mem_placed {a : Action} (ha : a ∈ (rs.placed r).actions) :
    a.rule = rs.rules.length := by
  rw [actions_placed] at ha
  obtain ⟨b, -, rfl⟩ := List.mem_map.mp ha
  rfl

/-- The actions of a rule that is appended are numbered on. -/
theorem ids_placed {site : Rule.Site} {d : RuleDefinition} (hr : r.Built site 0 d) :
    (rs.placed r).actions.map (·.id) =
      List.range' rs.owners.size (rs.placed r).actions.length := by
  have hcount : d.actionCount = r.actions.length := by
    simpa using (congrArg List.length hr.ids).symm
  have hids : r.actions.map (·.id) = List.range' 0 r.actions.length := hcount ▸ hr.ids
  rw [length_actions_placed, actions_placed, List.map_map]
  calc r.actions.map (fun a => rs.owners.size + a.id)
      = (r.actions.map (·.id)).map (rs.owners.size + ·) := by rw [List.map_map]; rfl
    _ = List.range' rs.owners.size r.actions.length := by
        rw [hids, List.map_add_range', Nat.add_zero]

theorem position_append (h : rs.WellFormed) {i : Nat} {q : Rule}
    (hq : (rs.append r).rules[i]? = some q) : q.index = i ∧ ∀ a ∈ q.actions, a.rule = i := by
  rw [rules_append] at hq
  by_cases hi : i < rs.rules.length
  · rw [List.getElem?_append_left hi] at hq
    exact h.position i q hq
  · rw [List.getElem?_append_right (Nat.not_lt.mp hi)] at hq
    obtain ⟨hpos, rfl⟩ := List.getElem?_eq_some_iff.mp hq
    rw [List.length_singleton] at hpos
    obtain rfl : i = rs.rules.length := by omega
    simp only [Nat.sub_self, List.getElem_singleton]
    exact ⟨rfl, fun a ha => rule_of_mem_placed ha⟩

theorem owners_append (h : rs.WellFormed) :
    (rs.append r).owners.toList = (rs.append r).actions.map (·.rule) := by
  have howners : (rs.append r).owners.toList =
      rs.owners.toList ++ List.replicate (rs.placed r).actions.length rs.rules.length := by
    rw [length_actions_placed, RuleSet.append, Array.toList_append, Array.toList_replicate]
  rw [actions_append, List.map_append, ← h.owners, howners,
    List.eq_replicate_iff.mpr ⟨List.length_map _, fun n hn => ?_⟩]
  obtain ⟨a, ha, rfl⟩ := List.mem_map.mp hn
  exact rule_of_mem_placed ha

theorem filed_append (h : rs.WellFormed) :
    (rs.append r).index = .registerAll ((rs.append r).actions.map fun a => (a.id, a.path)) := by
  have hindex : (rs.append r).index = (rs.placed r).actions.foldl Action.file rs.index := rfl
  rw [actions_append, List.map_append, RouteIndex.registerAll, List.foldl_append, hindex,
    h.filed, List.foldl_map]
  rfl

end Appending

/-- **A set in order stays in order** when a rule that was built is appended. -/
theorem WellFormed.append {rs : RuleSet} (h : rs.WellFormed) {site : Rule.Site}
    {d : RuleDefinition} {r : Rule} (hr : r.Built site 0 d) : (rs.append r).WellFormed := by
  have hids : (rs.placed r).actions.map (·.id) =
      List.range' rs.owners.size (rs.placed r).actions.length := ids_placed hr
  refine ⟨fun i q hq => position_append h hq, fun q hq => ?_, ?_, owners_append h, filed_append h,
    ?_⟩
  · rw [rules_append] at hq
    rcases List.mem_append.mp hq with hq | hq
    · exact h.numbers q hq
    · obtain rfl := List.mem_singleton.mp hq
      rw [Rule.firstId_eq hids, hids]
  · have hsize : (rs.append r).owners.size = rs.owners.size + (rs.placed r).actions.length := by
      rw [length_actions_placed, RuleSet.append, Array.size_append, Array.size_replicate]
    rw [actions_append, List.map_append, h.ids, hids, hsize, List.range_eq_range',
      List.range_eq_range']
    simpa using
      List.range'_append_1 (s := 0) (m := rs.owners.size) (n := (rs.placed r).actions.length)
  · rw [actions_append]
    refine List.forall_mem_append.mpr ⟨h.informs, fun a ha => ?_⟩
    rw [actions_placed] at ha
    obtain ⟨b, -, rfl⟩ := List.mem_map.mp ha
    rfl

/-- A rule that was built by itself and stands in a set. -/
def Stands (lookups : Lookups) (verbose : Bool) (d : RuleDefinition) (r : Rule) : Prop :=
  ∃ alone position offset, Rule.compile ⟨lookups, 0, verbose⟩ 0 d = .ok alone ∧
    r = alone.registered.moved position offset

/-- **The rules of a set that builds are those that the definitions build by themselves**, each
    at its place. -/
theorem rules_of_build {lookups : Lookups} {verbose : Bool} {ds : List RuleDefinition}
    {rs : RuleSet} (h : build lookups verbose ds = .ok rs) :
    rs.WellFormed ∧ List.Forall₂ (Stands lookups verbose) ds rs.rules := by
  have hadd : ∀ (ds : List RuleDefinition) (start rs : RuleSet), start.WellFormed →
      start.addAll lookups verbose ds = .ok rs →
      rs.WellFormed ∧ ∃ rules, rs.rules = start.rules ++ rules ∧
        List.Forall₂ (Stands lookups verbose) ds rules := by
    intro ds
    induction ds with
    | nil =>
      intro start rs hstart h
      obtain rfl := Except.ok.inj h
      exact ⟨hstart, [], (List.append_nil _).symm, .nil⟩
    | cons d ds ih =>
      intro start rs hstart h
      rw [addAll, add_eq] at h
      cases hr : Rule.compile ⟨lookups, 0, verbose⟩ 0 d with
      | error cause => exact absurd h (by simp [hr])
      | ok r =>
        rw [hr] at h
        obtain ⟨hwf, rules, hrules, hall⟩ :=
          ih _ rs (hstart.append (Rule.built_of_compile hr)) h
        refine ⟨hwf, start.placed r :: rules, ?_,
          .cons ⟨r, start.rules.length, start.owners.size, hr, rfl⟩ hall⟩
        rw [hrules, rules_append, List.append_assoc]
        rfl
  obtain ⟨hwf, rules, hrules, hall⟩ := hadd ds empty rs wellFormed_empty h
  rw [show empty.rules ++ rules = rules from rfl] at hrules
  exact ⟨hwf, hrules ▸ hall⟩

theorem stands_of_mem_rules {lookups : Lookups} {verbose : Bool} {ds : List RuleDefinition}
    {rs : RuleSet} (h : build lookups verbose ds = .ok rs) {r : Rule} (hr : r ∈ rs.rules) :
    ∃ d, Stands lookups verbose d r := by
  obtain ⟨-, hall⟩ := rules_of_build h
  obtain ⟨d, -, hstands⟩ := exists_of_mem_right hall hr
  exact ⟨d, hstands⟩

theorem map_name_rules {lookups : Lookups} {verbose : Bool} {ds : List RuleDefinition}
    {rs : RuleSet} (h : build lookups verbose ds = .ok rs) :
    rs.rules.map (·.name) = ds.map (·.name) := by
  obtain ⟨-, hall⟩ := rules_of_build h
  rw [eq_comm, ← List.forall₂_eq_eq_eq, List.forall₂_map_left_iff, List.forall₂_map_right_iff]
  refine hall.imp fun d r hstands => ?_
  obtain ⟨alone, position, offset, hcompile, rfl⟩ := hstands
  exact (Rule.built_of_compile hcompile).name.symm

end RuleSet

/-! ### After a walk -/

/-- The candidate that a walk over a tree has for an action, whatever else is filed. -/
def Action.first (a : Action) (root : Place) : Option Candidate :=
  if 0 < a.capacity then root.preorder.findSome? (a.path.candidateAt root) else none

namespace RuleSet

variable {rs : RuleSet}

/-- Whether a state is large enough for a set, and its counts are right. -/
structure Fits (rs : RuleSet) (st : MatchState) : Prop where
  slots : rs.owners.size ≤ st.slots.size
  received : rs.rules.length ≤ st.received.size
  tallied : st.Tallied rs.actions

theorem Fits.informed (h : rs.WellFormed) {st st' : MatchState} (hst : rs.Fits st)
    {as : List Action} (hsub : as ⊆ rs.actions) (hinf : MatchState.Informed as st st') :
    rs.Fits st' :=
  ⟨hinf.size_slots ▸ hst.slots, hinf.size_received ▸ hst.received,
    hinf.tallied h.nodup_ids hsub hst.tallied⟩

/-- A state that is large enough has slots for the actions of all rules. -/
theorem Fits.lt (h : rs.WellFormed) {st : MatchState} (hst : rs.Fits st) {r : Rule}
    (hr : r ∈ rs.rules) {a : Action} (ha : a ∈ r.actions) : a.id < st.slots.size :=
  Nat.lt_of_lt_of_le (h.id_lt (WellFormed.mem_actions hr ha)) hst.slots

/-- **After a walk each action has the first candidate of its own path.** -/
theorem candidate?_collect (h : rs.WellFormed) (root : Place) {st : MatchState}
    (hst : rs.owners.size ≤ st.slots.size) {a : Action} (ha : a ∈ rs.actions) :
    (rs.collect root st).candidate? a.id = a.first root := by
  have hlookup : rs.action? a.id = some a := h.action?_eq_some.mpr ⟨ha, rfl⟩
  have hsize : a.id < st.reset.slots.size := by
    rw [MatchState.reset, MatchState.new, Array.size_replicate]
    exact Nat.lt_of_lt_of_le (h.id_lt ha) hst
  rw [collect, h.filed]
  exact MatchState.candidate?_walk h.keyed h.nodup_ids ha hlookup root hsize
    (MatchState.candidate?_new _ _ _)

/-- A walk informs actions of the set, from an empty state on. -/
theorem informed_collect (h : rs.WellFormed) (root : Place) (st : MatchState) :
    MatchState.Informed rs.actions st.reset (rs.collect root st) :=
  MatchState.informed_receiveAll (fun _ _ ha => (h.action?_eq_some.mp ha).1) _ _

theorem fits_collect (h : rs.WellFormed) (root : Place) {st : MatchState}
    (hslots : rs.owners.size ≤ st.slots.size) (hreceived : rs.rules.length ≤ st.received.size) :
    rs.Fits (rs.collect root st) := by
  have hreset : rs.Fits st.reset := by
    refine ⟨?_, ?_, MatchState.tallied_new _ _ _⟩
    · rwa [MatchState.reset, MatchState.new, Array.size_replicate]
    · rwa [MatchState.reset, MatchState.new, Array.size_replicate]
  exact hreset.informed h (List.Subset.refl _) (informed_collect h root st)

theorem slots_newState (rs : RuleSet) : rs.owners.size ≤ rs.newState.slots.size :=
  Nat.le_of_eq Array.size_replicate.symm

theorem received_newState (rs : RuleSet) : rs.rules.length ≤ rs.newState.received.size :=
  Nat.le_of_eq Array.size_replicate.symm

theorem fits_newState (h : rs.WellFormed) (root : Place) :
    rs.Fits (rs.collect root rs.newState) :=
  fits_collect h root (slots_newState rs) (received_newState rs)

/-! ### The gate -/

/-- Of all actions those of a rule count for it. -/
theorem supplied_actions (h : rs.WellFormed) {r : Rule} (hr : r ∈ rs.rules) (st : MatchState) :
    st.supplied rs.actions r.index =
      r.actions.countP fun a => a.mustHave && (st.candidate? a.id).isSome := by
  obtain ⟨i, hi⟩ := List.getElem?_of_mem hr
  obtain ⟨hindex, hrule⟩ := h.position i r hi
  obtain ⟨hlt, rfl⟩ := List.getElem?_eq_some_iff.mp hi
  -- The actions of all other rules have other owners.
  have hother : ∀ rules : List Rule,
      (∀ q ∈ rules, ∃ j, j ≠ i ∧ rs.rules[j]? = some q) →
      st.supplied (rules.flatMap Rule.actions) rs.rules[i].index = 0 := by
    intro rules hrules
    rw [MatchState.supplied, List.countP_eq_zero]
    intro a ha
    obtain ⟨q, hq, ha⟩ := List.mem_flatMap.mp ha
    obtain ⟨j, hj, hqj⟩ := hrules q hq
    simp [(h.position j q hqj).2 a ha, hindex, hj]
  have hbefore := hother (rs.rules.take i) fun q hq => by
    obtain ⟨j, hj, hqj⟩ := List.mem_take_iff_getElem.mp hq
    exact ⟨j, by omega, hqj ▸ List.getElem?_eq_getElem _⟩
  have hafter := hother (rs.rules.drop (i + 1)) fun q hq => by
    obtain ⟨j, hj, hqj⟩ := List.mem_drop_iff_getElem.mp hq
    exact ⟨i + 1 + j, by omega, hqj ▸ List.getElem?_eq_getElem _⟩
  have hsplit : rs.actions = (rs.rules.take i).flatMap Rule.actions ++
      (rs.rules[i].actions ++ (rs.rules.drop (i + 1)).flatMap Rule.actions) := by
    rw [← List.flatMap_cons, ← List.drop_eq_getElem_cons hlt, ← List.flatMap_append,
      List.take_append_drop]
    rfl
  rw [MatchState.supplied] at hbefore hafter
  rw [MatchState.supplied, hsplit, List.countP_append, List.countP_append, hbefore, hafter,
    Nat.zero_add, Nat.add_zero]
  refine List.countP_congr fun a ha => ?_
  simp [hrule a ha, hindex]

/-- **The gate passes a rule when all its actions that must have a candidate have one.** -/
theorem passesGate_iff (h : rs.WellFormed) {st : MatchState} (hst : rs.Fits st) {r : Rule}
    (hr : r ∈ rs.rules) :
    passesGate st r ↔ ∀ a ∈ r.actions, a.mustHave → (st.candidate? a.id).isSome := by
  obtain ⟨i, hi⟩ := List.getElem?_of_mem hr
  have hindex : r.index < st.received.size := by
    rw [(h.position i r hi).1]
    exact Nat.lt_of_lt_of_le (List.getElem?_eq_some_iff.mp hi).1 hst.received
  rw [passesGate, decide_eq_true_iff, hst.tallied r.index hindex, supplied_actions h hr,
    Rule.requiredInputs]
  exact countP_le_countP_and_iff _ _ _

/-! ### Classification -/

/-- What a rule finds in a state, unless a gate skips it. -/
def finding (gate : MatchState → Rule → Bool) (st : MatchState) (r : Rule) : Option Emission :=
  if gate st r then (r.evaluate st).1 else none

/-- Evaluates one rule, unless a gate skips it, and offers what it finds. -/
def classifyRuleIf (gate : MatchState → Rule → Bool) (progress : Classification × MatchState)
    (r : Rule) : Classification × MatchState :=
  let (fields, st) := progress
  if gate st r then
    match r.evaluate st with
    | (some e, st) => (fields.offer e, st)
    | (none, st) => (fields, st)
  else (fields, st)

theorem classifyRuleIf_eq (gate : MatchState → Rule → Bool) (fields : Classification)
    (st : MatchState) (r : Rule) :
    classifyRuleIf gate (fields, st) r =
      ((finding gate st r).elim fields fields.offer,
        if gate st r then (r.evaluate st).2 else st) := by
  rw [classifyRuleIf, finding]
  split
  · rename_i hgate
    rcases r.evaluate st with ⟨_ | e, st'⟩ <;> rfl
  · rfl

/-- Evaluating some rules informs actions of these rules only. -/
theorem informed_foldl_classifyRuleIf (gate : MatchState → Rule → Bool) (rules : List Rule)
    (fields : Classification) (st : MatchState) :
    MatchState.Informed (rules.flatMap Rule.actions) st
      (rules.foldl (classifyRuleIf gate) (fields, st)).2 := by
  refine List.foldlRecOn (motive := fun progress : Classification × MatchState =>
    MatchState.Informed (rules.flatMap Rule.actions) st progress.2) rules _ .refl ?_
  rintro ⟨fields, now⟩ h r hr
  rw [classifyRuleIf_eq]
  dsimp only
  split
  · refine h.trans ((r.informed_evaluate now).mono fun a ha => ?_)
    exact List.mem_flatMap.mpr ⟨r, hr, List.mem_of_mem_filter ha⟩
  · exact h

/-- Before a rule is evaluated its actions have the candidates they had after the walk. -/
theorem candidate?_of_informed_before (h : rs.WellFormed) {before after : List Rule} {r : Rule}
    (hrules : rs.rules = before ++ r :: after) {st now : MatchState}
    (hnow : MatchState.Informed (before.flatMap Rule.actions) st now) {a : Action}
    (ha : a ∈ r.actions) : now.candidate? a.id = st.candidate? a.id := by
  -- Different rules have actions with different numbers.
  refine hnow.candidate?_of_ne fun b hb => ?_
  have hnd := h.nodup_ids
  rw [actions, hrules, List.flatMap_append, List.flatMap_cons, List.map_append,
    List.nodup_append] at hnd
  refine hnd.2.2 b.id (List.mem_map_of_mem hb) a.id ?_
  exact List.mem_map_of_mem (List.mem_append_left _ ha)

theorem Fits.informed_before (h : rs.WellFormed) {before after : List Rule}
    (hrules : rs.rules = before ++ after) {st now : MatchState} (hst : rs.Fits st)
    (hnow : MatchState.Informed (before.flatMap Rule.actions) st now) : rs.Fits now := by
  refine hst.informed h ?_ hnow
  rw [actions, hrules, List.flatMap_append]
  exact List.subset_append_left _ _

/-- **A rule finds the same in every set in which it stands**, in states that have the same
    candidates for its actions. -/
theorem finding_moved {rs' : RuleSet} (h : rs.WellFormed) (h' : rs'.WellFormed)
    {st st' : MatchState} (hst : rs.Fits st) (hst' : rs'.Fits st') {r : Rule}
    {position offset : Nat} (hr : r ∈ rs.rules) (hr' : r.moved position offset ∈ rs'.rules)
    (hsame : ∀ a ∈ r.actions, st'.candidate? (offset + a.id) = st.candidate? a.id) :
    finding passesGate st' (r.moved position offset) = finding passesGate st r := by
  have haligned : MatchState.Aligned r.actions offset st st' := by
    intro a ha
    have hmem : a.moved position offset ∈ (r.moved position offset).actions := by
      rw [Rule.actions_moved]
      exact List.mem_map_of_mem ha
    have hlt : offset + a.id < st'.slots.size := hst'.lt h' hr' hmem
    rw [MatchState.getElem?_slots hlt, MatchState.getElem?_slots (hst.lt h hr ha), hsame a ha]
  have hgate : passesGate st' (r.moved position offset) = passesGate st r := by
    rw [Bool.eq_iff_iff, passesGate_iff h hst hr, passesGate_iff h' hst' hr', Rule.actions_moved,
      List.forall_mem_map]
    refine forall₂_congr fun a ha => ?_
    rw [show (a.moved position offset).id = offset + a.id from rfl, hsame a ha]
    rfl
  rw [finding, finding, hgate, Rule.evaluate_moved position haligned]

/-- **What a rule finds depends on the slots of its own actions only**, and these may be
    missing. -/
theorem evaluate_congr (h : rs.WellFormed) {r : Rule} (hr : r ∈ rs.rules) {st st' : MatchState}
    (hsame : ∀ a ∈ r.actions, st'.slots[a.id]? = st.slots[a.id]?) :
    (r.evaluate st').1 = (r.evaluate st).1 := by
  have haligned : MatchState.Aligned r.actions 0 st st' := by
    intro a ha
    rw [Nat.zero_add, hsame a ha]
  have hself : r.moved r.index 0 = r := Rule.moved_self fun a ha => h.rule_eq_index hr ha
  have hevaluate := Rule.evaluate_moved r.index haligned
  rwa [hself] at hevaluate

/-- Whether a gate goes by the candidates of the actions of a rule only. -/
def Steady (rs : RuleSet) (gate : MatchState → Rule → Bool) : Prop :=
  ∀ st st', rs.Fits st → rs.Fits st' → ∀ r ∈ rs.rules,
    (∀ a ∈ r.actions, st'.candidate? a.id = st.candidate? a.id) → gate st' r = gate st r

theorem steady_passesGate (h : rs.WellFormed) : rs.Steady passesGate := by
  intro st st' hst hst' r hr hsame
  rw [Bool.eq_iff_iff, passesGate_iff h hst hr, passesGate_iff h hst' hr]
  exact forall₂_congr fun a ha => by rw [hsame a ha]

theorem finding_eq {gate : MatchState → Rule → Bool} (h : rs.WellFormed) (hgate : rs.Steady gate)
    {st st' : MatchState} (hst : rs.Fits st) (hst' : rs.Fits st') {r : Rule} (hr : r ∈ rs.rules)
    (hsame : ∀ a ∈ r.actions, st'.candidate? a.id = st.candidate? a.id) :
    finding gate st' r = finding gate st r := by
  have hevaluate : (r.evaluate st').1 = (r.evaluate st).1 := by
    refine evaluate_congr h hr fun a ha => ?_
    rw [MatchState.getElem?_slots (hst'.lt h hr ha), MatchState.getElem?_slots (hst.lt h hr ha),
      hsame a ha]
  rw [finding, finding, hgate st st' hst hst' r hr hsame, hevaluate]

/-- **It does not matter when a rule is evaluated**: what the rules find is what each of them
    finds in the state after the walk. -/
theorem foldl_classifyRuleIf {gate : MatchState → Rule → Bool} (h : rs.WellFormed)
    (hgate : rs.Steady gate) {st : MatchState} (hst : rs.Fits st) {before after : List Rule}
    (hrules : rs.rules = before ++ after) {fields : Classification} {now : MatchState}
    (hnow : MatchState.Informed (before.flatMap Rule.actions) st now) :
    (after.foldl (classifyRuleIf gate) (fields, now)).1 =
      (after.filterMap (finding gate st)).foldl .offer fields := by
  induction after generalizing before fields now with
  | nil => rfl
  | cons r after ih =>
    have hr : r ∈ rs.rules := hrules ▸ List.mem_append_right _ List.mem_cons_self
    -- The rules before have informed their own actions only.
    have hfinding : finding gate now r = finding gate st r :=
      finding_eq h hgate hst (hst.informed_before h hrules hnow) hr fun _ ha =>
        candidate?_of_informed_before h hrules hnow ha
    have hstep := informed_foldl_classifyRuleIf gate [r] fields now
    rw [List.foldl_cons, List.foldl_nil, classifyRuleIf_eq] at hstep
    have hnext : MatchState.Informed ((before ++ [r]).flatMap Rule.actions) st
        (if gate now r then (r.evaluate now).2 else now) := by
      rw [List.flatMap_append]
      exact (hnow.mono (List.subset_append_left _ _)).trans
        (hstep.mono (List.subset_append_right _ _))
    rw [List.foldl_cons, classifyRuleIf_eq, ih (by simp [hrules]) hnext, hfinding,
      List.filterMap_cons]
    cases finding gate st r <;> rfl

/-- **Classifying is offering what each rule finds after the walk**, in any state that is large
    enough. -/
theorem classifyWith_eq (h : rs.WellFormed) (root : Place) {st : MatchState}
    (hslots : rs.owners.size ≤ st.slots.size) (hreceived : rs.rules.length ≤ st.received.size) :
    (rs.classifyWith root st).1 =
      (rs.rules.filterMap (finding passesGate (rs.collect root st))).foldl .offer .empty :=
  foldl_classifyRuleIf h (steady_passesGate h) (fits_collect h root hslots hreceived)
    (List.nil_append _).symm .refl

theorem classify_eq (h : rs.WellFormed) (root : Place) :
    rs.classify root =
      (rs.rules.filterMap (finding passesGate (rs.collect root rs.newState))).foldl
        .offer .empty :=
  classifyWith_eq h root (slots_newState rs) (received_newState rs)

end RuleSet

end AgentRules
