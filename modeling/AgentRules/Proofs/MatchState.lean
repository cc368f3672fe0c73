/-
  What a match state knows after a walk.

  A state keeps for each action the first candidate it is informed of (`candidate?_inform`).
  After the deliveries of a walk the candidate of an action is therefore the first delivery
  to it, and deliveries to other actions do not matter (`candidate?_receiveAll`). That is the
  first candidate of its own path (`candidate?_walk`).

  The counts of a state follow from its candidates: the count of a rule is the number of
  those of its actions that must have a candidate and have one (`Tallied`). Informing an
  action keeps this, so it holds after every run in which actions are informed (`Informed`),
  be it by a walk or by the variables of a rule. In the same way the number of accepted
  candidates stays the number of actions that have one (`Informed.accepted_eq`).
-/
import AgentRules.Proofs.Lists
import AgentRules.Proofs.Walk
import AgentRules.RuleSet

namespace AgentRules

/-- What an action keeps of a delivery. -/
def Delivery.candidate (d : Delivery) : Candidate := ⟨d.origin, d.place, d.value⟩

namespace MatchState

/-! ### One step -/

theorem slots_inform (st : MatchState) (a : Action) (c : Candidate) :
    (st.inform a c).slots =
      if st.accepts a then st.slots.setIfInBounds a.id (some c) else st.slots := by
  rw [inform]
  split <;> rfl

theorem received_inform (st : MatchState) (a : Action) (c : Candidate) :
    (st.inform a c).received =
      if st.accepts a ∧ a.mustHave then st.received.modify a.rule (· + 1) else st.received := by
  rw [inform]
  by_cases ha : st.accepts a
  · simp [ha]
  · simp [ha]

@[simp] theorem size_slots_inform (st : MatchState) (a : Action) (c : Candidate) :
    (st.inform a c).slots.size = st.slots.size := by
  rw [slots_inform]
  split
  · exact Array.size_setIfInBounds
  · rfl

@[simp] theorem size_received_inform (st : MatchState) (a : Action) (c : Candidate) :
    (st.inform a c).received.size = st.received.size := by
  rw [received_inform]
  split
  · exact Array.size_modify
  · rfl

theorem accepted_inform (st : MatchState) (a : Action) (c : Candidate) :
    (st.inform a c).accepted = st.accepted + if st.accepts a then 1 else 0 := by
  rw [inform]
  split <;> rfl

theorem accepts_iff (st : MatchState) (a : Action) :
    st.accepts a ↔
      0 < a.capacity ∧ a.id < st.slots.size ∧ st.candidate? a.id = none := by
  simp [accepts, and_assoc]

@[simp] theorem candidate?_new (actions rules : Nat) (id : ActionId) :
    (new actions rules).candidate? id = none := by
  rw [candidate?, new, Array.getElem?_replicate]
  split <;> rfl

@[simp] theorem receivedBy_new (actions rules rule : Nat) :
    (new actions rules).receivedBy rule = 0 := by
  rw [receivedBy, new, Array.getElem?_replicate]
  split <;> rfl

/-! ### Candidates -/

theorem accepts_iff_getElem? (st : MatchState) (a : Action) :
    st.accepts a ↔ 0 < a.capacity ∧ st.slots[a.id]? = some none := by
  rw [accepts_iff, candidate?]
  refine and_congr_right fun _ => ⟨fun ⟨hlt, hnone⟩ => ?_, fun hslot => ?_⟩
  · rw [Array.getElem?_eq_getElem hlt] at hnone ⊢
    exact congrArg some hnone
  · exact ⟨(Array.getElem?_eq_some_iff.mp hslot).1, by rw [hslot]; rfl⟩

/-- **Informing an action changes its own slot only**, and only if it is empty. -/
theorem getElem?_slots_inform (st : MatchState) (a : Action) (c : Candidate) (id : ActionId) :
    (st.inform a c).slots[id]? =
      if id = a.id ∧ st.accepts a then some (some c) else st.slots[id]? := by
  rw [slots_inform]
  by_cases ha : st.accepts a
  · rw [if_pos ha]
    by_cases hid : id = a.id
    · subst hid
      rw [if_pos ⟨rfl, ha⟩,
        Array.getElem?_setIfInBounds_self_of_lt ((st.accepts_iff a).mp ha).2.1]
    · rw [if_neg fun h => hid h.1, Array.getElem?_setIfInBounds_ne (Ne.symm hid)]
  · rw [if_neg ha, if_neg fun h => ha h.2]

/-- The candidate of an action is what its slot holds. -/
theorem getElem?_slots {st : MatchState} {id : ActionId} (h : id < st.slots.size) :
    st.slots[id]? = some (st.candidate? id) := by
  rw [candidate?, Array.getElem?_eq_getElem h]
  rfl

theorem candidate?_congr {st st' : MatchState} {id id' : ActionId}
    (h : st'.slots[id']? = st.slots[id]?) : st'.candidate? id' = st.candidate? id :=
  congrArg Option.join h

theorem candidate?_of_slots_eq {st st' : MatchState} (h : st'.slots = st.slots) (id : ActionId) :
    st'.candidate? id = st.candidate? id := by
  rw [candidate?, candidate?, h]

/-- Informing an action changes its own candidate only, and only if it has none. -/
theorem candidate?_inform (st : MatchState) (a : Action) (c : Candidate) (id : ActionId) :
    (st.inform a c).candidate? id =
      if id = a.id ∧ st.accepts a then some c else st.candidate? id := by
  rw [candidate?, getElem?_slots_inform]
  split <;> rfl

theorem candidate?_inform_of_ne (st : MatchState) {a : Action} (c : Candidate) {id : ActionId}
    (h : a.id ≠ id) : (st.inform a c).candidate? id = st.candidate? id := by
  rw [candidate?_inform, if_neg fun hid => h hid.1.symm]

/-- Whether a lookup of actions finds under each number the action of this number. -/
def Keyed (action? : ActionId → Option Action) : Prop :=
  ∀ id a, action? id = some a → a.id = id

variable {action? : ActionId → Option Action}

/-- **An action has the first candidate that is delivered to it**, if it keeps candidates. -/
theorem candidate?_receiveAll (hkeyed : Keyed action?) {a : Action}
    (ha : action? a.id = some a) (ds : List Delivery) (st : MatchState)
    (hid : a.id < st.slots.size) :
    (ds.foldl (receive action?) st).candidate? a.id =
      (st.candidate? a.id).or (if 0 < a.capacity then
        (ds.find? (·.action = a.id)).map Delivery.candidate else none) := by
  induction ds generalizing st with
  | nil => simp
  | cons d ds ih =>
    rw [List.foldl_cons, ih _ ?hsize, List.find?_cons]
    case hsize =>
      rw [receive]
      split
      · rwa [size_slots_inform]
      · exact hid
    by_cases hd : d.action = a.id
    · -- The first delivery to the action; it is kept if there is no candidate yet.
      rw [receive, hd, ha]
      simp only [decide_true]
      rw [candidate?_inform]
      cases hc : st.candidate? a.id with
      | none =>
        by_cases hcap : 0 < a.capacity
        · simp [accepts, hcap, hid, hc, Delivery.candidate]
        · simp [accepts, hcap]
      | some c => simp [accepts, hc]
    · have hstep : (receive action? st d).candidate? a.id = st.candidate? a.id := by
        rw [receive]
        split
        · rename_i b hb
          exact candidate?_inform_of_ne _ _ fun h => hd (hkeyed _ _ hb ▸ h)
        · rfl
      simp [hstep, hd]

/-- **After a walk an action has the first candidate of its own path**, whatever else is filed. -/
theorem candidate?_walk (hkeyed : Keyed action?) {actions : List Action}
    (hnd : (actions.map (·.id)).Nodup) {a : Action} (ha : a ∈ actions)
    (hlookup : action? a.id = some a) (root : Place) {st : MatchState}
    (hid : a.id < st.slots.size) (hst : st.candidate? a.id = none) :
    (((RouteIndex.registerAll (actions.map fun a => (a.id, a.path))).walk root).foldl
        (receive action?) st).candidate? a.id =
      if 0 < a.capacity then root.preorder.findSome? (a.path.candidateAt root) else none := by
  have hids : ((actions.map fun a => (a.id, a.path)).map (·.1)).Nodup := by
    rwa [List.map_map]
  rw [candidate?_receiveAll hkeyed hlookup _ _ hid, hst, Option.none_or, ← List.head?_filter,
    RouteIndex.filter_walk_registerAll hids (List.mem_map_of_mem ha), List.head?_filterMap,
    List.map_findSome?]
  have hcandidate : (Option.map Delivery.candidate ∘ RouteIndex.deliveryAt a.id a.path root) =
      a.path.candidateAt root := by
    funext q
    rw [Function.comp_apply, RouteIndex.deliveryAt, Option.map_map]
    exact Option.map_id'
  rw [hcandidate]

/-! ### Counts -/

/-- How many of some actions that belong to a rule and must have a candidate have one. -/
def supplied (st : MatchState) (actions : List Action) (rule : Nat) : Nat :=
  actions.countP fun a => a.rule = rule && a.mustHave && (st.candidate? a.id).isSome

/-- Whether the counts of a state are what its candidates are. -/
def Tallied (actions : List Action) (st : MatchState) : Prop :=
  ∀ rule < st.received.size, st.receivedBy rule = st.supplied actions rule

theorem tallied_new (actions : List Action) (slots rules : Nat) :
    Tallied actions (new slots rules) := by
  intro rule _
  rw [receivedBy_new, supplied, eq_comm, List.countP_eq_zero]
  simp

theorem receivedBy_inform (st : MatchState) (a : Action) (c : Candidate) {rule : Nat}
    (hrule : rule < st.received.size) :
    (st.inform a c).receivedBy rule =
      st.receivedBy rule + if a.rule = rule ∧ a.mustHave ∧ st.accepts a then 1 else 0 := by
  rw [receivedBy, received_inform, receivedBy]
  by_cases ha : st.accepts a ∧ a.mustHave
  · rw [if_pos ha, Array.getElem?_modify]
    by_cases hr : a.rule = rule
    · simp [hr, ha, Array.getElem?_eq_getElem hrule]
    · simp [hr]
  · rw [if_neg ha, if_neg fun h => ha ⟨h.2.2, h.2.1⟩]
    rfl

/-- Of some actions that have a candidate one more has one, if the informed action is among them
    and accepts it. -/
theorem countP_candidate_inform {actions : List Action} (hnd : (actions.map (·.id)).Nodup)
    {a : Action} (ha : a ∈ actions) (st : MatchState) (c : Candidate) (p : Action → Bool) :
    (actions.countP fun b => p b && ((st.inform a c).candidate? b.id).isSome) =
      (actions.countP fun b => p b && (st.candidate? b.id).isSome) +
        if p a ∧ st.accepts a then 1 else 0 := by
  obtain ⟨before, after, rfl⟩ := List.append_of_mem ha
  -- All other actions keep the candidates they have.
  have hother : ∀ bs ⊆ before ++ after,
      (bs.countP fun b => p b && ((st.inform a c).candidate? b.id).isSome) =
        bs.countP fun b => p b && (st.candidate? b.id).isSome := by
    intro bs hbs
    refine List.countP_congr fun b hb => ?_
    rw [candidate?_inform_of_ne _ _ (ne_of_nodup_map hnd b (hbs hb)).symm]
  have hsplit : ∀ q : Action → Bool, (before ++ a :: after).countP q =
      before.countP q + after.countP q + [a].countP q := by
    intro q
    rw [List.append_cons, List.countP_append, List.countP_append]
    exact Nat.add_right_comm _ _ _
  rw [hsplit, hsplit, hother before (List.subset_append_left _ _),
    hother after (List.subset_append_right _ _), Nat.add_assoc _ ([a].countP _)]
  congr 1
  rw [List.countP_singleton, List.countP_singleton, candidate?_inform]
  by_cases hacc : st.accepts a
  · simp [hacc, ((st.accepts_iff a).mp hacc).2.2]
  · simp [hacc]

theorem supplied_inform {actions : List Action} (hnd : (actions.map (·.id)).Nodup)
    {a : Action} (ha : a ∈ actions) (st : MatchState) (c : Candidate) (rule : Nat) :
    (st.inform a c).supplied actions rule =
      st.supplied actions rule +
        if a.rule = rule ∧ a.mustHave ∧ st.accepts a then 1 else 0 := by
  rw [supplied, countP_candidate_inform hnd ha, supplied]
  simp [and_assoc]

/-- **Informing an action keeps the counts right.** -/
theorem Tallied.inform {actions : List Action} (hnd : (actions.map (·.id)).Nodup)
    {a : Action} (ha : a ∈ actions) {st : MatchState} (h : Tallied actions st) (c : Candidate) :
    Tallied actions (st.inform a c) := by
  intro rule hrule
  rw [size_received_inform] at hrule
  rw [receivedBy_inform st a c hrule, supplied_inform hnd ha, h rule hrule]

/-- How many of some actions have a candidate. -/
def holders (st : MatchState) (actions : List Action) : Nat :=
  actions.countP fun a => (st.candidate? a.id).isSome

theorem holders_new (actions : List Action) (slots rules : Nat) :
    (new slots rules).holders actions = 0 := by
  rw [holders, List.countP_eq_zero]
  simp

theorem holders_inform {actions : List Action} (hnd : (actions.map (·.id)).Nodup)
    {a : Action} (ha : a ∈ actions) (st : MatchState) (c : Candidate) :
    (st.inform a c).holders actions =
      st.holders actions + if st.accepts a then 1 else 0 := by
  have hcount := countP_candidate_inform hnd ha st c fun _ => true
  simpa [holders] using hcount

/-! ### Runs -/

/-- A state that comes from another by informing some actions, in any order and any number of
    times. -/
inductive Informed (as : List Action) (st : MatchState) : MatchState → Prop
  | refl : Informed as st st
  | inform {st' : MatchState} {a : Action} (c : Candidate) (h : Informed as st st')
    (ha : a ∈ as) : Informed as st (st'.inform a c)

namespace Informed

variable {as : List Action} {st st' : MatchState}

theorem trans {st'' : MatchState} (h : Informed as st st') (h' : Informed as st' st'') :
    Informed as st st'' := by
  induction h' with
  | refl => exact h
  | inform c _ ha ih => exact .inform c ih ha

theorem mono {bs : List Action} (h : Informed as st st') (hsub : as ⊆ bs) :
    Informed bs st st' := by
  induction h with
  | refl => exact .refl
  | inform c _ ha ih => exact .inform c ih (hsub ha)

theorem size_slots (h : Informed as st st') : st'.slots.size = st.slots.size := by
  induction h with
  | refl => rfl
  | inform c _ ha ih => rw [size_slots_inform, ih]

theorem size_received (h : Informed as st st') : st'.received.size = st.received.size := by
  induction h with
  | refl => rfl
  | inform c _ ha ih => rw [size_received_inform, ih]

/-- The counts stay as they are where no action counts. -/
theorem received_eq (h : Informed as st st') (has : ∀ a ∈ as, a.mustHave = false) :
    st'.received = st.received := by
  induction h with
  | refl => rfl
  | inform c _ ha ih =>
    rw [received_inform, if_neg, ih]
    simp [has _ ha]

/-- **The slots of other actions stay as they are.** -/
theorem getElem?_slots_of_ne (h : Informed as st st') {id : ActionId}
    (hid : ∀ a ∈ as, a.id ≠ id) : st'.slots[id]? = st.slots[id]? := by
  induction h with
  | refl => rfl
  | inform c _ ha ih =>
    rw [getElem?_slots_inform, if_neg fun hown => hid _ ha hown.1.symm, ih]

theorem candidate?_of_ne (h : Informed as st st') {id : ActionId} (hid : ∀ a ∈ as, a.id ≠ id) :
    st'.candidate? id = st.candidate? id :=
  candidate?_congr (h.getElem?_slots_of_ne hid)

/-- A candidate that is kept stays. -/
theorem candidate?_eq_some (h : Informed as st st') {id : ActionId} {c : Candidate}
    (hc : st.candidate? id = some c) : st'.candidate? id = some c := by
  induction h with
  | refl => exact hc
  | inform c' _ ha ih =>
    -- A slot that is taken accepts nothing.
    rw [candidate?_inform, if_neg, ih]
    rintro ⟨rfl, hacc⟩
    exact absurd (ih.symm.trans ((accepts_iff _ _).mp hacc).2.2) (by simp)

theorem tallied {actions : List Action} (hnd : (actions.map (·.id)).Nodup)
    (h : Informed as st st') (hsub : as ⊆ actions) (ht : Tallied actions st) :
    Tallied actions st' := by
  induction h with
  | refl => exact ht
  | inform c _ ha ih => exact ih.inform hnd (hsub ha) c

/-- **The candidates that are kept are those that actions have.** -/
theorem accepted_eq {actions : List Action} (hnd : (actions.map (·.id)).Nodup)
    (h : Informed as st st') (hsub : as ⊆ actions) (hst : st.accepted = st.holders actions) :
    st'.accepted = st'.holders actions := by
  induction h with
  | refl => exact hst
  | inform c _ ha ih => rw [accepted_inform, holders_inform hnd (hsub ha), ih]

end Informed

/-- Some actions, each informed of the same candidate. -/
theorem informed_foldl_inform (as : List Action) (c : Candidate) (st : MatchState) :
    Informed as st (as.foldl (fun st a => st.inform a c) st) :=
  List.foldlRecOn as _ .refl fun _ h _ ha => h.inform c ha

/-- **Each of the actions gets the candidate** if it keeps candidates and has none. -/
theorem candidate?_foldl_inform {as : List Action} (hnd : (as.map (·.id)).Nodup) {a : Action}
    (ha : a ∈ as) (c : Candidate) (st : MatchState) :
    (as.foldl (fun st a => st.inform a c) st).candidate? a.id =
      (st.candidate? a.id).or
        (if 0 < a.capacity ∧ a.id < st.slots.size then some c else none) := by
  obtain ⟨before, after, rfl⟩ := List.append_of_mem ha
  -- The actions before it and after it have other numbers.
  have hothers : ∀ b ∈ before ++ after, b.id ≠ a.id := ne_of_nodup_map hnd
  have hbefore := informed_foldl_inform before c st
  have hafter := informed_foldl_inform after c
    ((before.foldl (fun st a => st.inform a c) st).inform a c)
  have hsame := hbefore.candidate?_of_ne fun b hb => hothers b (List.mem_append_left _ hb)
  rw [List.foldl_append, List.foldl_cons,
    hafter.candidate?_of_ne fun b hb => hothers b (List.mem_append_right _ hb), candidate?_inform,
    hsame]
  simp only [true_and, accepts_iff, hsame, hbefore.size_slots]
  cases st.candidate? a.id with
  | none => simp
  | some c' => simp

/-- The deliveries of a walk inform actions that are looked up. -/
theorem informed_receiveAll {actions : List Action}
    (haction : ∀ id a, action? id = some a → a ∈ actions) (ds : List Delivery)
    (st : MatchState) : Informed actions st (ds.foldl (receive action?) st) := by
  refine List.foldlRecOn ds _ .refl fun st' h d _ => ?_
  rw [receive]
  split
  · rename_i a hlookup
    exact h.inform _ (haction _ _ hlookup)
  · exact h

end MatchState

end AgentRules
