/-
  Match states under any calls.

  Whoever holds a match state can do two things with it: offer a candidate to an action, and
  reset the state. In whatever order and however often that is done, what the state says
  follows from the offers since the last reset: the candidate of an action is the first one it
  was offered, and all counts are counts of these (`runAll_keeps_first`). A state that has too
  few slots, or too few counts of rules, is right for those it has.

  The order of the proof is the order of the calls. A new state reflects no offers, an offer
  makes a state reflect one offer more, and a reset makes it reflect none again (`Reflects`).
-/
import AgentRules.Proofs.MatchState

namespace AgentRules

namespace MatchState

/-! ### Calls -/

/-- A call that changes a state. -/
inductive Call
  | offer (a : Action) (c : Candidate)
  | reset

/-- What is offered in a run, each offer with the action it is made to. -/
abbrev Offers := List (Action × Candidate)

namespace Call

/-- The state after a call. -/
def run (st : MatchState) : Call → MatchState
  | offer a c => (st.offer a c).2
  | reset => st.reset

/-- The state after some calls. -/
def runAll (st : MatchState) (calls : List Call) : MatchState := calls.foldl run st

/-- The offers since the last reset, from those before a call. -/
def record (offers : Offers) : Call → Offers
  | offer a c => offers ++ [(a, c)]
  | reset => []

/-- The offers since the last reset in a run, in their order. -/
def sinceReset (calls : List Call) : Offers := calls.foldl record []

theorem runAll_concat (st : MatchState) (calls : List Call) (call : Call) :
    runAll st (calls ++ [call]) = call.run (runAll st calls) :=
  List.foldl_concat ..

theorem sinceReset_concat (calls : List Call) (call : Call) :
    sinceReset (calls ++ [call]) = record (sinceReset calls) call :=
  List.foldl_concat ..

end Call

/-! ### What a state should hold -/

/-- How many slots of a state are filled. -/
def filled (st : MatchState) : Nat := st.slots.countP (·.isSome)

/-- Whether a state with a number of slots keeps a candidate for an action at all: there is a
    slot for the action, and what the action gives depends on the tree. -/
def Keeps (slots : Nat) (a : Action) : Prop := a.id < slots ∧ a.compiled.fixed? = none

instance (slots : Nat) (a : Action) : Decidable (Keeps slots a) :=
  inferInstanceAs (Decidable (_ ∧ _))

/-- The first of some offers that is made to an action. -/
def firstOffer? (offers : Offers) (a : Action) : Option Candidate :=
  (offers.find? (·.1.id = a.id)).map (·.2)

theorem firstOffer?_eq_none {offers : Offers} {a : Action} :
    firstOffer? offers a = none ↔ ∀ o ∈ offers, o.1.id ≠ a.id := by
  simp [firstOffer?]

theorem firstOffer?_concat (offers : Offers) (b : Action) (c : Candidate) (a : Action) :
    firstOffer? (offers ++ [(b, c)]) a =
      (firstOffer? offers a).or (if a.id = b.id then some c else none) := by
  rw [firstOffer?, List.find?_append, Option.map_or, List.find?_singleton, ← firstOffer?]
  congr 1
  by_cases hid : a.id = b.id
  · simp [hid]
  · simp [hid, Ne.symm hid]

/-- Whether a state for some actions is what it should be after some offers since its last
    reset. -/
structure Reflects (actions : List Action) (slots rules : Nat) (offers : Offers)
    (st : MatchState) : Prop where
  size_slots : st.slots.size = slots
  size_received : st.received.size = rules
  accepted : st.accepted = st.filled
  tallied : Tallied actions st
  informs : st.informs = offers.length
  candidate : ∀ a ∈ actions,
    st.candidate? a.id = if Keeps slots a then firstOffer? offers a else none

/-! ### One call -/

theorem capacity_pos_iff (a : Action) : 0 < a.capacity ↔ a.compiled.fixed? = none := by
  rw [Action.capacity]
  cases a.compiled.fixed? <;> simp

theorem accepts_iff_keeps (st : MatchState) (a : Action) :
    st.accepts a ↔ Keeps st.slots.size a ∧ st.candidate? a.id = none := by
  rw [accepts_iff, capacity_pos_iff, Keeps, ← and_assoc, and_comm (a := a.compiled.fixed? = none)]

theorem informs_inform (st : MatchState) (a : Action) (c : Candidate) :
    (st.inform a c).informs = st.informs + 1 := by
  rw [inform]
  split <;> rfl

theorem filled_new (slots rules : Nat) : (new slots rules).filled = 0 := by
  rw [filled, new, Array.countP_replicate]
  rfl

/-- **One slot more is filled** if the candidate is accepted. -/
theorem filled_inform (st : MatchState) (a : Action) (c : Candidate) :
    (st.inform a c).filled = st.filled + if st.accepts a then 1 else 0 := by
  rw [filled, slots_inform]
  by_cases ha : st.accepts a
  · obtain ⟨hlt, hempty⟩ := Array.getElem?_eq_some_iff.mp ((st.accepts_iff_getElem? a).mp ha).2
    rw [if_pos ha, if_pos ha, Array.setIfInBounds, dif_pos hlt, Array.countP_set, hempty]
    rfl
  · rw [if_neg ha, if_neg ha]
    rfl

theorem reflects_new (actions : List Action) (slots rules : Nat) :
    Reflects actions slots rules [] (new slots rules) where
  size_slots := Array.size_replicate
  size_received := Array.size_replicate
  accepted := (filled_new slots rules).symm
  tallied := tallied_new actions slots rules
  informs := rfl
  candidate a _ := by
    rw [candidate?_new]
    exact (ite_self none).symm

variable {actions : List Action} {slots rules : Nat} {offers : Offers} {st : MatchState}

/-- **A state accepts the first offer to an action**, if it keeps candidates for the action. -/
theorem Reflects.accepts_iff (h : Reflects actions slots rules offers st) {a : Action}
    (ha : a ∈ actions) :
    st.accepts a ↔ Keeps slots a ∧ ∀ o ∈ offers, o.1.id ≠ a.id := by
  rw [accepts_iff_keeps, h.size_slots, h.candidate a ha]
  refine and_congr_right fun hkeeps => ?_
  rw [if_pos hkeeps, firstOffer?_eq_none]

/-- **An offer more.** -/
theorem Reflects.inform (h : Reflects actions slots rules offers st)
    (hnd : (actions.map (·.id)).Nodup) {a : Action} (ha : a ∈ actions) (c : Candidate) :
    Reflects actions slots rules (offers ++ [(a, c)]) (st.inform a c) where
  size_slots := (size_slots_inform st a c).trans h.size_slots
  size_received := (size_received_inform st a c).trans h.size_received
  accepted := by rw [accepted_inform, filled_inform, h.accepted]
  tallied := h.tallied.inform hnd ha c
  informs := by rw [informs_inform, h.informs, List.length_append, List.length_singleton]
  candidate b hb := by
    have hst : st.candidate? b.id = if Keeps slots b then firstOffer? offers b else none :=
      h.candidate b hb
    rw [candidate?_inform, firstOffer?_concat, hst]
    by_cases hid : b.id = a.id
    · -- The action the offer is made to: actions with one number are the same.
      obtain rfl : b = a := List.inj_on_of_nodup_map hnd hb ha hid
      have hacc : st.accepts b ↔ Keeps slots b ∧ firstOffer? offers b = none := by
        rw [h.accepts_iff hb, firstOffer?_eq_none]
      by_cases hkeeps : Keeps slots b
      · cases hfirst : firstOffer? offers b <;> simp [hacc, hkeeps, hfirst]
      · simp [hacc, hkeeps]
    · simp [hid]

/-- A reset forgets all offers. -/
theorem Reflects.reset (h : Reflects actions slots rules offers st) :
    Reflects actions slots rules [] st.reset := by
  rw [MatchState.reset, h.size_slots, h.size_received]
  exact reflects_new actions slots rules

theorem Reflects.run (h : Reflects actions slots rules offers st)
    (hnd : (actions.map (·.id)).Nodup) {call : Call}
    (hcall : ∀ a c, call = .offer a c → a ∈ actions) :
    Reflects actions slots rules (call.record offers) (call.run st) := by
  cases call with
  | offer a c => exact h.inform hnd (hcall a c rfl) c
  | reset => exact h.reset

/-! ### All calls -/

/-- After any calls a state reflects the offers since the last reset. -/
theorem reflects_runAll (hnd : (actions.map (·.id)).Nodup) (slots rules : Nat)
    (calls : List Call) (hcalls : ∀ a c, Call.offer a c ∈ calls → a ∈ actions) :
    Reflects actions slots rules (Call.sinceReset calls) (Call.runAll (new slots rules) calls) := by
  induction calls using List.reverseRecOn with
  | nil => exact reflects_new actions slots rules
  | append_singleton calls call ih =>
    rw [Call.sinceReset_concat, Call.runAll_concat]
    refine (ih fun a c hac => hcalls a c (List.mem_append_left _ hac)).run hnd ?_
    rintro a c rfl
    exact hcalls a c (List.mem_append_right _ (List.mem_singleton_self _))

/-- **A state keeps the first offer to each action.** After any offers and resets, beginning
    with a new state: the accepted candidates are as many as the filled slots; the count of a
    rule is the number of its actions that must have a candidate and have one; the informs are
    the offers since the last reset; the candidate of an action is the first one it was offered
    since then, if there is a slot for the action and it is no constant; and the next offer to
    an action is kept exactly if it would be the first of this kind. -/
theorem runAll_keeps_first (hnd : (actions.map (·.id)).Nodup) (slots rules : Nat)
    (calls : List Call) (hcalls : ∀ a c, Call.offer a c ∈ calls → a ∈ actions) :
    let st := Call.runAll (new slots rules) calls
    st.accepted = st.filled ∧
      (∀ rule < rules, st.receivedBy rule = st.supplied actions rule) ∧
      st.informs = (Call.sinceReset calls).length ∧
      ∀ a ∈ actions,
        (st.candidate? a.id =
          if Keeps slots a then firstOffer? (Call.sinceReset calls) a else none) ∧
        ∀ c, (st.offer a c).1 = true ↔
          Keeps slots a ∧ ∀ o ∈ Call.sinceReset calls, o.1.id ≠ a.id := by
  intro st
  have h : Reflects actions slots rules (Call.sinceReset calls) st :=
    reflects_runAll hnd slots rules calls hcalls
  refine ⟨h.accepted, fun rule hrule => ?_, h.informs, fun a ha => ⟨h.candidate a ha, ?_⟩⟩
  · exact h.tallied rule (h.size_received.symm ▸ hrule)
  · exact fun _ => h.accepts_iff ha

/-- A state with three slots and a count for one rule, for actions of two rules. The literal keeps
    nothing, the last action has no slot, and the count of the second rule is missing. -/
theorem runAll_keeps_first_after_reset :
    let reading (id : ActionId) (rule : Nat) : Action :=
      ⟨id, rule, .requirement, ⟨"agent", [], .fromRoot [.down .agent (.single 0)]⟩,
        .program ⟨[], false⟩, false, 1⟩
    let literal : Action := ⟨1, 0, .extraction, ⟨"\"Chrome\"", [], .literal "Chrome"⟩,
      .fixed "Chrome", false, 0⟩
    let candidate (value : String) : Candidate := ⟨.ofVariable "P", ⟨[], .leaf .name value⟩, value⟩
    let calls : List Call := [.offer (reading 2 1) (candidate "early"), .reset,
      .offer literal (candidate "first"), .offer (reading 3 1) (candidate "first"),
      .offer (reading 0 0) (candidate "first"), .offer (reading 0 0) (candidate "second")]
    let st := Call.runAll (new 3 1) calls
    st.accepted = st.filled ∧ st.receivedBy 0 = 1 ∧ st.informs = 4 ∧
      st.candidate? 0 = some (candidate "first") ∧ st.candidate? 1 = none ∧
      st.candidate? 2 = none ∧ st.candidate? 3 = none ∧
      (st.offer (reading 0 0) (candidate "third")).1 = false ∧
      (st.offer (reading 2 1) (candidate "third")).1 = true := by
  intro reading literal candidate calls st
  let actions : List Action := [reading 0 0, literal, reading 2 1, reading 3 1]
  have hcalls : ∀ a c, Call.offer a c ∈ calls → a ∈ actions := by
    intro a c hac
    simp only [calls, List.mem_cons, Call.offer.injEq, reduceCtorEq, List.not_mem_nil, false_or,
      or_false] at hac
    rcases hac with ⟨rfl, -⟩ | ⟨rfl, -⟩ | ⟨rfl, -⟩ | ⟨rfl, -⟩ | ⟨rfl, -⟩ <;> simp [actions]
  obtain ⟨haccepted, hreceived, hinforms, hactions⟩ :=
    runAll_keeps_first (by decide : (actions.map (·.id)).Nodup) 3 1 calls hcalls
  have hread := hactions (reading 0 0) (by simp [actions])
  have hliteral := hactions literal (by simp [actions])
  have hother := hactions (reading 2 1) (by simp [actions])
  have houtside := hactions (reading 3 1) (by simp [actions])
  refine ⟨haccepted, ?_, hinforms, hread.1, hliteral.1, hother.1, houtside.1, ?_, ?_⟩
  · exact (hreceived 0 (by decide)).trans (by decide)
  · -- The action has had its first offer.
    exact Bool.eq_false_iff.mpr fun hkept => absurd ((hread.2 _).mp hkept).2 (by decide)
  · exact (hother.2 _).mpr (by decide)

end MatchState

end AgentRules
