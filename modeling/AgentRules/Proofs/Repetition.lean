/-
  Evaluating rules again and in any order.

  An evaluation changes the state: it delivers the variables of its rule. When they have been
  delivered once, delivering them again changes no slot, since whatever a variable would hand
  on has found its way into the slots already (`Rule.settled_deliverVariables`). So a rule that
  is evaluated again finds the same again, and it does not see that other rules have been
  evaluated, which change slots of their own actions only.

  None of this needs a state as a walk leaves it: it may hold any candidates and lack any slots.
-/
import AgentRules.Proofs.Trace

namespace AgentRules

/-! ### One rule, twice -/

namespace Rule

/-- Whether the variables of a rule have nothing left to hand on: an action that would be
    informed of something does not accept it. -/
def Settled (r : Rule) (st : MatchState) : Prop :=
  ∀ v ∈ r.bindings, ∀ a ∈ r.listeners v.1, (v.2.resolve? st).isSome → ¬st.accepts a

variable {r : Rule} {st st' : MatchState}

/-- Only the slots matter for whether variables are settled. -/
theorem Settled.congr (h : r.Settled st) (hslots : st'.slots = st.slots) : r.Settled st' := by
  intro v hv a ha hresult
  rw [Action.resolve?_congr (MatchState.candidate?_of_slots_eq hslots v.2.id)] at hresult
  rw [MatchState.accepts_iff_getElem?, hslots, ← MatchState.accepts_iff_getElem?]
  exact h v hv a ha hresult

theorem Settled.slots_deliverVariable (h : r.Settled st) {v : String × Action}
    (hv : v ∈ r.bindings) : (r.deliverVariable st v).slots = st.slots := by
  rw [deliverVariable, deliverTo]
  cases hresult : v.2.resolve? st with
  | none => rfl
  | some result =>
    refine List.foldlRecOn (motive := fun now : MatchState => now.slots = st.slots) _ _ rfl ?_
    intro now hnow a ha
    have hsame : v.2.resolve? now = some result := by
      rw [Action.resolve?_congr (MatchState.candidate?_of_slots_eq hnow v.2.id), hresult]
    have hrefuses : ¬now.accepts a := h.congr hnow v hv a ha (Option.isSome_of_eq_some hsame)
    rw [MatchState.slots_inform, if_neg hrefuses, hnow]

/-- **Settled variables change no slot.** -/
theorem Settled.slots_deliverVariables (h : r.Settled st) :
    (r.deliverVariables st).slots = st.slots := by
  refine List.foldlRecOn (motive := fun now : MatchState => now.slots = st.slots) _ _ rfl ?_
  intro now hnow v hv
  rw [(h.congr hnow).slots_deliverVariable hv, hnow]

/-- **Variables that are delivered are settled**, whatever the state was before. -/
theorem settled_deliverVariables (hr : r.Filed) (hdeclared : r.Declared) (st : MatchState) :
    r.Settled (r.deliverVariables st) := by
  intro v hv a ha hresult haccepts
  obtain ⟨hmem, hname⟩ := List.mem_filter.mp ha
  obtain ⟨hcapacity, hslot, hnone⟩ := (MatchState.accepts_iff _ a).mp haccepts
  have hsize : (r.deliverVariables st).slots.size = st.slots.size :=
    (r.informed_deliverVariables r.bindings st).size_slots
  have hdelivered := candidate?_delivered hr hdeclared hv hmem (decide_eq_true_eq.mp hname) st
  rw [if_pos ⟨hcapacity, hsize ▸ hslot⟩, hnone, eq_comm, Option.or_eq_none_iff] at hdelivered
  rw [← Option.isSome_map (f := (Result.candidate · v.1)), hdelivered.2] at hresult
  exact absurd hresult (by simp)

theorem emission?_of_slots_eq (hslots : st'.slots = st.slots) :
    r.emission? st' = r.emission? st :=
  emission?_congr fun a _ => by
    rw [Action.evaluate, Action.evaluate, MatchState.candidate?_of_slots_eq hslots a.id]

/-- **A rule that is evaluated again finds the same again.** -/
theorem evaluate_again (hr : r.Filed) (hdeclared : r.Declared) (st : MatchState) :
    (r.evaluate (r.evaluate st).2).1 = (r.evaluate st).1 :=
  emission?_of_slots_eq (settled_deliverVariables hr hdeclared st).slots_deliverVariables

end Rule

/-! ### All rules, in any order -/

/-- One evaluation of a rule, by itself or with a trace. -/
inductive Evaluation
  | plain (rule : Rule)
  | traced (rule : Rule)

namespace Evaluation

/-- The rule that is evaluated. -/
def rule : Evaluation → Rule
  | plain r | traced r => r

/-- What is found, and the state that is left. -/
def run (st : MatchState) : Evaluation → Option Emission × MatchState
  | plain r => r.evaluate st
  | traced r =>
    let (trace, st) := r.evaluateTraced st
    (trace.emission, st)

/-- What is found by evaluations that share a state, one after the other. -/
def runAll (st : MatchState) : List Evaluation → List (Option Emission)
  | [] => []
  | c :: cs =>
    let (emission, st) := c.run st
    emission :: runAll st cs

theorem run_eq {c : Evaluation} (h : c.rule.Cast) (st : MatchState) :
    c.run st = c.rule.evaluate st := by
  cases c with
  | plain r => rfl
  | traced r =>
    have hcast : r.Cast := h
    show ((r.evaluateTraced st).1.emission, (r.evaluateTraced st).2) = r.evaluate st
    rw [hcast.evaluateTraced_eq]

end Evaluation

namespace RuleSet

variable {rs : RuleSet} {lookups : Lookups} {verbose : Bool} {ds : List RuleDefinition}

/-- An evaluation leaves the slots of the other rules as they are. -/
theorem getElem?_slots_evaluate (h : rs.WellFormed) {q r : Rule} (hq : q ∈ rs.rules)
    (hr : r ∈ rs.rules) (hne : q ≠ r) (st : MatchState) {a : Action} (ha : a ∈ q.actions) :
    (r.evaluate st).2.slots[a.id]? = st.slots[a.id]? := by
  apply (r.informed_evaluate st).getElem?_slots_of_ne
  intro b hb hid
  have hmem : b ∈ r.actions := List.mem_of_mem_filter hb
  exact hne (h.eq_of_id_eq hq hr ha hmem hid.symm)

/-- **One evaluation does not change what another finds**, be it of the same rule or not. -/
theorem evaluate_after (h : build lookups verbose ds = .ok rs) {q r : Rule} (hq : q ∈ rs.rules)
    (hr : r ∈ rs.rules) (st : MatchState) :
    (q.evaluate (r.evaluate st).2).1 = (q.evaluate st).1 := by
  obtain ⟨hwf, -⟩ := rules_of_build h
  by_cases hsame : q = r
  · subst hsame
    exact Rule.evaluate_again (filed_of_build h hq) (declared_of_build h hq) st
  · apply evaluate_congr hwf hq
    intro a ha
    exact getElem?_slots_evaluate hwf hq hr hsame st ha

theorem runAll_eq (h : build lookups verbose ds = .ok rs) {cs : List Evaluation}
    (hcs : ∀ c ∈ cs, c.rule ∈ rs.rules) (st : MatchState) :
    Evaluation.runAll st cs = cs.map fun c => (c.rule.evaluate st).1 := by
  induction cs generalizing st with
  | nil => rfl
  | cons c cs ih =>
    obtain ⟨hc, hcs⟩ := List.forall_mem_cons.mp hcs
    have hrun : c.run st = c.rule.evaluate st := Evaluation.run_eq (cast_of_build h c.rule hc) st
    show (c.run st).1 :: Evaluation.runAll (c.run st).2 cs = _
    rw [hrun, ih hcs, List.map_cons]
    congr 1
    apply List.map_congr_left
    intro d hd
    exact evaluate_after h (hcs d hd) hc st

/-- **Evaluations do not depend on each other.** Whatever a state holds and whatever size it has,
    of any evaluations of rules of the set that share it, in any order, as often as one likes
    and with or without a trace, each finds what it would find as the first one. No evaluation
    changes a count or a candidate that is there, nor a slot of another rule. -/
theorem evaluations_independent (h : build lookups verbose ds = .ok rs) :
    (∀ (st : MatchState) (cs : List Evaluation), (∀ c ∈ cs, c.rule ∈ rs.rules) →
      Evaluation.runAll st cs = cs.map fun c => (c.rule.evaluate st).1) ∧
    ∀ (st : MatchState) (c : Evaluation), c.rule ∈ rs.rules →
      (c.run st).2.received = st.received ∧
      (∀ id candidate, st.candidate? id = some candidate →
        (c.run st).2.candidate? id = some candidate) ∧
      ∀ q ∈ rs.rules, q ≠ c.rule → ∀ a ∈ q.actions,
        (c.run st).2.slots[a.id]? = st.slots[a.id]? := by
  obtain ⟨hwf, -⟩ := rules_of_build h
  constructor
  · intro st cs hcs
    exact runAll_eq h hcs st
  · intro st c hc
    have hinformed := c.rule.informed_evaluate st
    rw [Evaluation.run_eq (cast_of_build h c.rule hc)]
    refine ⟨?_, ?_, ?_⟩
    · exact hinformed.received_eq fun a ha => (filed_of_build h hc).mustHave_dependent ha
    · intro id candidate hcandidate
      exact hinformed.candidate?_eq_some hcandidate
    · intro q hq hne a ha
      exact getElem?_slots_evaluate hwf hq hc hne st ha

/-- Two rules that are evaluated several times on a state that has counts for none of them and no
    slot for the last action, and holds candidates that no walk has found. -/
theorem evaluations_independent_when_undersized :
    let ds : List RuleDefinition :=
      [⟨"name", [⟨"P", "agent.(0)product"⟩], [], ⟨"Name", 1, "@P.(0)name"⟩⟩,
        ⟨"version", [⟨"P", "agent.(0)product"⟩], [], ⟨"Version", 1, "@P.(0)version"⟩⟩]
    let stale : Candidate := ⟨.ofVariable "Q", ⟨[], .product "Moz" "5"⟩, "stale"⟩
    let st : MatchState := ⟨#[some stale, none, some stale], #[], 0, 0⟩
    let found : Emission := ⟨"Name", "Moz", 1, "name"⟩
    ∃ rs, build .empty false ds = .ok rs ∧
      Evaluation.runAll st (rs.rules.map .plain ++ rs.rules.reverse.map .traced ++
        rs.rules.map .plain) = [some found, none, none, some found, some found, none] := by
  intro ds stale st found
  have hfound : (build .empty false ds).toOption.map
      (fun rs => rs.rules.map fun r => (r.evaluate st).1) = some [some found, none] := by
    decide +kernel
  cases hrs : build .empty false ds with
  | error e => simp [hrs, Except.toOption] at hfound
  | ok rs =>
    simp only [hrs, Except.toOption, Option.map_some, Option.some.injEq] at hfound
    refine ⟨rs, rfl, ?_⟩
    rw [(evaluations_independent hrs).1 st _ ?_]
    · -- With a trace or without one, a rule finds what it finds in the first state.
      have hrule : ∀ (rules : List Rule) (one : Rule → Evaluation), (∀ r, (one r).rule = r) →
          (rules.map one).map (fun c => (c.rule.evaluate st).1) =
            rules.map fun r => (r.evaluate st).1 := by
        intro rules one hone
        rw [List.map_map]
        exact List.map_congr_left fun r _ => by rw [Function.comp_apply, hone]
      rw [List.map_append, List.map_append, hrule _ _ fun _ => rfl, hrule _ _ fun _ => rfl,
        List.map_reverse, hfound]
      rfl
    · intro c hc
      simp only [List.mem_append, List.mem_map, List.mem_reverse] at hc
      rcases hc with (⟨r, hr, rfl⟩ | ⟨r, hr, rfl⟩) | ⟨r, hr, rfl⟩
      · exact hr
      · exact hr
      · exact hr

end RuleSet

end AgentRules
