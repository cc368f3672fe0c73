/-
  Using a match state again.

  A classification empties the state it is given and reads nothing that was there before. A
  state that is large enough therefore does as well as a new one, whatever it was used for
  (`classifyWith_eq_classify`). A classification also leaves a state as large as it was, so one
  state serves for any number of trees one after the other (`classifyEach_eq`), and the cases
  of a fixture, which share a state, do not see each other (`Fixture.run_eq`).
-/
import AgentRules.Fixture
import AgentRules.Proofs.RuleSet

namespace AgentRules

namespace RuleSet

/-! ### One tree -/

/-- Whether a state has a slot for each action of a set and a count for each rule. What they
    hold does not matter. -/
structure HasRoom (rs : RuleSet) (st : MatchState) : Prop where
  slots : rs.actionCount ≤ st.slots.size
  counts : rs.rules.length ≤ st.received.size

variable {rs : RuleSet}

theorem hasRoom_newState (rs : RuleSet) : rs.HasRoom rs.newState :=
  ⟨slots_newState rs, received_newState rs⟩

/-- **A state that is large enough does as well as a new one.** -/
theorem classifyWith_eq_classify (h : rs.WellFormed) (root : Place) {st : MatchState}
    (hst : rs.HasRoom st) : (rs.classifyWith root st).1 = rs.classify root := by
  have hfits : rs.Fits (rs.collect root st) := fits_collect h root hst.slots hst.counts
  -- After the walk the slots hold what the walk has found, and nothing from before.
  have hsame : ∀ r ∈ rs.rules, ∀ a ∈ r.actions,
      (rs.collect root st).candidate? a.id = (rs.collect root rs.newState).candidate? a.id := by
    intro r hr a ha
    have hmem : a ∈ rs.actions := WellFormed.mem_actions hr ha
    rw [candidate?_collect h root hst.slots hmem,
      candidate?_collect h root (slots_newState rs) hmem]
  have hfindings : rs.rules.filterMap (finding passesGate (rs.collect root st)) =
      rs.rules.filterMap (finding passesGate (rs.collect root rs.newState)) := by
    apply List.filterMap_congr
    intro r hr
    exact finding_eq h (steady_passesGate h) (fits_newState h root) hfits hr (hsame r hr)
  rw [classifyWith_eq h root hst.slots hst.counts, classify_eq h, hfindings]

/-! ### Trees one after the other -/

/-- A classification empties a state and then informs actions of the set. -/
theorem informed_classifyWith (h : rs.WellFormed) (root : Place) (st : MatchState) :
    MatchState.Informed rs.actions st.reset (rs.classifyWith root st).2 :=
  (informed_collect h root st).trans (informed_foldl_classifyRuleIf passesGate rs.rules .empty _)

theorem HasRoom.classifyWith (h : rs.WellFormed) (root : Place) {st : MatchState}
    (hst : rs.HasRoom st) : rs.HasRoom (rs.classifyWith root st).2 := by
  have hinf := informed_classifyWith h root st
  have hslots : (rs.classifyWith root st).2.slots.size = st.slots.size :=
    hinf.size_slots.trans Array.size_replicate
  have hcounts : (rs.classifyWith root st).2.received.size = st.received.size :=
    hinf.size_received.trans Array.size_replicate
  exact ⟨hslots ▸ hst.slots, hcounts ▸ hst.counts⟩

/-- Classifies trees one after the other in one state. -/
def classifyEach (rs : RuleSet) (st : MatchState) : List Place → List Classification
  | [] => []
  | root :: roots =>
    let (fields, st) := rs.classifyWith root st
    fields :: rs.classifyEach st roots

/-- **Trees that share a state are classified as if each had a new one.** -/
theorem classifyEach_eq (h : rs.WellFormed) (roots : List Place) {st : MatchState}
    (hst : rs.HasRoom st) : rs.classifyEach st roots = roots.map rs.classify := by
  induction roots generalizing st with
  | nil => rfl
  | cons root roots ih =>
    show (rs.classifyWith root st).1 :: rs.classifyEach (rs.classifyWith root st).2 roots = _
    rw [classifyWith_eq_classify h root hst, ih (hst.classifyWith h root), List.map_cons]

end RuleSet

/-! ### The cases of a fixture -/

namespace Fixture

/-- What comes of a case by itself: it passes if a new classification of its tree has exactly
    the expected fields. -/
def Case.report (rs : RuleSet) (c : Fixture.Case) : Fixture.Report :=
  let fields := (rs.classify ⟨[], c.tree.build⟩).values
  ⟨c.name, fields == c.expected, c.expected, fields⟩

theorem runCases_eq {rs : RuleSet} (h : rs.WellFormed) (cases : List Fixture.Case)
    {st : MatchState} (hst : rs.HasRoom st) : runCases rs st cases = cases.map (·.report rs) := by
  induction cases generalizing st with
  | nil => rfl
  | cons c cases ih =>
    have hfields := RuleSet.classifyWith_eq_classify h ⟨[], c.tree.build⟩ hst
    have hrest := ih (hst.classifyWith h ⟨[], c.tree.build⟩)
    rw [List.map_cons, ← hrest, Case.report, ← hfields]
    rfl

/-- **Running a fixture reports on each case by itself.** -/
theorem run_eq {f : Fixture} {rs : RuleSet} (h : f.config.build = .ok rs) :
    f.run = .ok (f.cases.map (·.report rs)) := by
  obtain ⟨hwf, -⟩ := RuleSet.rules_of_build h
  rw [run, h, ← runCases_eq hwf f.cases rs.hasRoom_newState]
  rfl

end Fixture

/-! ### All together -/

/-- **A state keeps nothing of what it was used for.** In any state that is large enough for the
    set, whatever it holds, a classification gives the same fields as in a new one. So trees
    that are classified one after the other in one state get the fields that each gets by
    itself, and of the cases of a fixture each has the report that it has when the fixture has
    no other case. -/
theorem RuleSet.classifyWith_reused {lookups : Lookups} {verbose : Bool}
    {ds : List RuleDefinition} {rs : RuleSet} (h : build lookups verbose ds = .ok rs) :
    (∀ (root : Place) (st : MatchState), rs.HasRoom st →
      (rs.classifyWith root st).1 = rs.classify root) ∧
    (∀ (roots : List Place) (st : MatchState), rs.HasRoom st →
      rs.classifyEach st roots = roots.map rs.classify) ∧
    ∀ f : Fixture, f.config.build = .ok rs →
      f.run = .ok (f.cases.map (·.report rs)) ∧
        ∀ c ∈ f.cases, ({ f with cases := [c] } : Fixture).run = .ok [c.report rs] := by
  obtain ⟨hwf, -⟩ := rules_of_build h
  refine ⟨?_, ?_, ?_⟩
  · intro root st hst
    exact classifyWith_eq_classify hwf root hst
  · intro roots st hst
    exact classifyEach_eq hwf roots hst
  · intro f hf
    refine ⟨Fixture.run_eq hf, fun c _ => ?_⟩
    have hconfig : ({ f with cases := [c] } : Fixture).config.build = .ok rs := hf
    exact Fixture.run_eq hconfig

/-- A state with stale candidates, wrong counts and more slots than are needed: it does not
    matter for either of two trees, nor for a fixture over them. -/
theorem RuleSet.classifyWith_reused_when_stale :
    let ds : List RuleDefinition :=
      [⟨"product", [⟨"P", "agent.(0)product"⟩], ["@P.version"], ⟨"Name", 1, "@P.name"⟩⟩]
    let full : Place := ⟨[], .agent [.product "Moz" "5"]⟩
    let bare : Place := ⟨[], .leaf .agent "x"⟩
    let stale : MatchState :=
      ⟨Array.replicate 4 (some ⟨.ofVariable "P", full, "stale"⟩), #[7, 3], 9, 4⟩
    let config : Config := ⟨false, [], ds⟩
    let run := fun cases => ({
      name := "trees", description := "", config, buildError := none, cases } : Fixture).run
    let missing : Fixture.Case := ⟨"missing", ⟨.agent, "x", []⟩, []⟩
    ∃ rs, build .empty false ds = .ok rs ∧ rs.HasRoom stale ∧
      ((rs.classifyWith full stale).1.get? "Name").map (·.value) = some "Moz" ∧
      rs.classifyEach stale [full, bare, full] =
        [rs.classify full, rs.classify bare, rs.classify full] ∧
      run [missing, missing] = .ok [missing.report rs, missing.report rs] := by
  intro ds full bare stale config run missing
  have hsizes : ((build .empty false ds).toOption.map fun rs =>
      (rs.actionCount, rs.rules.length, ((rs.classify full).get? "Name").map (·.value))) =
        some (3, 1, some "Moz") := by
    decide +kernel
  cases hrs : build .empty false ds with
  | error e => simp [hrs, Except.toOption] at hsizes
  | ok rs =>
    simp only [hrs, Except.toOption, Option.map_some, Option.some.injEq, Prod.mk.injEq] at hsizes
    obtain ⟨hactions, hrules, hname⟩ := hsizes
    have hroom : rs.HasRoom stale := ⟨by rw [hactions]; decide, by rw [hrules]; decide⟩
    obtain ⟨hone, hmany, hfixture⟩ := classifyWith_reused hrs
    refine ⟨rs, rfl, hroom, ?_, hmany [full, bare, full] stale hroom, ?_⟩
    · rw [hone full stale hroom]
      exact hname
    · exact (hfixture ⟨"trees", "", config, none, [missing, missing]⟩ hrs).1

end AgentRules
