/-
  Tracing does not change what is found.

  A plain evaluation of a rule stops at the first requirement that is not met. A traced one
  evaluates every action and goes by the roles of the actions to tell whether the rule
  fired, and by their order to find the value. Both come to the same, because in a rule that
  is built the actions of each role stand where they belong (`Rule.Cast`).

  So a traced run goes through the same states and the same classifications as a plain one,
  and adds one trace for each rule (`foldl_classifyRuleTraced`).
-/
import AgentRules.Proofs.Gate
import AgentRules.Trace

namespace AgentRules

/-! ### The roles of actions -/

namespace Rule

/-- Whether every action of a rule has the role of the place where it stands. -/
structure Cast (r : Rule) : Prop where
  bindings : ∀ v ∈ r.bindings, v.2.role = .binding
  requirements : ∀ a ∈ r.requirements, a.role = .requirement
  extraction : r.extraction.role = .extraction

section Building

variable {site : Site}

theorem role_of_buildAction {role : Role} {id : ActionId} {text : String} {a : Action}
    (h : buildAction site role id text = .ok a) : a.role = role := by
  obtain ⟨e, compiled, -, -, rfl⟩ := buildAction_eq_ok.mp h
  rfl

theorem role_of_buildVariables {names : List String} {id : ActionId} {ds : List Binding}
    {vs : List (String × Action)} (h : buildVariables site names id ds = .ok vs) :
    ∀ v ∈ vs, v.2.role = .binding := by
  induction ds generalizing names id vs with
  | nil =>
    obtain rfl := Except.ok.inj h
    simp
  | cons d ds ih =>
    obtain ⟨-, a, rest, ha, -, hrest, rfl⟩ := buildVariables_cons_eq_ok.mp h
    exact List.forall_mem_cons.mpr ⟨role_of_buildAction ha, ih hrest⟩

theorem role_of_buildRequirements {id : ActionId} {texts : List String} {as : List Action}
    (h : buildRequirements site id texts = .ok as) : ∀ a ∈ as, a.role = .requirement := by
  induction texts generalizing id as with
  | nil =>
    obtain rfl := Except.ok.inj h
    simp
  | cons text texts ih =>
    obtain ⟨a, rest, ha, hrest, rfl⟩ := buildRequirements_cons_eq_ok.mp h
    exact List.forall_mem_cons.mpr ⟨role_of_buildAction ha, ih hrest⟩

theorem cast_of_compile {id : ActionId} {d : RuleDefinition} {r : Rule}
    (h : compile site id d = .ok r) : r.Cast := by
  obtain ⟨bs, as, a, hbs, has, ha, -, -, -, rfl⟩ := compile_eq_ok.mp h
  exact ⟨role_of_buildVariables hbs, role_of_buildRequirements has, role_of_buildAction ha⟩

end Building

/-- Filing a rule and moving it to its place leave the roles. -/
theorem Cast.placed {r : Rule} (h : r.Cast) (position offset : Nat) :
    (r.registered.moved position offset).Cast := by
  refine ⟨fun v hv => ?_, fun a ha => ?_, h.extraction⟩
  · simp only [moved, registered, List.map_map, List.mem_map] at hv
    obtain ⟨w, hw, rfl⟩ := hv
    exact h.bindings w hw
  · simp only [moved, registered, List.map_map, List.mem_map] at ha
    obtain ⟨b, hb, rfl⟩ := ha
    exact h.requirements b hb

/-! ### One rule -/

/-- All actions but the variables are successful when the requirements and the extraction
    are. -/
theorem Cast.all_trace {r : Rule} (h : r.Cast) (st : MatchState) :
    ((r.actions.map (·.trace st)).all fun t => t.role = .binding || t.outcome.isSuccess) =
      ((r.requirements.all fun a => (a.evaluate st).isSuccess) &&
        (r.extraction.evaluate st).isSuccess) := by
  have hbindings : r.bindings.all (fun v => decide (v.2.role = .binding) ||
      (v.2.evaluate st).isSuccess) = true := by
    rw [List.all_eq_true]
    intro v hv
    rw [h.bindings v hv]
    rfl
  have hrequirements : (r.requirements.all fun a => decide (a.role = .binding) ||
      (a.evaluate st).isSuccess) = r.requirements.all fun a => (a.evaluate st).isSuccess := by
    rw [Bool.eq_iff_iff, List.all_eq_true, List.all_eq_true]
    refine forall₂_congr fun a ha => ?_
    rw [h.requirements a ha]
    simp
  have hextraction : decide (r.extraction.role = .binding) = false := by
    rw [h.extraction]
    rfl
  simp only [actions, List.map_append, List.all_append, List.all_map, Function.comp_def,
    Action.trace, List.map_cons, List.map_nil, List.all_cons, List.all_nil, Bool.and_true,
    hbindings, hrequirements, hextraction, Bool.true_and, Bool.false_or]

/-- **A traced evaluation finds what a plain one finds**, and leaves the same state. -/
theorem Cast.evaluateTraced_eq {r : Rule} (h : r.Cast) (st : MatchState) :
    r.evaluateTraced st =
      (⟨r.name, true, (r.deliverVariables st).receivedBy r.index, r.requiredInputs,
        r.actions.map (·.trace (r.deliverVariables st)), (r.evaluate st).1⟩,
        (r.evaluate st).2) := by
  have hlast : (r.actions.map (·.trace (r.deliverVariables st))).getLast? =
      some (r.extraction.trace (r.deliverVariables st)) := by
    rw [actions, List.map_append, List.map_singleton, List.getLast?_concat]
  have hemission : (r.evaluate st).1 = r.emission? (r.deliverVariables st) := rfl
  rw [evaluateTraced, hemission, emission?]
  simp only [h.all_trace, hlast, Option.bind_some]
  congr 2
  -- Without a value the extraction is not successful, and nothing is emitted either way.
  cases hvalue : (r.extraction.evaluate (r.deliverVariables st)).value? with
  | none => simp [Outcome.isSuccess, hvalue]
  | some value => simp [Outcome.isSuccess, hvalue, Action.trace]

end Rule

/-! ### All rules -/

namespace RuleSet

/-- The trace of a rule that is looked at in a state. -/
def traceIn (st : MatchState) (r : Rule) : RuleTrace :=
  if passesGate st r then (r.evaluateTraced st).1 else r.skipped st

theorem classifyRuleTraced_eq {r : Rule} (h : r.Cast) (fields : Classification)
    (traces : List RuleTrace) (st : MatchState) :
    classifyRuleTraced (fields, traces, st) r =
      ((classifyRule (fields, st) r).1, traces ++ [traceIn st r],
        (classifyRule (fields, st) r).2) := by
  rw [classifyRuleTraced, classifyRule, traceIn]
  split
  · rw [h.evaluateTraced_eq]
    rcases r.evaluate st with ⟨_ | e, st'⟩ <;> rfl
  · rfl

/-- The traces of rules that are looked at one after the other. -/
def tracesFrom (progress : Classification × MatchState) : List Rule → List RuleTrace
  | [] => []
  | r :: rules => traceIn progress.2 r :: tracesFrom (classifyRule progress r) rules

/-- **A traced run goes the way of the plain one** and adds the traces of the rules. -/
theorem foldl_classifyRuleTraced {rules : List Rule} (h : ∀ r ∈ rules, r.Cast)
    (progress : Classification × MatchState) (traces : List RuleTrace) :
    rules.foldl classifyRuleTraced (progress.1, traces, progress.2) =
      ((rules.foldl classifyRule progress).1, traces ++ tracesFrom progress rules,
        (rules.foldl classifyRule progress).2) := by
  induction rules generalizing progress traces with
  | nil => rw [tracesFrom, List.append_nil]; rfl
  | cons r rules ih =>
    obtain ⟨hr, hrules⟩ := List.forall_mem_cons.mp h
    rw [List.foldl_cons, classifyRuleTraced_eq hr, ih hrules, List.foldl_cons, tracesFrom,
      List.append_assoc]
    rfl

theorem map_rule_tracesFrom {rules : List Rule} (h : ∀ r ∈ rules, r.Cast)
    (progress : Classification × MatchState) :
    (tracesFrom progress rules).map (·.rule) = rules.map (·.name) := by
  induction rules generalizing progress with
  | nil => rfl
  | cons r rules ih =>
    obtain ⟨hr, hrules⟩ := List.forall_mem_cons.mp h
    rw [tracesFrom, List.map_cons, List.map_cons, ih hrules, traceIn]
    split
    · rw [hr.evaluateTraced_eq]
    · rfl

/-- Each rule has its trace at its own position, made in the state in which the plain run looks
    at the rule. -/
theorem getElem?_tracesFrom (progress : Classification × MatchState) (rules : List Rule) (i : Nat) :
    (tracesFrom progress rules)[i]? =
      (rules[i]?).map (traceIn ((rules.take i).foldl classifyRule progress).2) := by
  induction rules generalizing progress i with
  | nil => rfl
  | cons r rules ih =>
    cases i with
    | zero => rfl
    | succ i => exact ih (classifyRule progress r) i

/-- A trace has the emission that the rule adds to the fields. -/
theorem emission_traceIn {r : Rule} (h : r.Cast) (st : MatchState) :
    (traceIn st r).emission = finding passesGate st r := by
  rw [traceIn, finding]
  split
  · rw [h.evaluateTraced_eq]
  · rfl

variable {rs : RuleSet} {lookups : Lookups} {verbose : Bool}

theorem cast_of_build {ds : List RuleDefinition} (h : build lookups verbose ds = .ok rs) :
    ∀ r ∈ rs.rules, r.Cast := by
  intro r hr
  obtain ⟨d, alone, position, offset, hcompile, rfl⟩ := stands_of_mem_rules h hr
  exact (Rule.cast_of_compile hcompile).placed position offset

/-- The candidates that a walk finds and that are kept are those that actions have after it. -/
theorem accepted_collect (h : rs.WellFormed) (root : Place) (st : MatchState) :
    (rs.collect root st).accepted = (rs.collect root st).holders rs.actions :=
  (informed_collect h root st).accepted_eq h.nodup_ids (List.Subset.refl _)
    (MatchState.holders_new _ _ _).symm

theorem classifyTraced_eq {ds : List RuleDefinition} (h : build lookups verbose ds = .ok rs)
    (root : Place) :
    rs.classifyTraced root =
      (rs.classify root, ⟨(rs.collect root rs.newState).informs,
        (rs.collect root rs.newState).accepted,
        tracesFrom (.empty, rs.collect root rs.newState) rs.rules⟩) := by
  rw [classifyTraced]
  simp only [foldl_classifyRuleTraced (cast_of_build h) (.empty, rs.collect root rs.newState),
    List.nil_append]
  rfl

/-- **A trace tells what a classification does and does not change it.** The fields are those of
    a plain classification. There is one trace for each definition, in order; it says that the
    rule did not pass the gate exactly when the plain run skips it, it has the emission that the
    plain run gets from the rule, if it does not skip it, and for each action of a rule that is
    not skipped what becomes of the action once the variables are delivered. The candidates that
    count as accepted are those that actions have after the walk. -/
theorem classifyTraced_faithful {ds : List RuleDefinition}
    (h : build lookups verbose ds = .ok rs) (root : Place) :
    (rs.classifyTraced root).1 = rs.classify root ∧
      (rs.classifyTraced root).2.rules.map (·.rule) = ds.map (·.name) ∧
      (∀ before r after, rs.rules = before ++ r :: after →
        ∃ t, (rs.classifyTraced root).2.rules[before.length]? = some t ∧
          t.rule = r.name ∧
          t.passedGate = passesGate (rs.stateAfter root before) r ∧
          t.emission = (if passesGate (rs.stateAfter root before) r then
            (r.evaluate (rs.stateAfter root before)).1 else none) ∧
          t.actions.map (fun u => (u.id, u.outcome)) =
            if passesGate (rs.stateAfter root before) r then
              r.actions.map fun a =>
                (a.id, a.evaluate (r.deliverVariables (rs.stateAfter root before)))
            else []) ∧
      (rs.classifyTraced root).2.accepted =
        rs.actions.countP fun a => ((rs.collect root rs.newState).candidate? a.id).isSome := by
  obtain ⟨hwf, -⟩ := rules_of_build h
  have hcast := cast_of_build h
  rw [classifyTraced_eq h]
  refine ⟨rfl, ?_, fun before r after hrules => ?_, accepted_collect hwf root _⟩
  · rw [map_rule_tracesFrom hcast, map_name_rules h]
  · have hr : r.Cast := hcast r (hrules ▸ List.mem_append_right _ List.mem_cons_self)
    refine ⟨traceIn (rs.stateAfter root before) r, ?_, ?_⟩
    · rw [hrules, getElem?_tracesFrom, List.take_left]
      simp [stateAfter]
    · rw [traceIn]
      by_cases hgate : passesGate (rs.stateAfter root before) r
      · rw [if_pos hgate, if_pos hgate, if_pos hgate, hr.evaluateTraced_eq, List.map_map]
        exact ⟨rfl, hgate.symm, rfl, rfl⟩
      · rw [if_neg hgate, if_neg hgate, if_neg hgate]
        exact ⟨rfl, (Bool.not_eq_true _ ▸ hgate).symm, rfl, rfl⟩

/-- Three rules: the first is skipped, the second fires by way of a variable, and the third
    passes the gate but does not meet its requirement. -/
theorem classifyTraced_faithful_on_product :
    let ds : List RuleDefinition :=
      [⟨"url", [], [], ⟨"Url", 1, "agent.url"⟩⟩,
        ⟨"product", [⟨"Product", "agent.(0)product"⟩], ["@Product.version"],
          ⟨"Name", 1, "@Product.name"⟩⟩,
        ⟨"version", [], ["agent.product.version~\"6\""], ⟨"Version", 1, "agent.product"⟩⟩]
    let root : Place := ⟨[], .agent [.product "Moz" "5"]⟩
    ∃ rs, build .empty false ds = .ok rs ∧ (rs.classifyTraced root).1 = rs.classify root ∧
      (rs.classifyTraced root).2.rules.map (·.rule) = ["url", "product", "version"] ∧
      (rs.classifyTraced root).2.rules.map (fun t => (t.passedGate, t.emission.isSome)) =
        [(false, false), (true, true), (true, false)] := by
  intro ds root
  let steps := fun rs : RuleSet =>
    (rs.classifyTraced root).2.rules.map fun t => (t.passedGate, t.emission.isSome)
  have hsteps : (build .empty false ds).toOption.map steps =
      some [(false, false), (true, true), (true, false)] := by
    decide +kernel
  cases hrs : build .empty false ds with
  | error e => simp [hrs, Except.toOption] at hsteps
  | ok rs =>
    obtain ⟨hfields, hrules, -⟩ := classifyTraced_faithful hrs root
    rw [hrs] at hsteps
    exact ⟨rs, rfl, hfields, hrules, Option.some.inj hsteps⟩

end RuleSet

end AgentRules
