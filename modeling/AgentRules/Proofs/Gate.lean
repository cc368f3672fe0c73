/-
  What the gate may skip.

  The gate skips a rule when some action that must have a candidate has none after the walk.
  The requirements and the extraction of a rule have to succeed, and so has a variable from
  which one of them starts, or another variable that is needed in turn; a check for a missing
  value needs nothing. A rule that misses a candidate of an action it needs finds nothing
  (`evaluate_eq_none`), so skipping it changes nothing (`gate_sound`).

  A rule may also have variables that it does not need. The gate asks for them all the same,
  and skips rules that would find something (`gate_skips_unneeded`).
-/
import AgentRules.Proofs.Variables

namespace AgentRules

/-! ### Actions without a candidate -/

namespace Action

/-- Whether an action cannot succeed without a candidate, be it from the index or from a
    variable. -/
structure Hungry (a : Action) : Prop where
  path : ∀ text, a.path ≠ .literal text
  notNull : a.expression.usesIsNull = false
  compiled : ∃ lookups pruned, a.expression.root.compile lookups pruned = .ok a.compiled

/-- **A hungry action without a candidate fails.** -/
theorem Hungry.evaluate_eq {a : Action} (h : a.Hungry) {st : MatchState}
    (hst : st.candidate? a.id = none) : a.evaluate st = .notMatched := by
  obtain ⟨lookups, pruned, hcompile⟩ := h.compiled
  obtain ⟨p, hp, hnull⟩ := Term.compile_of_path h.path hcompile
  have hfalse : p.isNull = false := hnull.trans h.notNull
  simp [Action.evaluate, hp, hst, hfalse]

theorem cannotBeValid_iff (a : Action) (st : MatchState) :
    a.cannotBeValid st ↔ a.mustHave ∧ st.candidate? a.id = none := by
  rw [cannotBeValid, Bool.and_eq_true, Option.isNone_iff_eq_none]

end Action

/-! ### Needed actions -/

namespace Rule

/-- Whether a rule needs an action to have a candidate: it is a requirement, the extraction, or
    a variable from which a needed action starts that is no check for a missing value. -/
inductive Needs (r : Rule) : Action → Prop
  | requirement {a : Action} (ha : a ∈ r.requirements) : Needs r a
  | extraction : Needs r r.extraction
  | binding {a b : Action} {name : String} (hb : Needs r b)
    (hnull : b.expression.usesIsNull = false) (hname : b.expression.variableName? = some name)
    (ha : (name, a) ∈ r.bindings) : Needs r a

theorem Needs.mem_actions {r : Rule} {a : Action} (h : r.Needs a) : a ∈ r.actions := by
  cases h with
  | requirement ha => exact List.mem_append_left _ (List.mem_append_right _ ha)
  | extraction => exact List.mem_append_right _ (List.mem_singleton.mpr rfl)
  | binding hb hnull hname ha => exact snd_mem_actions ha

section Evaluating

variable {r : Rule} (hr : r.Filed) {st : MatchState}

include hr

/-- **A variable without a candidate gives none** to the actions that start from it. -/
theorem candidate?_listener {v : String × Action} (hv : v ∈ r.bindings) {b : Action}
    (hb : b ∈ r.actions) (hname : b.expression.variableName? = some v.1)
    (hnone : (r.deliverVariables st).candidate? v.2.id = none) :
    (r.deliverVariables st).candidate? b.id = st.candidate? b.id := by
  obtain ⟨before, after, hbindings⟩ := List.append_of_mem hv
  -- It had no candidate either when its turn came, and so ended nowhere.
  have hbefore : (before.foldl r.deliverVariable st).candidate? v.2.id = none := by
    cases hc : (before.foldl r.deliverVariable st).candidate? v.2.id with
    | none => rfl
    | some c =>
      have hlater := r.informed_deliverVariables (v :: after) (before.foldl r.deliverVariable st)
      rw [← List.foldl_append, ← hbindings] at hlater
      exact absurd ((hlater.candidate?_eq_some hc).symm.trans hnone) (by simp)
  rw [candidate?_deliverVariables hr hbindings hb hname, Action.resolve?_eq_none hbefore]
  simp

/-- When a needed action that is no literal and no check for a missing value stays without a
    candidate, so do the needed actions that start from it, and in the end a requirement or
    the extraction fails. -/
theorem emission?_eq_none (hst : ∀ a ∈ r.dependents, st.candidate? a.id = none) {a : Action}
    (hneeds : r.Needs a) (hpath : ∀ text, a.path ≠ .literal text)
    (hnull : a.expression.usesIsNull = false)
    (hnone : (r.deliverVariables st).candidate? a.id = none) :
    r.emission? (r.deliverVariables st) = none := by
  induction hneeds with
  | @requirement a ha =>
    have hmem : a ∈ r.actions := (Needs.requirement ha).mem_actions
    have hfails := Action.Hungry.evaluate_eq ⟨hpath, hnull, hr.compiled a hmem⟩ hnone
    rw [emission?, if_neg]
    intro hall
    have hsuccess := List.all_eq_true.mp hall a ha
    rw [hfails] at hsuccess
    exact absurd hsuccess (by decide)
  | extraction =>
    have hmem : r.extraction ∈ r.actions := Needs.extraction.mem_actions
    have hfails := Action.Hungry.evaluate_eq ⟨hpath, hnull, hr.compiled _ hmem⟩ hnone
    rw [emission?, hfails]
    split <;> rfl
  | @binding a b name hb hbnull hname ha ih =>
    have hmem : b ∈ r.actions := hb.mem_actions
    refine ih (fun text htext => ?_) hbnull ?_
    · obtain ⟨steps, hstart⟩ := Action.variableName?_eq_some.mp hname
      exact absurd (hstart.symm.trans htext) (by simp)
    · rw [candidate?_listener hr ha hmem hname hnone]
      exact hst b (List.mem_filter.mpr ⟨hmem, by rw [hname]; rfl⟩)

/-- **A rule that misses a candidate it needs finds nothing.** -/
theorem evaluate_eq_none (hst : ∀ a ∈ r.dependents, st.candidate? a.id = none) {a : Action}
    (hneeds : r.Needs a) (hinvalid : a.cannotBeValid st) : (r.evaluate st).1 = none := by
  obtain ⟨hmust, hnone⟩ := (a.cannotBeValid_iff st).mp hinvalid
  obtain ⟨steps, hpath⟩ := hr.path_of_mustHave hneeds.mem_actions hmust
  have hnull : a.expression.usesIsNull = false := by
    rw [Action.mustHave, Bool.and_eq_true, Bool.not_eq_true'] at hmust
    exact hmust.2
  refine emission?_eq_none hr hst hneeds (by simp [hpath]) hnull ?_
  -- The action does not start from a variable, so no variable informs it.
  rw [← hnone]
  refine (r.informed_deliverVariables r.bindings st).candidate?_of_ne fun b hb hid => ?_
  obtain rfl : b = a := hr.eq_of_id_eq (List.mem_of_mem_filter hb) hneeds.mem_actions hid
  obtain ⟨name, steps', hstart⟩ := path_of_mem_dependents hb
  exact absurd (hstart.symm.trans hpath) (by simp)

end Evaluating

end Rule

/-! ### Rules of a set -/

namespace RuleSet

variable {rs : RuleSet}

/-- The gate skips a rule when some action of it cannot be valid. -/
theorem passesGate_eq_false_iff (h : rs.WellFormed) {st : MatchState} (hst : rs.Fits st)
    {r : Rule} (hr : r ∈ rs.rules) :
    passesGate st r = false ↔ ∃ a ∈ r.actions, a.cannotBeValid st := by
  rw [← Bool.not_eq_true, passesGate_iff h hst hr]
  simp only [Action.cannotBeValid_iff, not_forall, Option.not_isSome_iff_eq_none, exists_prop]

/-! ### Classifying without the gate -/

/-- The state in which a rule is looked at that stands after some others. -/
def stateAfter (rs : RuleSet) (root : Place) (before : List Rule) : MatchState :=
  (before.foldl classifyRule (.empty, rs.collect root rs.newState)).2

theorem informed_stateAfter (rs : RuleSet) (root : Place) (before : List Rule) :
    MatchState.Informed (before.flatMap Rule.actions) (rs.collect root rs.newState)
      (rs.stateAfter root before) :=
  informed_foldl_classifyRuleIf passesGate before _ _

/-- Classifies a tree without a gate: every rule is evaluated. -/
def classifyUngated (rs : RuleSet) (root : Place) : Classification :=
  (rs.rules.foldl (classifyRuleIf fun _ _ => true) (.empty, rs.collect root rs.newState)).1

theorem classifyUngated_eq (h : rs.WellFormed) (root : Place) :
    rs.classifyUngated root =
      (rs.rules.filterMap (finding (fun _ _ => true) (rs.collect root rs.newState))).foldl
        .offer .empty :=
  foldl_classifyRuleIf h (fun _ _ _ _ _ _ _ => rfl) (fits_newState h root)
    (List.nil_append _).symm .refl

/-- **What the gate skips.** It skips a rule exactly when some action that must have a candidate
    has none after the walk. If the rule needs one of these actions it would find nothing when
    its turn comes, so where this is so for all rules that are skipped, a classification is the
    same as one that evaluates every rule. -/
theorem gate_sound {lookups : Lookups} {verbose : Bool} {ds : List RuleDefinition}
    (h : build lookups verbose ds = .ok rs) (root : Place) :
    (∀ before r after, rs.rules = before ++ r :: after →
      (passesGate (rs.stateAfter root before) r = false ↔
        ∃ a ∈ r.actions, a.cannotBeValid (rs.collect root rs.newState)) ∧
      ∀ a, r.Needs a → a.cannotBeValid (rs.collect root rs.newState) →
        (r.evaluate (rs.stateAfter root before)).1 = none) ∧
    ((∀ r ∈ rs.rules, (∃ a ∈ r.actions, a.cannotBeValid (rs.collect root rs.newState)) →
        ∃ a, r.Needs a ∧ a.cannotBeValid (rs.collect root rs.newState)) →
      rs.classify root = rs.classifyUngated root) := by
  obtain ⟨hwf, -⟩ := rules_of_build h
  have hfiled : ∀ r ∈ rs.rules, r.Filed := fun r hr => filed_of_build h hr
  have hfits := fits_newState hwf root
  refine ⟨fun before r after hrules => ?_, fun hneeds => ?_⟩
  · have hr : r ∈ rs.rules := hrules ▸ List.mem_append_right _ List.mem_cons_self
    have hnow := rs.informed_stateAfter root before
    -- The rules before have left the candidates of this one as they were after the walk.
    have hsame : ∀ a ∈ r.actions, a.cannotBeValid (rs.stateAfter root before) =
        a.cannotBeValid (rs.collect root rs.newState) := by
      intro a ha
      rw [Action.cannotBeValid, candidate?_of_informed_before hwf hrules hnow ha]
      rfl
    constructor
    · rw [passesGate_eq_false_iff hwf (hfits.informed_before hwf hrules hnow) hr]
      exact exists_congr fun a => and_congr_right fun ha => by rw [hsame a ha]
    · intro a hneeds hinvalid
      refine Rule.evaluate_eq_none (hfiled r hr) (fun b hb => ?_) hneeds ?_
      · rw [candidate?_of_informed_before hwf hrules hnow (List.mem_of_mem_filter hb)]
        exact candidate?_collect_dependent hwf root hr hb
      · rw [hsame a hneeds.mem_actions]
        exact hinvalid
  · rw [classify_eq hwf, classifyUngated_eq hwf]
    refine congrArg _ (List.filterMap_congr fun r hr => ?_)
    rw [finding, finding, if_pos rfl]
    -- A rule that passes is evaluated either way, and one that is skipped finds nothing.
    by_cases hgate : passesGate (rs.collect root rs.newState) r
    · rw [if_pos hgate]
    · rw [if_neg hgate]
      obtain ⟨a, hneeds, hinvalid⟩ := hneeds r hr
        ((passesGate_eq_false_iff hwf hfits hr).mp (Bool.not_eq_true _ ▸ hgate))
      exact (Rule.evaluate_eq_none (hfiled r hr)
        (fun b hb => candidate?_collect_dependent hwf root hr hb) hneeds hinvalid).symm

/-- A rule that extracts the name of a product which is not there: the gate skips it, and it
    needs the variable. -/
theorem gate_sound_on_missing_product :
    let ds : List RuleDefinition :=
      [⟨"product", [⟨"Product", "agent.(0)product"⟩], [], ⟨"Name", 1, "@Product.(0)name"⟩⟩]
    let root : Place := ⟨[], .leaf .agent "x"⟩
    ∃ rs, build .empty false ds = .ok rs ∧
      (∃ r ∈ rs.rules, ∃ a ∈ r.actions, a.cannotBeValid (rs.collect root rs.newState)) ∧
      rs.classify root = rs.classifyUngated root := by
  intro ds root
  let missing := fun (rs : RuleSet) (r : Rule) => r.bindings.any fun v =>
    v.2.cannotBeValid (rs.collect root rs.newState) && !r.extraction.expression.usesIsNull &&
      r.extraction.expression.variableName? = some v.1
  have hskipped : (build .empty false ds).toOption.any fun rs =>
      rs.rules.all (missing rs) && !rs.rules.isEmpty := by
    decide +kernel
  cases hrs : build .empty false ds with
  | error e => simp [hrs, Except.toOption] at hskipped
  | ok rs =>
    simp only [hrs, Except.toOption, Option.any_some, Bool.and_eq_true, List.all_eq_true,
      Bool.not_eq_true', List.isEmpty_eq_false_iff_exists_mem] at hskipped
    obtain ⟨hmissing, r, hr⟩ := hskipped
    have hneeds : ∀ r ∈ rs.rules,
        ∃ a, r.Needs a ∧ a.cannotBeValid (rs.collect root rs.newState) := by
      intro r hr
      obtain ⟨⟨name, a⟩, ha, hinvalid⟩ := List.any_eq_true.mp (hmissing r hr)
      simp only [Bool.and_eq_true, Bool.not_eq_true', decide_eq_true_eq] at hinvalid
      exact ⟨a, .binding .extraction hinvalid.1.2 hinvalid.2 ha, hinvalid.1.1⟩
    refine ⟨rs, rfl, ⟨r, hr, ?_⟩, (gate_sound hrs root).2 fun r hr _ => hneeds r hr⟩
    obtain ⟨a, hneed, hinvalid⟩ := hneeds r hr
    exact ⟨a, hneed.mem_actions, hinvalid⟩

/-- **The gate also asks for variables that a rule does not need.** The extraction of this rule
    has a value and does not use the variable, which has none; the rule is skipped. -/
theorem gate_skips_unneeded :
    let ds : List RuleDefinition :=
      [⟨"root", [⟨"V", "agent.(0)product.(0)name"⟩], [], ⟨"F", 1, "agent"⟩⟩]
    let root : Place := ⟨[], .leaf .agent "x"⟩
    ∃ rs, build .empty false ds = .ok rs ∧
      (∃ r ∈ rs.rules, passesGate (rs.collect root rs.newState) r = false ∧
        (r.evaluate (rs.collect root rs.newState)).1 = some ⟨"F", "x", 1, "root"⟩) ∧
      rs.classify root ≠ rs.classifyUngated root := by
  intro ds root
  let fires := fun (rs : RuleSet) (r : Rule) =>
    !passesGate (rs.collect root rs.newState) r &&
      (r.evaluate (rs.collect root rs.newState)).1 = some ⟨"F", "x", 1, "root"⟩
  have hfires : (build .empty false ds).toOption.any fun rs => rs.rules.any (fires rs) &&
      ((rs.classify root).get? "F").isNone && ((rs.classifyUngated root).get? "F").isSome := by
    decide +kernel
  cases hrs : build .empty false ds with
  | error e => simp [hrs, Except.toOption] at hfires
  | ok rs =>
    simp only [hrs, Except.toOption, Option.any_some, Bool.and_eq_true, List.any_eq_true] at hfires
    obtain ⟨⟨⟨r, hr, hskipped⟩, hgated⟩, hungated⟩ := hfires
    simp only [fires, Bool.and_eq_true, Bool.not_eq_true', decide_eq_true_eq] at hskipped
    refine ⟨rs, rfl, ⟨r, hr, hskipped⟩, fun hsame => ?_⟩
    rw [hsame, Option.isNone_iff_eq_none] at hgated
    exact absurd hungated (by simp [hgated])

end RuleSet

end AgentRules
