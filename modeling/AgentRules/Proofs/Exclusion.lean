/-
  Checks for a missing value against their expressions.

  A rule may require an expression, or require that it has no value. Of two rules that do so and
  find a fixed value otherwise, exactly one fires (`isNull_excludes`).

  The two rules go different ways. The gate asks for a candidate of the plain requirement and
  lets the check pass without one, and with a candidate the outcome of the program counts in
  opposite senses. But both requirements have the same path, so after a walk they have the same
  candidate or both have none (`Action.first`), and their programs have the same steps
  (`Term.program_of_compile_wrap_isNull`). Where the gate skips a rule the requirement would have
  failed, so whether a rule fires is whether its requirement is successful (`firesAt_eq`). That a
  rule fires is what a traced classification notes down as its emission (`firesAt_eq_emission`).
-/
import AgentRules.Proofs.Compile
import AgentRules.Proofs.Trace

namespace AgentRules

/-! ### The two programs -/

/-- A check inside another function has no step. -/
theorem Wrapper.isNull_notMem_of_compileAll {lookups : Lookups} {ws : List Wrapper}
    {functions : List Step} (h : compileAll lookups ws = .ok functions) : .isNull ∉ ws := by
  induction ws generalizing functions with
  | nil => simp
  | cons w ws ih =>
    rw [compileAll] at h
    cases hw : w.compile lookups with
    | error fault => simp [hw] at h
    | ok step =>
      rw [hw] at h
      cases hws : compileAll lookups ws with
      | error fault => simp [hws, Except.map] at h
      | ok steps =>
        have hne : .isNull ≠ w := by
          rintro rfl
          simp [Wrapper.compile] at hw
        have hnot : .isNull ∉ ws := ih hws
        simp [hne, hnot]

/-- **A check has the steps of its expression**, and asks that they fail. -/
theorem Term.program_of_compile_wrap_isNull {lookups : Lookups} {pruned : Bool} {t : Term}
    {c c' : Compiled} (hpath : ∀ text, t.path ≠ .literal text)
    (h : t.compile lookups pruned = .ok c)
    (h' : (t.wrap .isNull).compile lookups pruned = .ok c') :
    ∃ steps, c = .program ⟨steps, false⟩ ∧ c' = .program ⟨steps, true⟩ := by
  obtain ⟨p, rfl, -⟩ := Term.compile_of_path hpath h
  obtain ⟨p', rfl, -⟩ := Term.compile_of_path (t := t.wrap .isNull) hpath h'
  obtain ⟨-, functions, hfunctions, rfl⟩ := Term.program_of_compile h
  obtain ⟨-, functions', hfunctions', rfl⟩ := Term.program_of_compile h'
  have hsplit' : (t.wrap .isNull).splitIsNull = (true, t.wrappers) := rfl
  rw [hsplit'] at hfunctions'
  have hsplit : t.splitIsNull = (false, t.wrappers) :=
    Term.splitIsNull_of_notMem (Wrapper.isNull_notMem_of_compileAll hfunctions') t.path
  rw [hsplit] at hfunctions
  have hsame : functions = functions' := Except.ok.inj (hfunctions.symm.trans hfunctions')
  rw [hsplit, hsplit', hsame]
  exact ⟨_, rfl, rfl⟩

/-- A literal has a value before there is a tree. -/
theorem Term.exists_fixed_of_compile {lookups : Lookups} {pruned : Bool} {t : Term} {text : String}
    (hpath : t.path = .literal text) {c : Compiled} (h : t.compile lookups pruned = .ok c) :
    ∃ value, c = .fixed value := by
  cases c with
  | fixed value => exact ⟨value, rfl⟩
  | program p => exact absurd hpath ((Term.program_of_compile h).1 text)

/-! ### Rules with one requirement -/

/-- A literal is not filed, so the gate does not ask for it. -/
theorem Action.mustHave_registered_of_literal {a : Action} {text : String}
    (h : a.path = .literal text) : a.registered.mustHave = false := by
  have hfilings : a.path.filings.length = 0 := by rw [h]; rfl
  simp [registered, mustHave, hfilings]

namespace Rule

/-- A rule in a set that has no variables and a single requirement, and finds a fixed value. -/
structure Guarded (r : Rule) (a : Action) : Prop where
  bindings : r.bindings = []
  requirements : r.requirements = [a]
  fixed : ∃ value, r.extraction.compiled = .fixed value
  mustHave : r.extraction.mustHave = false
  program : ∃ p, a.compiled = .program p

variable {r : Rule} {a : Action}

/-- A definition with one requirement and a literal to extract is built into a guarded rule,
    wherever it is placed. -/
theorem guarded_of_compile {site : Site} {id : ActionId} {name text : String}
    {extract : Extraction} (h : compile site id ⟨name, [], [text], extract⟩ = .ok r)
    {m : Expression} (hm : Expression.parse text = .ok m) {steps : List PathStep}
    (hpath : m.root.path = .fromRoot steps) {e : Expression} {value : String}
    (he : Expression.parse extract.expression = .ok e) (hvalue : e.root.path = .literal value)
    (position offset : Nat) :
    ∃ a, (r.registered.moved position offset).Guarded a ∧ a.expression = m ∧
      m.root.compile site.lookups true = .ok a.compiled := by
  obtain ⟨bs, as, x, hbs, has, hx, -, -, -, rfl⟩ := compile_eq_ok.mp h
  obtain rfl := Except.ok.inj hbs
  obtain ⟨a, rest, ha, hrest, rfl⟩ := buildRequirements_cons_eq_ok.mp has
  obtain rfl := Except.ok.inj hrest
  obtain ⟨m', c, hparse, hc, rfl⟩ := buildAction_eq_ok.mp ha
  obtain ⟨e', f, hparse', hf, rfl⟩ := buildAction_eq_ok.mp hx
  obtain rfl : m = m' := Except.ok.inj (hm.symm.trans hparse)
  obtain rfl : e = e' := Except.ok.inj (he.symm.trans hparse')
  obtain ⟨p, hp, -⟩ := Term.compile_of_path (by simp [hpath]) hc
  exact ⟨_, ⟨rfl, rfl, Term.exists_fixed_of_compile hvalue hf,
    Action.mustHave_registered_of_literal hvalue, ⟨p, hp⟩⟩, rfl, hc⟩

theorem Guarded.mem_actions (h : r.Guarded a) : a ∈ r.actions := by
  rw [actions, h.requirements]
  simp

/-- **A guarded rule finds something exactly when its requirement is successful.** -/
theorem Guarded.isSome_evaluate (h : r.Guarded a) (st : MatchState) :
    (r.evaluate st).1.isSome = (a.evaluate st).isSuccess := by
  obtain ⟨value, hvalue⟩ := h.fixed
  have hdeliver : r.deliverVariables st = st := by rw [deliverVariables, h.bindings]; rfl
  have hextraction : r.extraction.evaluate st = .fixed value := by rw [Action.evaluate, hvalue]
  rw [evaluate, hdeliver, emission?, h.requirements, hextraction]
  cases hsuccess : (a.evaluate st).isSuccess with
  | false => simp [hsuccess]
  | true => simp [hsuccess, Outcome.value?]

end Rule

namespace RuleSet

variable {lookups : Lookups} {verbose : Bool} {ds : List RuleDefinition} {rs : RuleSet}

/-- Whether the rule at a position fires: when its turn comes in a classification the gate lets
    it pass, and it finds something. -/
def firesAt (rs : RuleSet) (root : Place) (i : Nat) : Bool :=
  ((rs.rules[i]?).bind (finding passesGate (rs.stateAfter root (rs.rules.take i)))).isSome

/-- **A rule fires where a traced classification notes down an emission for it.** -/
theorem firesAt_eq_emission (h : build lookups verbose ds = .ok rs) (root : Place) (i : Nat) :
    rs.firesAt root i = (((rs.classifyTraced root).2.rules[i]?).bind (·.emission)).isSome := by
  rw [firesAt, classifyTraced_eq h, getElem?_tracesFrom]
  cases hr : rs.rules[i]? with
  | none => rfl
  | some r =>
    have hcast : r.Cast := cast_of_build h r (List.mem_of_getElem? hr)
    rw [Option.map_some, Option.bind_some, Option.bind_some, emission_traceIn hcast]
    rfl

/-- It does not matter that other rules are evaluated before. -/
theorem firesAt_of_wellFormed (h : rs.WellFormed) (root : Place) {i : Nat} {r : Rule}
    (hr : rs.rules[i]? = some r) :
    rs.firesAt root i = (finding passesGate (rs.collect root rs.newState) r).isSome := by
  obtain ⟨hlt, hget⟩ := List.getElem?_eq_some_iff.mp hr
  have hrules : rs.rules = rs.rules.take i ++ r :: rs.rules.drop (i + 1) := by
    rw [← hget, ← List.drop_eq_getElem_cons hlt, List.take_append_drop]
  have hnow := rs.informed_stateAfter root (rs.rules.take i)
  have hfits := fits_newState h root
  have hfinding := finding_eq h (steady_passesGate h) hfits
    (hfits.informed_before h hrules hnow) (List.mem_of_getElem? hr) fun a ha =>
      candidate?_of_informed_before h hrules hnow ha
  rw [firesAt, hr, Option.bind_some, hfinding]

/-- **A guarded rule fires exactly when its requirement is successful after the walk.** The gate
    does not change this: it skips the rule only if the requirement would fail. -/
theorem firesAt_eq (h : rs.WellFormed) (root : Place) {i : Nat} {r : Rule}
    (hr : rs.rules[i]? = some r) {a : Action} (hguarded : r.Guarded a) :
    rs.firesAt root i = (a.evaluate (rs.collect root rs.newState)).isSuccess := by
  have hmem : r ∈ rs.rules := List.mem_of_getElem? hr
  rw [firesAt_of_wellFormed h root hr, finding]
  by_cases hgate : passesGate (rs.collect root rs.newState) r
  · rw [if_pos hgate, hguarded.isSome_evaluate]
  · -- Some action that must have a candidate has none, and it is not the extraction.
    rw [if_neg hgate, eq_comm]
    obtain ⟨b, hb, hinvalid⟩ := (passesGate_eq_false_iff h (fits_newState h root) hmem).mp
      (Bool.not_eq_true _ ▸ hgate)
    obtain ⟨hmust, hnone⟩ := (b.cannotBeValid_iff _).mp hinvalid
    have hb : b = a := by
      rw [Rule.actions, hguarded.bindings, hguarded.requirements] at hb
      have hcases : b = a ∨ b = r.extraction := by simpa using hb
      refine hcases.resolve_right ?_
      rintro rfl
      simp [hguarded.mustHave] at hmust
    subst hb
    obtain ⟨p, hp⟩ := hguarded.program
    rw [Action.isSuccess_evaluate_program hp, hnone]
    simp [hmust]

/-- A definition with one requirement and a literal to extract stands in its set as a guarded
    rule. -/
theorem guarded_of_build (h : build lookups verbose ds = .ok rs) {i : Nat} {name text : String}
    {extract : Extraction} (hi : ds[i]? = some ⟨name, [], [text], extract⟩) {m : Expression}
    (hm : Expression.parse text = .ok m) {steps : List PathStep}
    (hpath : m.root.path = .fromRoot steps) {e : Expression} {value : String}
    (he : Expression.parse extract.expression = .ok e) (hvalue : e.root.path = .literal value) :
    ∃ r a, rs.rules[i]? = some r ∧ r.Guarded a ∧ a.expression = m ∧
      m.root.compile lookups true = .ok a.compiled := by
  obtain ⟨-, hall⟩ := rules_of_build h
  obtain ⟨hlt, hd⟩ := List.getElem?_eq_some_iff.mp hi
  have hlt' : i < rs.rules.length := hall.length_eq ▸ hlt
  have hstands : Stands lookups verbose ds[i] rs.rules[i] := hall.get hlt hlt'
  rw [hd] at hstands
  obtain ⟨alone, position, offset, hcompile, hr⟩ := hstands
  obtain ⟨a, ha⟩ := Rule.guarded_of_compile hcompile hm hpath he hvalue position offset
  rw [← hr] at ha
  exact ⟨rs.rules[i], a, List.getElem?_eq_getElem hlt', ha⟩

/-- **A check for a missing value excludes its expression.** Take two rules without variables and
    with the same literal to extract, in one set or in two sets with the same tables. If the one
    requires an expression that starts from the root of the tree and the other requires that
    this expression has no value, then in every tree exactly one of them fires. -/
theorem isNull_excludes {verbose' : Bool} {ds' : List RuleDefinition} {rs' : RuleSet}
    (h : build lookups verbose ds = .ok rs) (h' : build lookups verbose' ds' = .ok rs')
    {i j : Nat} {name name' text text' : String} {extract : Extraction}
    (hi : ds[i]? = some ⟨name, [], [text], extract⟩)
    (hj : ds'[j]? = some ⟨name', [], [text'], extract⟩)
    {m m' : Expression} (hm : Expression.parse text = .ok m)
    (hm' : Expression.parse text' = .ok m') (hnull : m'.root = m.root.wrap .isNull)
    {steps : List PathStep} (hpath : m.root.path = .fromRoot steps)
    {e : Expression} {value : String} (he : Expression.parse extract.expression = .ok e)
    (hvalue : e.root.path = .literal value) (root : Place) :
    rs'.firesAt root j = !rs.firesAt root i := by
  obtain ⟨hwf, -⟩ := rules_of_build h
  obtain ⟨hwf', -⟩ := rules_of_build h'
  have hpath' : m'.root.path = .fromRoot steps := by rw [hnull]; exact hpath
  obtain ⟨r, a, hr, hguarded, hexpr, hcompile⟩ := guarded_of_build h hi hm hpath he hvalue
  obtain ⟨r', b, hr', hguarded', hexpr', hcompile'⟩ := guarded_of_build h' hj hm' hpath' he hvalue
  rw [hnull] at hcompile'
  obtain ⟨program, hp, hp'⟩ :=
    Term.program_of_compile_wrap_isNull (by simp [hpath]) hcompile hcompile'
  -- Both requirements have the first candidate of one path.
  have hfirst : a.first root = b.first root := by
    have hcapacity : a.capacity = b.capacity := by
      rw [Action.capacity, Action.capacity, hp, hp']
      rfl
    have hpaths : a.path = b.path := by
      rw [Action.path, Action.path, hexpr, hexpr', hpath, hpath']
    rw [Action.first, Action.first, hcapacity, hpaths]
  have hmust : b.mustHave = false := by
    have huses : m'.usesIsNull = true := by simp [Expression.usesIsNull, hnull, Term.wrap]
    simp [Action.mustHave, hexpr', huses]
  have hcandidate := candidate?_collect hwf root (slots_newState rs)
    (WellFormed.mem_actions (List.mem_of_getElem? hr) hguarded.mem_actions)
  have hcandidate' := candidate?_collect hwf' root (slots_newState rs')
    (WellFormed.mem_actions (List.mem_of_getElem? hr') hguarded'.mem_actions)
  rw [firesAt_eq hwf root hr hguarded, firesAt_eq hwf' root hr' hguarded',
    Action.isSuccess_evaluate_program hp, Action.isSuccess_evaluate_program hp', hcandidate,
    hcandidate', hfirst, hmust]
  -- Without a candidate the check fires; with one the program decides, in opposite senses.
  cases b.first root with
  | none => simp
  | some c =>
    have hrun : Program.run ⟨program, true⟩ c.place c.value =
        Program.run ⟨program, false⟩ c.place c.value := rfl
    cases hfound : Program.run ⟨program, false⟩ c.place c.value <;> simp [hrun, hfound]

/-- A name that has to hold an `x`, and the check that there is no such name. A product has a name
    that is tried and does not pass, so the check fires; of another one it passes, so the check
    does not fire. -/
theorem isNull_excludes_on_name :
    let ds : List RuleDefinition :=
      [⟨"holds", [], ["agent.product.name~\"x\""], ⟨"Kind", 1, "\"known\""⟩⟩,
        ⟨"lacks", [], ["IsNull[agent.product.name~\"x\"]"], ⟨"Kind", 1, "\"known\""⟩⟩]
    let without : Place := ⟨[], .agent [.product "Moz" "5"]⟩
    let within : Place := ⟨[], .agent [.product "Xbox" "1"]⟩
    ∃ rs, build .empty false ds = .ok rs ∧
      (rs.firesAt without 0 = false ∧ rs.firesAt without 1 = true) ∧
      rs.firesAt within 0 = true ∧ rs.firesAt within 1 = false := by
  intro ds without within
  have hplain : (build .empty false ds).toOption.map
      (fun rs => (rs.firesAt without 0, rs.firesAt within 0)) = some (false, true) := by
    decide +kernel
  cases hrs : build .empty false ds with
  | error e => simp [hrs, Except.toOption] at hplain
  | ok rs =>
    rw [hrs] at hplain
    obtain ⟨hwithout, hwithin⟩ := Prod.mk.inj (Option.some.inj hplain)
    let steps : List PathStep := [.down .agent (.single 0), .down .product (.usual .product),
      .down .name (.usual .name), .test .contains "x"]
    let m : Expression := ⟨"agent.product.name~\"x\"", [], .fromRoot steps⟩
    let m' : Expression := ⟨"IsNull[agent.product.name~\"x\"]", [.isNull], .fromRoot steps⟩
    let known : Expression := ⟨"\"known\"", [], .literal "known"⟩
    have hm : Expression.parse m.text = .ok m := by decide +kernel
    have hm' : Expression.parse m'.text = .ok m' := by decide +kernel
    have hknown : Expression.parse known.text = .ok known := by decide +kernel
    have hexcludes := fun root =>
      isNull_excludes hrs hrs (i := 0) (j := 1) rfl rfl hm hm' rfl rfl hknown rfl root
    have hcheck := hexcludes without
    have hcheck' := hexcludes within
    rw [hwithout] at hcheck
    rw [hwithin] at hcheck'
    exact ⟨rs, rfl, ⟨hwithout, hcheck⟩, hwithin, hcheck'⟩

end RuleSet

end AgentRules
