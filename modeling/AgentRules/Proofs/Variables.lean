/-
  Variables.

  Where a variable ends, the actions that start from it begin: each of them is informed of the
  place and the value that the program of the variable made of its own candidate.

  A variable starts from variables before it only (`Rule.Declared`), and the variables are
  delivered in order. So when the turn of a variable comes it has the candidate that it has in
  the end, and what it hands on is what its program makes of this candidate
  (`Rule.candidate?_delivered`). This holds of one variable and the actions that start from it,
  and thereby along chains of any length (`RuleSet.evaluate_substitutes`).
-/
import AgentRules.Proofs.Building

namespace AgentRules

/-! ### Compiled expressions -/

namespace Term

theorem splitIsNull_fst (t : Term) :
    t.splitIsNull.1 = decide (t.wrappers.head? = some .isNull) := by
  rw [splitIsNull]
  split
  · rename_i wrappers hwrappers
    simp [hwrappers]
  · rename_i wrappers hwrappers
    rw [eq_comm, decide_eq_false_iff_not, List.head?_eq_some_iff]
    rintro ⟨rest, hrest⟩
    exact hwrappers rest hrest

/-- Only a literal has a value before there is a tree. -/
theorem compile_of_path {lookups : Lookups} {pruned : Bool} {t : Term} {c : Compiled}
    (hpath : ∀ text, t.path ≠ .literal text) (h : t.compile lookups pruned = .ok c) :
    ∃ p, c = .program p ∧ p.isNull = decide (t.wrappers.head? = some .isNull) := by
  rw [← splitIsNull_fst]
  rw [compile] at h
  dsimp only at h
  split at h
  · exact absurd h (by simp)
  · split at h
    · exact absurd ‹_› (hpath _)
    · exact ⟨_, (Except.ok.inj h).symm, rfl⟩

/-- **A program has the steps that remain of a path and then those of the functions**, and is that
    of an expression that is no literal. -/
theorem program_of_compile {lookups : Lookups} {pruned : Bool} {t : Term} {p : Program}
    (h : t.compile lookups pruned = .ok (.program p)) :
    (∀ text, t.path ≠ .literal text) ∧
      ∃ functions, Wrapper.compileAll lookups t.splitIsNull.2 = .ok functions ∧
        let steps := t.path.remaining.map Step.ofPathStep ++ functions.reverse
        p = ⟨if pruned then Step.prune steps else steps, t.splitIsNull.1⟩ := by
  unfold compile at h
  dsimp only at h
  cases hfunctions : Wrapper.compileAll lookups t.splitIsNull.2 with
  | error fault => simp [hfunctions] at h
  | ok functions =>
    rw [hfunctions] at h
    dsimp only at h
    cases hpath : t.path with
    | literal text =>
      rw [hpath] at h
      dsimp only at h
      split at h
      · exact absurd h (by simp)
      · cases hfold : Step.foldLiteral text text functions.reverse <;>
          simp [hfold, Except.map] at h
    | fromRoot steps | fromVariable name steps =>
      rw [hpath] at h
      exact ⟨by simp, functions, rfl, (Compiled.program.inj (Except.ok.inj h)).symm⟩

end Term

namespace Action

/-- An action starts from a variable when its path does. -/
theorem variableName?_eq_some {a : Action} {name : String} :
    a.expression.variableName? = some name ↔ ∃ steps, a.path = .fromVariable name steps := by
  rw [Expression.variableName?, path]
  cases a.expression.root.path with
  | fromVariable start steps => simp
  | fromRoot steps => simp
  | literal text => simp

theorem resolve?_eq_none {a : Action} {st : MatchState} (hst : st.candidate? a.id = none) :
    a.resolve? st = none := by
  rw [resolve?, hst]
  cases a.compiled with
  | fixed value => rfl
  | program p => simp

theorem resolve?_eq_some {a : Action} {p : Program} (hp : a.compiled = .program p)
    {st : MatchState} {result : Result} :
    a.resolve? st = some result ↔
      p.isNull = false ∧ ∃ c, st.candidate? a.id = some c ∧
        p.run c.place c.value = some result := by
  rw [resolve?, hp]
  dsimp only
  by_cases hnull : p.isNull
  · simp [hnull]
  · simp [hnull, Option.bind_eq_some_iff]

/-- Where an action ends depends on its candidate only. -/
theorem resolve?_congr {a : Action} {st st' : MatchState}
    (h : st'.candidate? a.id = st.candidate? a.id) : a.resolve? st' = a.resolve? st := by
  rw [resolve?, resolve?, h]

end Action

theorem Outcome.value?_eq_some {o : Outcome} {value : String} :
    o.value? = some value ↔ o = .matched value ∨ o = .fixed value := by
  cases o <;> simp [Outcome.value?]

theorem Rule.path_of_mem_dependents {r : Rule} {a : Action} (ha : a ∈ r.dependents) :
    ∃ name steps, a.path = .fromVariable name steps := by
  obtain ⟨-, hname⟩ := List.mem_filter.mp ha
  obtain ⟨name, hname⟩ := Option.isSome_iff_exists.mp hname
  exact ⟨name, Action.variableName?_eq_some.mp hname⟩

/-! ### Rules of a set -/

/-- What a variable hands on of the place and the value with which it ended. -/
def Result.candidate (result : Result) (name : String) : Candidate :=
  ⟨.ofVariable name, result.place, result.value⟩

namespace Rule

/-- What holds of the actions of a rule in a set: they have different numbers and the variables
    different names, they have the programs of their expressions, and only paths from the root
    are filed. -/
structure Filed (r : Rule) : Prop where
  ids : (r.actions.map (·.id)).Nodup
  names : (r.bindings.map (·.1)).Nodup
  compiled : ∀ a ∈ r.actions,
    ∃ lookups pruned, a.expression.root.compile lookups pruned = .ok a.compiled
  informs : ∀ a ∈ r.actions, a.informs = a.path.filings.length

/-- What the names of a rule mean: a variable starts from variables before it only and is no
    fixed value, and all other actions start from variables of the rule. -/
structure Declared (r : Rule) : Prop where
  earlier : ∀ (i : Nat) (v : String × Action), r.bindings[i]? = some v →
    ∀ name, v.2.expression.variableName? = some name → name ∈ (r.bindings.take i).map (·.1)
  known : ∀ a ∈ r.requirements ++ [r.extraction],
    ∀ name, a.expression.variableName? = some name → name ∈ r.bindings.map (·.1)
  notFixed : ∀ v ∈ r.bindings, v.2.compiled.fixed? = none

namespace Filed

variable {r : Rule} (hr : r.Filed)

include hr

theorem eq_of_id_eq {a b : Action} (ha : a ∈ r.actions) (hb : b ∈ r.actions) (h : a.id = b.id) :
    a = b :=
  List.inj_on_of_nodup_map hr.ids ha hb h

/-- An action that must have a candidate starts from the root. -/
theorem path_of_mustHave {a : Action} (ha : a ∈ r.actions) (hmust : a.mustHave) :
    ∃ steps, a.path = .fromRoot steps := by
  rw [Action.mustHave, Bool.and_eq_true, decide_eq_true_eq, hr.informs a ha] at hmust
  cases hpath : a.path with
  | fromRoot steps => exact ⟨steps, rfl⟩
  | literal text => simp [hpath, Path.filings] at hmust
  | fromVariable name steps => simp [hpath, Path.filings] at hmust

/-- An action that starts from a variable can do without a candidate. -/
theorem mustHave_dependent {a : Action} (ha : a ∈ r.dependents) : a.mustHave = false := by
  have hmem : a ∈ r.actions := List.mem_of_mem_filter ha
  obtain ⟨name, steps, hpath⟩ := path_of_mem_dependents ha
  rw [← Bool.not_eq_true]
  intro hmust
  obtain ⟨steps', hroot⟩ := hr.path_of_mustHave hmem hmust
  exact absurd (hpath.symm.trans hroot) (by simp)

/-- A program asks for a missing value exactly when its expression does. -/
theorem isNull_eq {a : Action} (ha : a ∈ r.actions) {p : Program} (hp : a.compiled = .program p) :
    p.isNull = a.expression.usesIsNull := by
  obtain ⟨lookups, pruned, hcompile⟩ := hr.compiled a ha
  rw [hp] at hcompile
  obtain ⟨-, functions, -, rfl⟩ := Term.program_of_compile hcompile
  exact Term.splitIsNull_fst a.expression.root

/-- An action that starts from a variable keeps one candidate. -/
theorem capacity_eq_one {a : Action} (ha : a ∈ r.actions) {name : String}
    (hname : a.expression.variableName? = some name) : a.capacity = 1 := by
  obtain ⟨lookups, pruned, hcompile⟩ := hr.compiled a ha
  obtain ⟨steps, hpath⟩ := Action.variableName?_eq_some.mp hname
  have hnotLiteral : ∀ text, a.path ≠ .literal text := by simp [hpath]
  obtain ⟨p, hp, -⟩ := Term.compile_of_path hnotLiteral hcompile
  rw [Action.capacity, hp]
  rfl

end Filed

namespace Declared

variable {r : Rule} (hr : r.Declared)

include hr

theorem mem_before {before after : List (String × Action)} {v : String × Action}
    (hbindings : r.bindings = before ++ v :: after) {name : String}
    (hname : v.2.expression.variableName? = some name) : name ∈ before.map (·.1) := by
  have hget : r.bindings[before.length]? = some v := by
    rw [hbindings, List.getElem?_append_right (Nat.le_refl _), Nat.sub_self]
    rfl
  have hmem := hr.earlier before.length v hget name hname
  rwa [hbindings, List.take_left] at hmem

/-- A variable that starts from another one stands after it. -/
theorem mem_after (hfiled : r.Filed) {before after : List (String × Action)}
    {v : String × Action} (hbindings : r.bindings = before ++ v :: after) {w : String × Action}
    (hw : w ∈ r.bindings) (hname : w.2.expression.variableName? = some v.1) : w ∈ after := by
  have hnames : ((before ++ v :: after).map (·.1)).Nodup := hbindings ▸ hfiled.names
  have hfresh : v.1 ∉ before.map (·.1) := by
    intro hmem
    obtain ⟨u, hu, hsame⟩ := List.mem_map.mp hmem
    exact ne_of_nodup_map hnames u (List.mem_append_left _ hu) hsame
  rw [hbindings] at hw
  rcases List.mem_append.mp hw with hw | hw
  · obtain ⟨first, rest, rfl⟩ := List.append_of_mem hw
    rw [List.append_assoc] at hbindings
    have hmem : v.1 ∈ first.map (·.1) := hr.mem_before hbindings hname
    rw [List.map_append] at hfresh
    exact absurd (List.mem_append_left _ hmem) hfresh
  · rcases List.mem_cons.mp hw with rfl | hw
    · exact absurd (hr.mem_before hbindings hname) hfresh
    · exact hw

/-- Every action starts from a variable of the rule, if it starts from one. -/
theorem exists_binding {a : Action} (ha : a ∈ r.actions) {name : String}
    (hname : a.expression.variableName? = some name) : ∃ v, (name, v) ∈ r.bindings := by
  have hmem : name ∈ r.bindings.map (·.1) := by
    simp only [actions, List.append_assoc, List.mem_append (s := r.bindings.map (·.2))] at ha
    rcases ha with ha | ha
    · obtain ⟨v, hv, rfl⟩ := List.mem_map.mp ha
      obtain ⟨i, hi⟩ := List.getElem?_of_mem hv
      have htake := hr.earlier i v hi name hname
      rw [List.map_take] at htake
      exact List.mem_of_mem_take htake
    · exact hr.known a ha name hname
  obtain ⟨⟨_, v⟩, hv, rfl⟩ := List.mem_map.mp hmem
  exact ⟨v, hv⟩

theorem exists_program {v : String × Action} (hv : v ∈ r.bindings) :
    ∃ p, v.2.compiled = .program p := by
  have hnone := hr.notFixed v hv
  cases hcompiled : v.2.compiled with
  | fixed value => simp [hcompiled, Compiled.fixed?] at hnone
  | program p => exact ⟨p, rfl⟩

/-- Filing a rule and moving it to its place leave the names. -/
theorem placed (position offset : Nat) : (r.registered.moved position offset).Declared := by
  have hnames : ∀ vs : List (String × Action),
      (vs.map fun v => (v.1, v.2.registered.moved position offset)).map (·.1) = vs.map (·.1) := by
    intro vs
    rw [List.map_map]
    rfl
  have hbindings : (r.registered.moved position offset).bindings =
      r.bindings.map fun v => (v.1, v.2.registered.moved position offset) := by
    simp [moved, registered, Function.comp_def]
  have hplain : (r.registered.moved position offset).requirements ++
      [(r.registered.moved position offset).extraction] =
        (r.requirements ++ [r.extraction]).map fun a => a.registered.moved position offset := by
    simp [moved, registered, Function.comp_def]
  refine ⟨fun i v hv name hname => ?_, fun a ha name hname => ?_, fun v hv => ?_⟩
  · rw [hbindings, List.getElem?_map, Option.map_eq_some_iff] at hv
    obtain ⟨w, hw, rfl⟩ := hv
    rw [hbindings, ← List.map_take, hnames]
    exact hr.earlier i w hw name hname
  · rw [hplain] at ha
    obtain ⟨b, hb, rfl⟩ := List.mem_map.mp ha
    rw [hbindings, hnames]
    exact hr.known b hb name hname
  · rw [hbindings] at hv
    obtain ⟨w, hw, rfl⟩ := List.mem_map.mp hv
    exact hr.notFixed w hw

end Declared

theorem notFixed_of_buildVariables {site : Site} {names : List String} {id : ActionId}
    {ds : List Binding} {vs : List (String × Action)}
    (h : buildVariables site names id ds = .ok vs) : ∀ v ∈ vs, v.2.compiled.fixed? = none := by
  induction ds generalizing names id vs with
  | nil =>
    obtain rfl := Except.ok.inj h
    simp
  | cons d ds ih =>
    obtain ⟨-, a, rest, -, hnone, hrest, rfl⟩ := buildVariables_cons_eq_ok.mp h
    exact List.forall_mem_cons.mpr ⟨hnone, ih hrest⟩

theorem declared_of_compile {site : Site} {id : ActionId} {d : RuleDefinition} {r : Rule}
    (h : compile site id d = .ok r) : r.Declared := by
  obtain ⟨bs, as, a, hbs, -, -, hvariables, hrequirements, hextraction, rfl⟩ :=
    compile_eq_ok.mp h
  rw [checkVariables_eq_ok] at hvariables
  rw [checkAll_eq_ok] at hrequirements
  refine ⟨fun i v hv => checkVariable_eq_ok.mp ?_, ?_, notFixed_of_buildVariables hbs⟩
  · simpa using hvariables i v hv
  · refine List.forall_mem_append.mpr ⟨fun b hb => ?_, ?_⟩
    · exact checkVariable_eq_ok.mp (hrequirements b hb)
    · exact List.forall_mem_singleton.mpr (checkVariable_eq_ok.mp hextraction)

end Rule

namespace RuleSet

variable {rs : RuleSet} {lookups : Lookups} {verbose : Bool} {ds : List RuleDefinition}

theorem filed_of_build (h : build lookups verbose ds = .ok rs) {r : Rule} (hr : r ∈ rs.rules) :
    r.Filed := by
  obtain ⟨hwf, -⟩ := rules_of_build h
  obtain ⟨d, alone, position, offset, hcompile, rfl⟩ := stands_of_mem_rules h hr
  have hbuilt := Rule.built_of_compile hcompile
  refine ⟨?_, ?_, fun a ha => ?_, fun a ha => hwf.informs a (WellFormed.mem_actions hr ha)⟩
  · rw [hwf.numbers _ hr]
    exact List.nodup_range'
  · have hnames := hbuilt.names
    simpa [Rule.moved, Rule.registered, Function.comp_def] using hnames
  · rw [Rule.actions_moved, Rule.actions_registered, List.map_map] at ha
    obtain ⟨b, hb, rfl⟩ := List.mem_map.mp ha
    obtain ⟨pruned, hpruned⟩ := (hbuilt.actions b hb).compiled
    exact ⟨lookups, pruned, hpruned⟩

theorem declared_of_build (h : build lookups verbose ds = .ok rs) {r : Rule}
    (hr : r ∈ rs.rules) : r.Declared := by
  obtain ⟨d, alone, position, offset, hcompile, rfl⟩ := stands_of_mem_rules h hr
  exact (Rule.declared_of_compile hcompile).placed position offset

/-- The index informs no action that starts from a variable. -/
theorem candidate?_collect_dependent (h : rs.WellFormed) (root : Place) {r : Rule}
    (hr : r ∈ rs.rules) {a : Action} (ha : a ∈ r.dependents) :
    (rs.collect root rs.newState).candidate? a.id = none := by
  have hmem : a ∈ r.actions := List.mem_of_mem_filter ha
  obtain ⟨name, steps, hpath⟩ := Rule.path_of_mem_dependents ha
  rw [candidate?_collect h root (slots_newState rs) (WellFormed.mem_actions hr hmem),
    Action.first, hpath]
  simp [Path.candidateAt, Path.routeAlong]

end RuleSet

/-! ### Delivering variables -/

namespace Rule

section Delivering

variable {r : Rule} (hr : r.Filed)

include hr

/-- **An action keeps its slot while variables are delivered from which it does not start.** -/
theorem getElem?_slots_foldl_deliverVariable {b : Action} (hb : b ∈ r.actions)
    {vs : List (String × Action)} (hvs : ∀ v ∈ vs, b.expression.variableName? ≠ some v.1)
    (st : MatchState) : (vs.foldl r.deliverVariable st).slots[b.id]? = st.slots[b.id]? := by
  apply (r.informed_foldl_deliverVariable vs st).getElem?_slots_of_ne
  intro a ha hid
  obtain ⟨v, hv, hlistens⟩ := List.mem_flatMap.mp ha
  obtain ⟨hmem, hname⟩ := List.mem_filter.mp hlistens
  obtain rfl : a = b := hr.eq_of_id_eq hmem hb hid
  exact hvs v hv (decide_eq_true_eq.mp hname)

/-- An action that starts from a variable gets what the variable hands on when its turn comes,
    unless it has a candidate before. -/
theorem candidate?_deliverVariables {before after : List (String × Action)}
    {v : String × Action} (hbindings : r.bindings = before ++ v :: after) {b : Action}
    (hb : b ∈ r.actions) (hname : b.expression.variableName? = some v.1) (st : MatchState) :
    (r.deliverVariables st).candidate? b.id =
      (st.candidate? b.id).or (if 0 < b.capacity ∧ b.id < st.slots.size then
        (v.2.resolve? (before.foldl r.deliverVariable st)).map (·.candidate v.1) else none) := by
  have hnames : ((before ++ v :: after).map (·.1)).Nodup := hbindings ▸ hr.names
  have hothers : ∀ w ∈ before ++ after, b.expression.variableName? ≠ some w.1 := by
    intro w hw hstart
    have hsame : v.1 = w.1 := Option.some.inj (hname.symm.trans hstart)
    exact ne_of_nodup_map hnames w hw hsame.symm
  set now := before.foldl r.deliverVariable st
  have hbefore : now.slots[b.id]? = st.slots[b.id]? :=
    getElem?_slots_foldl_deliverVariable hr hb
      (fun w hw => hothers w (List.mem_append_left _ hw)) st
  have hafter : (r.deliverVariables st).candidate? b.id =
      (r.deliverVariable now v).candidate? b.id := by
    rw [deliverVariables, hbindings, List.foldl_append, List.foldl_cons]
    apply MatchState.candidate?_congr
    exact getElem?_slots_foldl_deliverVariable hr hb
      (fun w hw => hothers w (List.mem_append_right _ hw)) _
  have hsize : now.slots.size = st.slots.size :=
    (r.informed_foldl_deliverVariable before st).size_slots
  have hlistener : b ∈ r.listeners v.1 := List.mem_filter.mpr ⟨hb, decide_eq_true hname⟩
  have hids : ((r.listeners v.1).map (·.id)).Nodup := hr.ids.sublist (List.filter_sublist.map _)
  rw [hafter, deliverVariable, deliverTo]
  cases v.2.resolve? now with
  | none => simp [MatchState.candidate?_congr hbefore]
  | some result =>
    dsimp only
    rw [MatchState.candidate?_foldl_inform hids hlistener, hsize,
      MatchState.candidate?_congr hbefore]
    rfl

/-- **What a variable hands on is what it ends with.** When all variables are delivered, an
    action that starts from one of them has the place and the value with which the variable
    ended, unless it had a candidate before. -/
theorem candidate?_delivered (hdeclared : r.Declared) {v : String × Action}
    (hv : v ∈ r.bindings) {b : Action} (hb : b ∈ r.actions)
    (hname : b.expression.variableName? = some v.1) (st : MatchState) :
    (r.deliverVariables st).candidate? b.id =
      (st.candidate? b.id).or (if 0 < b.capacity ∧ b.id < st.slots.size then
        (v.2.resolve? (r.deliverVariables st)).map (·.candidate v.1) else none) := by
  obtain ⟨before, after, hbindings⟩ := List.append_of_mem hv
  have hnames : ((before ++ v :: after).map (·.1)).Nodup := hbindings ▸ hr.names
  -- The variable starts from one before it, so from its turn on it keeps its candidate.
  have hlater : ∀ w ∈ v :: after, v.2.expression.variableName? ≠ some w.1 := by
    intro w hw hstart
    have hmem : w.1 ∈ before.map (·.1) := hdeclared.mem_before hbindings hstart
    rw [List.map_append] at hnames
    exact (List.nodup_append.mp hnames).2.2 w.1 hmem w.1 (List.mem_map_of_mem hw) rfl
  have hsame : (r.deliverVariables st).candidate? v.2.id =
      (before.foldl r.deliverVariable st).candidate? v.2.id := by
    rw [deliverVariables, hbindings, List.foldl_append]
    apply MatchState.candidate?_congr
    exact getElem?_slots_foldl_deliverVariable hr (snd_mem_actions hv) hlater _
  rw [candidate?_deliverVariables hr hbindings hb hname, Action.resolve?_congr hsame]

end Delivering

/-- **What a rule finds once its variables are delivered**: the value of its extraction, when all
    requirements have a value. -/
theorem emission?_eq_some {r : Rule} {st : MatchState} {e : Emission} :
    r.emission? st = some e ↔
      (∀ a ∈ r.requirements, ∃ value, a.evaluate st = .matched value ∨
        a.evaluate st = .fixed value) ∧
      ∃ value, (r.extraction.evaluate st = .matched value ∨
        r.extraction.evaluate st = .fixed value) ∧ e = r.emission value := by
  have hsuccess : (r.requirements.all fun a => (a.evaluate st).isSuccess) = true ↔
      ∀ a ∈ r.requirements, ∃ value, a.evaluate st = .matched value ∨
        a.evaluate st = .fixed value := by
    rw [List.all_eq_true]
    refine forall₂_congr fun a _ => ?_
    rw [Outcome.isSuccess, Option.isSome_iff_exists]
    exact exists_congr fun value => Outcome.value?_eq_some
  rw [emission?, ← hsuccess]
  by_cases hall : r.requirements.all fun a => (a.evaluate st).isSuccess
  · rw [if_pos hall, Option.map_eq_some_iff, and_iff_right hall]
    refine exists_congr fun value => ?_
    rw [Outcome.value?_eq_some, eq_comm (a := e)]
  · rw [if_neg hall]
    simp [hall]

end Rule

/-! ### After a walk -/

namespace RuleSet

variable {rs : RuleSet} {lookups : Lookups} {verbose : Bool} {ds : List RuleDefinition}

/-- After a walk no action that starts from a variable has a candidate, so in the end each has
    what its variable hands on. -/
theorem candidate?_evaluate_dependent (h : build lookups verbose ds = .ok rs) {r : Rule}
    (hr : r ∈ rs.rules) (root : Place) {v : String × Action} (hv : v ∈ r.bindings) {a : Action}
    (ha : a ∈ r.actions) (hname : a.expression.variableName? = some v.1) :
    (r.evaluate (rs.collect root rs.newState)).2.candidate? a.id =
      (v.2.resolve? (r.evaluate (rs.collect root rs.newState)).2).map (·.candidate v.1) := by
  obtain ⟨hwf, -⟩ := rules_of_build h
  have hfiled : r.Filed := filed_of_build h hr
  have hdependent : a ∈ r.dependents := List.mem_filter.mpr ⟨ha, by rw [hname]; rfl⟩
  have hempty : (rs.collect root rs.newState).candidate? a.id = none :=
    candidate?_collect_dependent hwf root hr hdependent
  have hcapacity : 0 < a.capacity := by
    rw [hfiled.capacity_eq_one ha hname]
    exact Nat.one_pos
  have hslot : a.id < (rs.collect root rs.newState).slots.size :=
    (fits_newState hwf root).lt hwf hr ha
  have hdelivered := Rule.candidate?_delivered hfiled (declared_of_build h hr) hv ha hname
    (rs.collect root rs.newState)
  rwa [hempty, Option.none_or, if_pos ⟨hcapacity, hslot⟩] at hdelivered

/-- **Variables mean substitution of their result.** After a walk and the evaluation of a rule,
    an action of the rule that starts from a variable has a candidate exactly when the program
    of the variable got through from the variable's own candidate, and the candidate is where
    it ended. The variable is the one of this name in the rule and stands before the action if
    the action is a variable itself. All other actions have what the walk found for them. The
    rule fires when its requirements and its extraction have values with these candidates, and
    what it finds is the value of the extraction. -/
theorem evaluate_substitutes (h : build lookups verbose ds = .ok rs) {r : Rule}
    (hr : r ∈ rs.rules) (root : Place) :
    let walked := rs.collect root rs.newState
    let final := (r.evaluate walked).2
    (∀ a ∈ r.actions, ∀ name, a.expression.variableName? = some name →
      ∃ before v after p, r.bindings = before ++ (name, v) :: after ∧
        (∀ w ∈ before ++ after, w.1 ≠ name) ∧
        (∀ own, (own, a) ∈ r.bindings → (own, a) ∈ after) ∧
        v.compiled = .program p ∧
        ∀ c, final.candidate? a.id = some c ↔
          v.expression.usesIsNull = false ∧ ∃ start result,
            final.candidate? v.id = some start ∧
            p.run start.place start.value = some result ∧
            c = ⟨.ofVariable name, result.place, result.value⟩) ∧
    (∀ a ∈ r.actions, a.expression.variableName? = none →
      final.candidate? a.id = walked.candidate? a.id) ∧
    ∀ e, (r.evaluate walked).1 = some e ↔
      (∀ a ∈ r.requirements, ∃ value, a.evaluate final = .matched value ∨
        a.evaluate final = .fixed value) ∧
      ∃ value, (r.extraction.evaluate final = .matched value ∨
        r.extraction.evaluate final = .fixed value) ∧
        e = ⟨r.field, value, r.confidence, r.name⟩ := by
  intro walked final
  have hfiled : r.Filed := filed_of_build h hr
  have hdeclared : r.Declared := declared_of_build h hr
  refine ⟨?_, ?_, ?_⟩
  · intro a ha name hname
    obtain ⟨v, hv⟩ := hdeclared.exists_binding ha hname
    obtain ⟨p, hp⟩ := hdeclared.exists_program hv
    obtain ⟨before, after, hbindings⟩ := List.append_of_mem hv
    refine ⟨before, v, after, p, hbindings, ?_, ?_, hp, fun c => ?_⟩
    · exact ne_of_nodup_map (hbindings ▸ hfiled.names)
    · intro own hown
      exact hdeclared.mem_after hfiled hbindings hown hname
    · have hdelivered : final.candidate? a.id = (v.resolve? final).map (·.candidate name) :=
        candidate?_evaluate_dependent h hr root hv ha hname
      rw [hdelivered, Option.map_eq_some_iff, ← hfiled.isNull_eq (Rule.snd_mem_actions hv) hp]
      simp only [Action.resolve?_eq_some hp]
      constructor
      · rintro ⟨result, ⟨hnull, start, hstart, hrun⟩, rfl⟩
        exact ⟨hnull, start, result, hstart, hrun, rfl⟩
      · rintro ⟨hnull, start, result, hstart, hrun, rfl⟩
        exact ⟨result, ⟨hnull, start, hstart, hrun⟩, rfl⟩
  · intro a ha hname
    apply MatchState.candidate?_congr
    apply Rule.getElem?_slots_foldl_deliverVariable hfiled ha
    intro v _
    rw [hname]
    exact (Option.some_ne_none v.1).symm
  · intro e
    exact Rule.emission?_eq_some

/-- A variable that starts from another one, which starts from the root: what is found in the
    tree reaches a requirement by way of both. -/
theorem evaluate_substitutes_along_chain :
    let ds : List RuleDefinition :=
      [⟨"chain", [⟨"Product", "agent.(0)product"⟩, ⟨"Version", "@Product.(0)version"⟩],
        ["@Version"], ⟨"Name", 1, "@Product.(0)name"⟩⟩]
    let root : Place := ⟨[], .agent [.product "Moz" "5"]⟩
    ∃ rs, build .empty false ds = .ok rs ∧ ∃ r ∈ rs.rules,
      let final := (r.evaluate (rs.collect root rs.newState)).2
      r.dependents.length = 3 ∧
      (∀ a ∈ r.dependents, ∃ name v p start result, (name, v) ∈ r.bindings ∧
        v.compiled = .program p ∧ final.candidate? v.id = some start ∧
        p.run start.place start.value = some result ∧
        final.candidate? a.id = some ⟨.ofVariable name, result.place, result.value⟩) ∧
      r.requirements.map (·.evaluate final) = [.matched "5"] ∧
      (r.evaluate (rs.collect root rs.newState)).1 = some ⟨"Name", "Moz", 1, "chain"⟩ := by
  intro ds root
  let reached := fun (rs : RuleSet) (r : Rule) =>
    let evaluated := r.evaluate (rs.collect root rs.newState)
    decide (r.dependents.length = 3) &&
      (r.dependents.all fun a => (evaluated.2.candidate? a.id).isSome) &&
      decide (r.requirements.map (·.evaluate evaluated.2) = [.matched "5"]) &&
      decide (evaluated.1 = some ⟨"Name", "Moz", 1, "chain"⟩)
  have hreached : (build .empty false ds).toOption.any fun rs => rs.rules.any (reached rs) := by
    decide +kernel
  cases hrs : build .empty false ds with
  | error e => simp [hrs, Except.toOption] at hreached
  | ok rs =>
    simp only [hrs, Except.toOption, Option.any_some, List.any_eq_true] at hreached
    obtain ⟨r, hr, hreached⟩ := hreached
    simp only [reached, Bool.and_eq_true, decide_eq_true_eq, List.all_eq_true] at hreached
    obtain ⟨⟨⟨hcount, hall⟩, hversion⟩, hemission⟩ := hreached
    refine ⟨rs, rfl, r, hr, hcount, fun a ha => ?_, hversion, hemission⟩
    obtain ⟨hmem, hstarts⟩ := List.mem_filter.mp ha
    obtain ⟨name, hname⟩ := Option.isSome_iff_exists.mp hstarts
    obtain ⟨c, hc⟩ := Option.isSome_iff_exists.mp (hall a ha)
    obtain ⟨before, v, after, p, hbindings, -, -, hp, hcandidate⟩ :=
      (evaluate_substitutes hrs hr root).1 a hmem name hname
    obtain ⟨-, start, result, hstart, hrun, rfl⟩ := (hcandidate c).mp hc
    refine ⟨name, v, p, start, result, ?_, hp, hstart, hrun, hc⟩
    rw [hbindings]
    exact List.mem_append_right _ List.mem_cons_self

end RuleSet

end AgentRules
