/-
  Which action a number addresses.

  The expressions of all definitions stand in one order: rule by rule as the rules are declared,
  and in each rule the variables, the requirements and the extraction (`RuleSet.declarations`).
  When a set is built, a number is drawn for each expression, an owner is written down for each
  number, and a rule looks a number up in three parts by its distance from the first. The three
  agree: a number below the number of actions leads to the action that was made of the expression
  at that place, in the one rule that knows it, and all other numbers lead nowhere
  (`RuleSet.action?_declared`).

  The actions of a rule are related to its expressions part by part (`Rule.of_compile`), and
  neither filing a rule nor moving it changes this. In a set that is well-formed the numbers are
  the places in the list of all actions, so the rest is a matter of lists.
-/
import AgentRules.Proofs.Building
import AgentRules.Proofs.Trace
import Mathlib.Algebra.GroupWithZero.Nat

namespace AgentRules

/-! ### Declared expressions -/

/-- An expression where it is declared. -/
structure Declaration where
  /-- The position of the definition it belongs to. -/
  rule : Nat
  role : Role
  text : String
  deriving DecidableEq, Repr

/-- The expressions of a definition, in the order of their numbers. -/
def RuleDefinition.declarations (rule : Nat) (d : RuleDefinition) : List Declaration :=
  d.bindings.map (fun b => ⟨rule, .binding, b.expression⟩) ++
    d.requirements.map (⟨rule, .requirement, ·⟩) ++ [⟨rule, .extraction, d.extract.expression⟩]

theorem RuleDefinition.length_declarations (rule : Nat) (d : RuleDefinition) :
    (d.declarations rule).length = d.actionCount := by
  simp only [declarations, actionCount, List.length_append, List.length_map, List.length_singleton]

/-- The expressions of all definitions, in the order of their numbers. -/
def RuleSet.declarations (ds : List RuleDefinition) : List Declaration :=
  ds.zipIdx.flatMap fun (d, rule) => d.declarations rule

/-- An action that was made of an expression. -/
structure Action.Of (p : Declaration) (a : Action) : Prop where
  rule : a.rule = p.rule
  role : a.role = p.role
  read : Expression.parse p.text = .ok a.expression

/-! ### One rule -/

namespace Rule

variable {site : Site}

/-- **A rule that is compiled has one action for each expression**, in the same order. -/
theorem of_compile {id : ActionId} {d : RuleDefinition} {r : Rule}
    (h : compile site id d = .ok r) :
    List.Forall₂ Action.Of (d.declarations site.index) r.actions := by
  have hrule : ∀ a ∈ r.actions, a.rule = site.index := fun a ha =>
    ((built_of_compile h).actions a ha).rule
  obtain ⟨bs, as, a, hbs, has, ha, -, -, -, rfl⟩ := compile_eq_ok.mp h
  simp only [actions, List.forall_mem_append, List.forall_mem_map, List.forall_mem_singleton]
    at hrule
  obtain ⟨⟨hbsrule, hasrule⟩, harule⟩ := hrule
  have hbindings : List.Forall₂ Action.Of
      (d.bindings.map fun b => ⟨site.index, .binding, b.expression⟩) (bs.map (·.2)) := by
    rw [List.forall₂_map_left_iff, List.forall₂_map_right_iff]
    have hread := (List.forall₂_and_left _ _).mpr ⟨role_of_buildVariables hbs,
      (List.forall₂_and_left _ _).mpr ⟨hbsrule, (read_of_buildVariables hbs).flip⟩⟩
    exact hread.flip.imp fun b v hv => ⟨hv.2.1, hv.1, hv.2.2.2⟩
  have hrequirements : List.Forall₂ Action.Of
      (d.requirements.map (⟨site.index, .requirement, ·⟩)) as := by
    rw [List.forall₂_map_left_iff]
    have hread := (List.forall₂_and_left _ _).mpr ⟨role_of_buildRequirements has,
      (List.forall₂_and_left _ _).mpr ⟨hasrule, (read_of_buildRequirements has).flip⟩⟩
    exact hread.flip.imp fun text b hb => ⟨hb.2.1, hb.1, hb.2.2⟩
  have hextraction : Action.Of ⟨site.index, .extraction, d.extract.expression⟩ a := by
    obtain ⟨e, compiled, hread, -, rfl⟩ := buildAction_eq_ok.mp ha
    exact ⟨rfl, rfl, hread⟩
  exact List.rel_append (List.rel_append hbindings hrequirements) (.cons hextraction .nil)

/-- Filing a rule keeps what its actions were made of. -/
theorem of_registered {ps : List Declaration} {r : Rule}
    (h : List.Forall₂ Action.Of ps r.actions) :
    List.Forall₂ Action.Of ps r.registered.actions := by
  rw [actions_registered, List.forall₂_map_right_iff]
  exact h.imp fun p a ha => ⟨ha.rule, ha.role, ha.read⟩

/-- A number is known to a rule when one of its actions has it. -/
theorem isSome_action?_iff {r : Rule}
    (h : r.actions.map (·.id) = List.range' r.firstId r.actions.length) {id : ActionId} :
    (r.action? id).isSome ↔ ∃ a ∈ r.actions, a.id = id := by
  rw [Option.isSome_iff_exists]
  exact exists_congr fun a => action?_eq_some h

end Rule

/-! ### Sets -/

namespace RuleSet

variable {lookups : Lookups} {verbose : Bool} {rs : RuleSet} {ds : List RuleDefinition}

/-- A rule keeps its expressions wherever it stands. -/
theorem of_stands {d : RuleDefinition} {r : Rule} (h : Stands lookups verbose d r) :
    List.Forall₂ Action.Of (d.declarations r.index) r.actions := by
  obtain ⟨alone, position, offset, hcompile, rfl⟩ := h
  have hmoved : Rule.compile ⟨lookups, position, verbose⟩ offset d =
      .ok (alone.moved position offset) := by
    rw [Rule.compile_moved, hcompile]
    rfl
  rw [← Rule.registered_moved]
  exact Rule.of_registered (Rule.of_compile hmoved)

/-- **The actions of a set were made of the expressions of its definitions**, in the same
    order. -/
theorem of_build (h : build lookups verbose ds = .ok rs) :
    List.Forall₂ Action.Of (declarations ds) rs.actions := by
  obtain ⟨hwf, hall⟩ := rules_of_build h
  obtain ⟨hlength, hstands⟩ := List.forall₂_iff_get.mp hall
  have hrules : List.Forall₂
      (fun (p : RuleDefinition × Nat) r => List.Forall₂ Action.Of (p.1.declarations p.2) r.actions)
      ds.zipIdx rs.rules := by
    refine List.forall₂_iff_get.mpr ⟨by rw [List.length_zipIdx, hlength], fun i hi hi' => ?_⟩
    have hdef : i < ds.length := hlength ▸ hi'
    have hindex : rs.rules[i].index = i :=
      (hwf.position i _ (List.getElem?_eq_getElem hi')).1
    have hof := of_stands (hstands i hdef hi')
    simpa [hindex] using hof
  exact List.rel_flatMap hrules fun _ _ hof => hof

namespace WellFormed

theorem length_actions (h : rs.WellFormed) : rs.actions.length = rs.actionCount := by
  simpa [actionCount] using congrArg List.length h.ids

/-- **The number of an action is its place** among all actions. -/
theorem action?_eq_getElem? (h : rs.WellFormed) (id : ActionId) :
    rs.action? id = rs.actions[id]? := by
  have hids : rs.actions.map (·.id) = List.range' 0 rs.actions.length := by
    rw [h.ids, h.length_actions, List.range_eq_range']
    rfl
  refine Option.ext fun a => ?_
  rw [h.action?_eq_some, getElem?_eq_some_iff_of_map_eq_range' hids, Nat.zero_add]

theorem map_index (h : rs.WellFormed) : rs.rules.map (·.index) = List.range rs.rules.length := by
  refine List.ext_getElem? fun i => ?_
  rw [List.getElem?_map]
  by_cases hi : i < rs.rules.length
  · have hrule := List.getElem?_eq_getElem hi
    rw [hrule, Option.map_some, (h.position i _ hrule).1, List.getElem?_range hi]
  · rw [List.getElem?_eq_none (Nat.not_lt.mp hi), List.getElem?_eq_none, Option.map_none]
    rw [List.length_range]
    exact Nat.not_lt.mp hi

/-- **A number is known to the rule that owns it and to no other.** -/
theorem isSome_action?_iff (h : rs.WellFormed) {a : Action} (ha : a ∈ rs.actions) {r : Rule}
    (hr : r ∈ rs.rules) : (r.action? a.id).isSome ↔ r.index = a.rule := by
  obtain ⟨q, hq, haq⟩ := List.mem_flatMap.mp ha
  rw [Rule.isSome_action?_iff (h.numbers r hr), h.rule_eq_index hq haq]
  constructor
  · rintro ⟨b, hb, hid⟩
    rw [h.eq_of_id_eq hr hq hb haq hid]
  · intro hindex
    obtain ⟨i, hi⟩ := List.getElem?_of_mem hq
    obtain ⟨j, hj⟩ := List.getElem?_of_mem hr
    -- The position of a rule finds it.
    rw [(h.position i q hi).1, (h.position j r hj).1] at hindex
    rw [hindex, hi] at hj
    exact ⟨a, Option.some.inj hj ▸ haq, rfl⟩

/-- Each number of an action is known to one rule, and any other number to none. -/
theorem countP_isSome_action? (h : rs.WellFormed) (id : ActionId) :
    rs.rules.countP (fun r => (r.action? id).isSome) = if id < rs.actionCount then 1 else 0 := by
  split
  · rename_i hid
    have hmem : id ∈ rs.actions.map (·.id) := by
      rw [h.ids]
      exact List.mem_range.mpr hid
    obtain ⟨a, ha, rfl⟩ := List.mem_map.mp hmem
    obtain ⟨r, hr, har⟩ := List.mem_flatMap.mp ha
    have howner : a.rule ∈ rs.rules.map (·.index) :=
      h.rule_eq_index hr har ▸ List.mem_map_of_mem hr
    calc rs.rules.countP (fun q => (q.action? a.id).isSome)
        = rs.rules.countP (fun q => q.index == a.rule) :=
          List.countP_congr fun q hq => by rw [h.isSome_action?_iff ha hq, beq_iff_eq]
      _ = (rs.rules.map (·.index)).count a.rule := by
          rw [List.count, List.countP_map]
          rfl
      _ = 1 := List.count_eq_one_of_mem (h.map_index ▸ List.nodup_range) howner
  · rename_i hid
    rw [List.countP_eq_zero]
    intro r hr hknown
    obtain ⟨a, ha, rfl⟩ := (Rule.isSome_action?_iff (h.numbers r hr)).mp hknown
    exact hid (h.id_lt (mem_actions hr ha))

end WellFormed

/-- There are as many expressions as the definitions have actions. -/
theorem length_declarations (ds : List RuleDefinition) :
    (declarations ds).length = (ds.map RuleDefinition.actionCount).sum := by
  have hfst : ds.zipIdx.map (·.1.actionCount) = ds.map RuleDefinition.actionCount := by
    rw [← List.zipIdx_map_fst 0 ds, List.map_map, List.zipIdx_map_fst]
    rfl
  rw [declarations, List.length_flatMap, ← hfst]
  simp only [RuleDefinition.length_declarations]

/-- **A number addresses the action that was made of the expression at its place.** The rules
    have the names of the definitions, in order, and there are as many actions as these have
    expressions. Below their number, the action that is found has the number and was read from
    the expression declared at that place; it belongs to the rule of the declaration, which
    stands at its position and finds the same action. Other numbers find nothing. And a number
    below that of the actions is known to exactly one rule, and any other to none. -/
theorem action?_declared (h : build lookups verbose ds = .ok rs) :
    rs.rules.map (·.name) = ds.map (·.name) ∧
      rs.actionCount = (ds.map RuleDefinition.actionCount).sum ∧
      (∀ id < rs.actionCount, ∃ a p r,
        rs.action? id = some a ∧ a.id = id ∧
        (declarations ds)[id]? = some p ∧ a.rule = p.rule ∧ a.role = p.role ∧
        Expression.parse p.text = .ok a.expression ∧
        rs.rules[p.rule]? = some r ∧ r.index = p.rule ∧ r.action? id = some a) ∧
      (∀ id, rs.actionCount ≤ id → rs.action? id = none) ∧
      ∀ id, rs.rules.countP (fun r => (r.action? id).isSome) =
        if id < rs.actionCount then 1 else 0 := by
  obtain ⟨hwf, -⟩ := rules_of_build h
  obtain ⟨hlength, hof⟩ := List.forall₂_iff_get.mp (of_build h)
  have hcount : (declarations ds).length = rs.actionCount := hlength.trans hwf.length_actions
  refine ⟨map_name_rules h, ?_, fun id hid => ?_, fun id hid => ?_, hwf.countP_isSome_action?⟩
  · rw [← hcount, length_declarations]
  · have hdeclared : id < (declarations ds).length := hcount ▸ hid
    have hplace : id < rs.actions.length := hwf.length_actions ▸ hid
    have hfound : rs.action? id = some rs.actions[id] :=
      (hwf.action?_eq_getElem? id).trans (List.getElem?_eq_getElem hplace)
    obtain ⟨hmem, haid⟩ := hwf.action?_eq_some.mp hfound
    obtain ⟨hrule, hrole, hread⟩ := hof id hdeclared hplace
    obtain ⟨r, hr, har⟩ := List.mem_flatMap.mp hmem
    obtain ⟨i, hi⟩ := List.getElem?_of_mem hr
    obtain ⟨hindex, hactions⟩ := hwf.position i r hi
    obtain rfl : i = (declarations ds)[id].rule := (hactions _ har).symm.trans hrule
    exact ⟨rs.actions[id], (declarations ds)[id], r, hfound, haid,
      List.getElem?_eq_getElem hdeclared, hrule, hrole, hread, hi, hindex,
      (Rule.action?_eq_some (hwf.numbers r hr)).mpr ⟨har, haid⟩⟩
  · rw [hwf.action?_eq_getElem?, List.getElem?_eq_none]
    rwa [hwf.length_actions]

/-- Two rules, the first with a variable and two requirements, the second with a variable of the
    same name: the number 5 is that of the second extraction, and of no other rule. -/
theorem action?_declared_last :
    let text := "CleanVersion[@Agent.name]"
    let ds : List RuleDefinition :=
      [⟨"url", [⟨"Agent", "agent.(0)product"⟩], ["@Agent.name", "agent.url"],
          ⟨"Url", 1, "agent.url"⟩⟩,
        ⟨"name", [⟨"Agent", "agent.(1)product"⟩], [], ⟨"Name", 2, text⟩⟩]
    ∃ rs a r, build .empty false ds = .ok rs ∧ rs.actionCount = 6 ∧
      rs.action? 5 = some a ∧ a.id = 5 ∧ a.rule = 1 ∧ a.role = .extraction ∧
      Expression.parse text = .ok a.expression ∧
      rs.rules[1]? = some r ∧ r.action? 5 = some a ∧
      rs.rules.countP (fun r => (r.action? 5).isSome) = 1 ∧ rs.action? 6 = none := by
  intro text ds
  have hbuilds : (build .empty false ds).toOption.isSome := by decide +kernel
  cases hrs : build .empty false ds with
  | error e => simp [hrs, Except.toOption] at hbuilds
  | ok rs =>
    obtain ⟨-, hcount, hbelow, habove, hone⟩ := action?_declared hrs
    have hsix : rs.actionCount = 6 := hcount
    have hfive : 5 < rs.actionCount := hsix ▸ by decide
    obtain ⟨a, p, r, ha, hid, hp, hrule, hrole, hread, hr, -, har⟩ := hbelow 5 hfive
    obtain rfl : p = ⟨1, .extraction, text⟩ := (Option.some.inj hp).symm
    have hknown := hone 5
    rw [if_pos hfive] at hknown
    exact ⟨rs, a, r, rfl, hsix, ha, hid, hrule, hrole, hread, hr, har, hknown,
      habove 6 (Nat.le_of_eq hsix)⟩

end RuleSet

end AgentRules
