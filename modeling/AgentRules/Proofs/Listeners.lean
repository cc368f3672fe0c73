/-
  Variables by name and by number.

  While a rule is compiled its actions are gone through once. Where an action starts from a
  variable, the place of the variable among those that it may use is looked up, and the number
  of the action is noted at this place; when a variable is delivered, the actions of the noted
  numbers are informed. Everything else is said by name: whether a variable may be used is
  checked in each part of the rule, and the actions that start from it are found in the rule.

  Both are the same. Noting fails where a check fails, with the same error, and what is noted
  otherwise are the numbers of the actions that are found by name (`Rule.listenerIds_eq`). In a
  set that builds these numbers find their actions, so a state is the same after a delivery by
  numbers and by names (`RuleSet.deliverNoted_eq`).
-/
import AgentRules.Proofs.Trace

namespace AgentRules

/-! ### Places of names -/

/-- What is kept at the place of a name is changed for this name only, if names differ. -/
theorem modify_map_of_idxOf? {α : Type} {seen others : List String}
    (hnd : (seen ++ others).Nodup) {name : String} {target : Nat}
    (htarget : seen.idxOf? name = some target) (f : String → α) (g : α → α) :
    ((seen ++ others).map f).modify target g =
      (seen ++ others).map fun n => if n = name then g (f n) else f n := by
  induction seen generalizing target with
  | nil => cases htarget
  | cons n seen ih =>
    rw [List.cons_append, List.nodup_cons] at hnd
    rw [List.idxOf?_cons] at htarget
    rw [List.cons_append, List.map_cons, List.map_cons]
    by_cases hn : n = name
    · -- The name does not come up again.
      obtain rfl : 0 = target := by simpa [hn] using htarget
      have hrest : ∀ m ∈ seen ++ others, (if m = name then g (f m) else f m) = f m := by
        intro m hm
        rw [if_neg]
        rintro rfl
        exact hnd.1 (hn ▸ hm)
      rw [List.modify_zero_cons, if_pos hn, List.map_congr_left hrest]
    · rw [if_neg (by simpa using hn), Option.map_eq_some_iff] at htarget
      obtain ⟨before, hbefore, rfl⟩ := htarget
      rw [List.modify_succ_cons, ih hnd.2 hbefore, if_neg hn]

namespace Rule

/-! ### Noting and checking -/

/-- The numbers of those of some actions that start from a variable. -/
def startingIds (as : List Action) (name : String) : List ActionId :=
  (as.filter (·.expression.variableName? = some name)).map (·.id)

theorem startingIds_cons (a : Action) (as : List Action) (name : String) :
    startingIds (a :: as) name = startingIds [a] name ++ startingIds as name := by
  rw [startingIds, startingIds, startingIds, ← List.map_append, ← List.filter_append,
    List.singleton_append]

theorem startingIds_append (as bs : List Action) (name : String) :
    startingIds (as ++ bs) name = startingIds as name ++ startingIds bs name := by
  rw [startingIds, List.filter_append, List.map_append]
  rfl

/-- **Noting an action is checking its variable.** When the check passes the number is added for
    this variable. -/
theorem note_eq (seen others : List String) (hnd : (seen ++ others).Nodup) {position : Nat}
    {a : Action} (hvisible : visible (seen ++ others) position a = seen)
    (noted : String → List ActionId) :
    note (seen ++ others) position ((seen ++ others).map noted) a =
      (checkVariable seen a).map fun _ =>
        (seen ++ others).map fun n => noted n ++ startingIds [a] n := by
  rw [note, checkVariable, hvisible]
  cases hname : a.expression.variableName? with
  | none => simp [startingIds, hname, Except.map]
  | some name =>
    dsimp only
    cases htarget : seen.idxOf? name with
    | none =>
      have hnot : name ∉ seen := List.idxOf?_eq_none_iff.mp htarget
      rw [if_neg (by simpa using hnot)]
      rfl
    | some target =>
      have hmem : name ∈ seen := by
        by_contra hnot
        rw [List.idxOf?_eq_none_iff.mpr hnot] at htarget
        cases htarget
      have hadded : ∀ n, noted n ++ startingIds [a] n =
          if n = name then noted n ++ [a.id] else noted n := by
        intro n
        by_cases hn : n = name
        · simp [startingIds, hname, hn]
        · simp [startingIds, hname, hn, Ne.symm hn]
      rw [if_pos (by simpa using hmem)]
      simp only [Except.map, hadded, modify_map_of_idxOf? hnd htarget noted]

/-- The variables are noted one after the other, each when those before it may be used. -/
theorem noteAll_variables {vs : List (String × Action)} (hroles : ∀ v ∈ vs, v.2.role = .binding)
    (seen : List String) (hnd : (seen ++ vs.map (·.1)).Nodup) (noted : String → List ActionId)
    (as : List Action) :
    let names := seen ++ vs.map (·.1)
    noteAll names seen.length (names.map noted) (vs.map (·.2) ++ as) =
      (checkVariables seen vs).bind fun _ =>
        noteAll names names.length
          (names.map fun n => noted n ++ startingIds (vs.map (·.2)) n) as := by
  induction vs generalizing seen noted with
  | nil => simp [checkVariables, startingIds, Except.bind]
  | cons v vs ih =>
    intro names
    obtain ⟨hrole, hroles⟩ := List.forall_mem_cons.mp hroles
    have hvisible : visible names seen.length v.2 = seen := by
      rw [visible, if_pos hrole, List.take_left]
    have hnames : (seen ++ [v.1]) ++ vs.map (·.1) = names := List.append_assoc _ _ _
    have hrest := ih hroles (seen ++ [v.1]) (by rw [hnames]; exact hnd) fun n =>
      noted n ++ startingIds [v.2] n
    simp only [hnames, List.length_append, List.length_singleton, List.append_assoc,
      ← startingIds_cons] at hrest
    rw [List.map_cons, List.cons_append, noteAll, note_eq seen _ hnd hvisible, checkVariables,
      if_pos hrole]
    cases checkVariable seen v.2 with
    | error e => rfl
    | ok _ => exact hrest

/-- What comes after the variables may start from all of them. -/
theorem noteAll_others {as : List Action} (hroles : ∀ a ∈ as, a.role ≠ .binding)
    {names : List String} (hnd : names.Nodup) (position : Nat) (noted : String → List ActionId) :
    noteAll names position (names.map noted) as =
      (checkAll names as).map fun _ => names.map fun n => noted n ++ startingIds as n := by
  induction as generalizing noted with
  | nil => simp [noteAll, checkAll, startingIds, Except.map]
  | cons a as ih =>
    obtain ⟨hrole, hroles⟩ := List.forall_mem_cons.mp hroles
    have hvisible : visible (names ++ []) position a = names := by
      rw [visible, if_neg hrole, List.append_nil]
    have hnote := note_eq names [] (by rwa [List.append_nil]) hvisible noted
    have hrest := ih hroles fun n => noted n ++ startingIds [a] n
    simp only [List.append_assoc, ← startingIds_cons] at hrest
    rw [List.append_nil] at hnote
    rw [noteAll, hnote, checkAll, if_neg hrole]
    cases checkVariable names a with
    | error e => rfl
    | ok _ => exact hrest

/-- **What is noted are the actions that are found by name**, and noting fails as the checks
    do. -/
theorem listenerIds_eq {r : Rule} (h : r.Cast) (hnd : (r.bindings.map (·.1)).Nodup) :
    r.listenerIds = (do
      checkVariables [] r.bindings
      checkAll (r.bindings.map (·.1)) (r.requirements ++ [r.extraction])
      .ok ((r.bindings.map (·.1)).map fun name => (r.listeners name).map (·.id))) := by
  have hplain : ∀ a ∈ r.requirements ++ [r.extraction], a.role ≠ .binding := by
    refine List.forall_mem_append.mpr ⟨fun a ha => ?_, List.forall_mem_singleton.mpr ?_⟩
    · rw [h.requirements a ha]
      decide
    · rw [h.extraction]
      decide
  have hlisteners : ∀ name, (r.listeners name).map (·.id) =
      startingIds (r.bindings.map (·.2)) name ++
        startingIds (r.requirements ++ [r.extraction]) name := by
    intro name
    rw [← startingIds_append, ← List.append_assoc]
    rfl
  have hvariables := noteAll_variables h.bindings [] hnd (fun _ => [])
    (r.requirements ++ [r.extraction])
  rw [listenerIds, actions, List.append_assoc]
  refine hvariables.trans ?_
  simp only [List.nil_append, noteAll_others hplain hnd, hlisteners]
  rfl

theorem checkAll_concat (names : List String) (as : List Action) (a : Action) :
    checkAll names (as ++ [a]) = (checkAll names as).bind fun _ => checkVariable names a := by
  induction as with
  | nil =>
    show checkAll names [a] = checkVariable names a
    rw [checkAll]
    cases checkVariable names a <;> rfl
  | cons b as ih =>
    rw [List.cons_append, checkAll, checkAll, ih]
    cases checkVariable names b <;> rfl

/-- **Compiling a rule is building its actions and noting them.** -/
theorem compile_eq_note (site : Site) (id : ActionId) (d : RuleDefinition) :
    compile site id d = (do
      let bindings ← buildVariables site [] id d.bindings
      let requirements ← buildRequirements site (id + bindings.length) d.requirements
      let extraction ← buildAction site .extraction (id + bindings.length + requirements.length)
        d.extract.expression
      let r : Rule := ⟨site.index, d.name, d.extract.field, d.extract.confidence, bindings,
        requirements, extraction⟩
      let _ ← r.listenerIds
      .ok r) := by
  rw [compile]
  cases hbs : buildVariables site [] id d.bindings with
  | error e => rfl
  | ok bs =>
    cases has : buildRequirements site (id + bs.length) d.requirements with
    | error e => simp only [bind, Except.bind, has]
    | ok as =>
      cases ha : buildAction site .extraction (id + bs.length + as.length) d.extract.expression with
      | error e => simp only [bind, Except.bind, has, ha]
      | ok a =>
        have hcast : Cast ⟨site.index, d.name, d.extract.field, d.extract.confidence, bs, as, a⟩ :=
          ⟨role_of_buildVariables hbs, role_of_buildRequirements has, role_of_buildAction ha⟩
        obtain ⟨-, -, hnames, -⟩ := built_of_buildVariables hbs
        have hnoted := listenerIds_eq hcast hnames
        simp only [bind, Except.bind, has, ha, hnoted, checkAll_concat]
        cases checkVariables [] bs with
        | error e => rfl
        | ok _ =>
          cases checkAll (bs.map (·.1)) as with
          | error e => rfl
          | ok _ => cases checkVariable (bs.map (·.1)) a <;> rfl

/-! ### Delivering by numbers -/

/-- In a rule with consecutive numbers the noted numbers find their actions. -/
theorem filterMap_action?_listeners {r : Rule}
    (h : r.actions.map (·.id) = List.range' r.firstId r.actions.length) (name : String) :
    ((r.listeners name).map (·.id)).filterMap r.action? = r.listeners name := by
  have hfound : ∀ a ∈ r.listeners name, r.action? a.id = some a := fun a ha =>
    (action?_eq_some h).mpr ⟨List.mem_of_mem_filter ha, rfl⟩
  rw [List.filterMap_map]
  exact (List.filterMap_congr hfound).trans List.filterMap_some

/-- Where variables may be used the numbers are noted. -/
theorem Declared.listenerIds_eq {r : Rule} (hdeclared : r.Declared) (hcast : r.Cast)
    (hnd : (r.bindings.map (·.1)).Nodup) :
    r.listenerIds =
      .ok ((r.bindings.map (·.1)).map fun name => (r.listeners name).map (·.id)) := by
  have hvariables : checkVariables [] r.bindings = .ok () :=
    checkVariables_eq_ok.mpr fun i v hv => checkVariable_eq_ok.mpr (hdeclared.earlier i v hv)
  have hplain : checkAll (r.bindings.map (·.1)) (r.requirements ++ [r.extraction]) = .ok () :=
    checkAll_eq_ok.mpr fun a ha => checkVariable_eq_ok.mpr (hdeclared.known a ha)
  rw [Rule.listenerIds_eq hcast hnd]
  simp only [hvariables, hplain, bind, Except.bind]

end Rule

/-- **Delivering by numbers is delivering by names.** In a set that builds, the numbers of the
    actions that start from variables are noted for every rule, they find their actions, and a
    delivery to the actions that they find leaves the same state. -/
theorem RuleSet.deliverNoted_eq {lookups : Lookups} {verbose : Bool} {ds : List RuleDefinition}
    {rs : RuleSet} (h : build lookups verbose ds = .ok rs) {r : Rule} (hr : r ∈ rs.rules) :
    ∃ noted, r.listenerIds = .ok noted ∧
      noted.map (·.filterMap r.action?) = r.bindings.map (fun v => r.listeners v.1) ∧
      ∀ st, r.deliverNoted noted st = r.deliverVariables st := by
  obtain ⟨hwf, -⟩ := rules_of_build h
  have hfound : ∀ name, ((r.listeners name).map (·.id)).filterMap r.action? = r.listeners name :=
    Rule.filterMap_action?_listeners (hwf.numbers r hr)
  have hnoted := (declared_of_build h hr).listenerIds_eq (cast_of_build h r hr)
    (filed_of_build h hr).names
  refine ⟨_, hnoted, ?_, fun st => ?_⟩
  · rw [List.map_map, List.map_map]
    exact List.map_congr_left fun v _ => hfound v.1
  · rw [Rule.deliverNoted, Rule.deliverVariables, List.map_map, ← List.map_prod_left_eq_zip,
      List.foldl_map]
    simp only [Function.comp_apply, hfound]
    rfl

end AgentRules
