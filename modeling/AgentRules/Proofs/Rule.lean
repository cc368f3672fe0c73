/-
  Rules by themselves.

  A rule is built at a position in its set and from a number on. Building it at the first
  position from the number zero on gives the same rule with other numbers (`compile_moved`).
  Evaluating a rule depends on the candidates of its own actions only, wherever in a state
  they stand (`evaluate_moved`), and changes no other candidates (`informed_evaluate`).
-/
import AgentRules.Proofs.MatchState

namespace AgentRules

/-! ### Moving a rule -/

/-- An action under another number, in another rule. -/
def Action.moved (rule offset : Nat) (a : Action) : Action :=
  { a with id := offset + a.id, rule := rule }

namespace Rule

/-- A rule at another position, with other numbers for its actions. -/
def moved (rule offset : Nat) (r : Rule) : Rule :=
  { r with
    index := rule
    bindings := r.bindings.map fun (name, a) => (name, a.moved rule offset)
    requirements := r.requirements.map (.moved rule offset)
    extraction := r.extraction.moved rule offset }

theorem actions_moved (rule offset : Nat) (r : Rule) :
    (r.moved rule offset).actions = r.actions.map (.moved rule offset) := by
  simp [actions, moved, Function.comp_def]

theorem actions_registered (r : Rule) : r.registered.actions = r.actions.map .registered := by
  simp [actions, registered, Function.comp_def]

theorem registered_moved (rule offset : Nat) (r : Rule) :
    (r.moved rule offset).registered = r.registered.moved rule offset := by
  simp [moved, registered, Function.comp_def, Action.registered, Action.moved, Action.path]

/-- A rule at its own position is as it is. -/
theorem moved_self {r : Rule} (h : ∀ a ∈ r.actions, a.rule = r.index) : r.moved r.index 0 = r := by
  have hself : ∀ a ∈ r.actions, a.moved r.index 0 = a := by
    intro a ha
    rw [Action.moved, Nat.zero_add, ← h a ha]
  have hbindings : r.bindings.map (fun (name, a) => (name, a.moved r.index 0)) = r.bindings := by
    refine (List.map_congr_left fun v hv => ?_).trans (List.map_id _)
    have hmem : v.2 ∈ r.actions := by
      simp only [actions, List.mem_append, List.mem_map]
      exact .inl (.inl ⟨v, hv, rfl⟩)
    simp only [hself v.2 hmem, id]
  have hrequirements : r.requirements.map (.moved r.index 0) = r.requirements := by
    refine (List.map_congr_left fun a ha => hself a ?_).trans (List.map_id _)
    exact List.mem_append_left _ (List.mem_append_right _ ha)
  rw [moved, hbindings, hrequirements, hself r.extraction (by simp [actions])]

section Building

variable (lookups : Lookups) (verbose : Bool) (rule offset : Nat)

theorem buildAction_moved (role : Role) (id : ActionId) (text : String) :
    buildAction ⟨lookups, rule, verbose⟩ role (offset + id) text =
      (buildAction ⟨lookups, 0, verbose⟩ role id text).map (.moved rule offset) := by
  simp only [buildAction, Action.ofText]
  cases Expression.parse text with
  | error e => rfl
  | ok e =>
    simp only [Action.ofExpression]
    cases e.root.compile lookups (role = .requirement) <;> rfl

theorem buildVariables_moved (names : List String) (id : ActionId) (vs : List Binding) :
    buildVariables ⟨lookups, rule, verbose⟩ names (offset + id) vs =
      (buildVariables ⟨lookups, 0, verbose⟩ names id vs).map
        (List.map fun (name, a) => (name, a.moved rule offset)) := by
  induction vs generalizing names id with
  | nil => rfl
  | cons v vs ih =>
    rw [buildVariables, buildVariables, buildAction_moved, Nat.add_assoc, ih]
    split
    · rfl
    · cases buildAction ⟨lookups, 0, verbose⟩ .binding id v.expression with
      | error e => rfl
      | ok a =>
        simp only [Except.map, bind, Except.bind]
        by_cases hfixed : a.compiled.fixed?.isSome
        · rw [if_pos hfixed, if_pos (show (a.moved rule offset).compiled.fixed?.isSome from hfixed)]
        · rw [if_neg hfixed,
            if_neg (show ¬(a.moved rule offset).compiled.fixed?.isSome from hfixed)]
          cases buildVariables ⟨lookups, 0, verbose⟩ (names ++ [v.name]) (id + 1) vs <;> rfl

theorem buildRequirements_moved (id : ActionId) (texts : List String) :
    buildRequirements ⟨lookups, rule, verbose⟩ (offset + id) texts =
      (buildRequirements ⟨lookups, 0, verbose⟩ id texts).map
        (List.map (.moved rule offset)) := by
  induction texts generalizing id with
  | nil => rfl
  | cons text texts ih =>
    rw [buildRequirements, buildRequirements, buildAction_moved, Nat.add_assoc, ih]
    cases buildAction ⟨lookups, 0, verbose⟩ .requirement id text with
    | error e => rfl
    | ok a => cases buildRequirements ⟨lookups, 0, verbose⟩ (id + 1) texts <;> rfl

theorem checkVariables_moved (names : List String) (vs : List (String × Action)) :
    checkVariables names (vs.map fun (name, a) => (name, a.moved rule offset)) =
      checkVariables names vs := by
  induction vs generalizing names with
  | nil => rfl
  | cons v vs ih =>
    rw [List.map_cons, checkVariables, checkVariables, ih]
    rfl

theorem checkAll_moved (names : List String) (as : List Action) :
    checkAll names (as.map (.moved rule offset)) = checkAll names as := by
  induction as with
  | nil => rfl
  | cons a as ih =>
    rw [List.map_cons, checkAll, checkAll, ih]
    rfl

/-- **A rule is built alike at all positions**, up to the numbers. -/
theorem compile_moved (d : RuleDefinition) :
    compile ⟨lookups, rule, verbose⟩ offset d =
      (compile ⟨lookups, 0, verbose⟩ 0 d).map (.moved rule offset) := by
  have hvariables := buildVariables_moved lookups verbose rule offset [] 0 d.bindings
  have hrequirements := fun n =>
    buildRequirements_moved lookups verbose rule offset n d.requirements
  have hextraction := fun n =>
    buildAction_moved lookups verbose rule offset .extraction n d.extract.expression
  rw [Nat.add_zero] at hvariables
  -- Variables, requirements and extraction are built in turn, and the first failure decides.
  rw [compile, compile, hvariables]
  cases buildVariables ⟨lookups, 0, verbose⟩ [] 0 d.bindings with
  | error e => rfl
  | ok bs =>
    simp only [Except.map, bind, Except.bind, List.length_map, Nat.zero_add]
    rw [hrequirements]
    cases buildRequirements ⟨lookups, 0, verbose⟩ bs.length d.requirements with
    | error e => rfl
    | ok as =>
      simp only [Except.map, List.length_map]
      rw [Nat.add_assoc, hextraction]
      cases buildAction ⟨lookups, 0, verbose⟩ .extraction (bs.length + as.length)
          d.extract.expression with
      | error e => rfl
      | ok a =>
        have hlast : ∀ names, checkVariable names (a.moved rule offset) = checkVariable names a :=
          fun _ => rfl
        simp only [Except.map, checkVariables_moved, checkAll_moved, List.map_map,
          Function.comp_def, hlast]
        cases checkVariables [] bs with
        | error e => rfl
        | ok _ =>
          cases checkAll (bs.map (·.1)) as with
          | error e => rfl
          | ok _ => cases checkVariable (bs.map (·.1)) a <;> rfl

end Building

end Rule

/-! ### What a builder does -/

namespace Rule

variable {site : Site} {id : ActionId}

/-- An action is built from a text that can be read and compiled. -/
theorem buildAction_eq_ok {role : Role} {text : String} {a : Action} :
    buildAction site role id text = .ok a ↔
      ∃ e compiled, Expression.parse text = .ok e ∧
        e.root.compile site.lookups (role = .requirement) = .ok compiled ∧
        a = ⟨id, site.index, role, e, compiled, site.verbose, 0⟩ := by
  rw [buildAction, Action.ofText]
  cases hparse : Expression.parse text with
  | error fault => simp
  | ok e =>
    simp only [Action.ofExpression]
    cases hcompile : e.root.compile site.lookups (role = .requirement) with
    | error fault => simp [hcompile]
    | ok compiled => simp [hcompile, eq_comm]

/-- Variables are built one after the other, each under a name that is new and from a text with
    a value that depends on the tree. -/
theorem buildVariables_cons_eq_ok {names : List String} {d : Binding} {ds : List Binding}
    {vs : List (String × Action)} :
    buildVariables site names id (d :: ds) = .ok vs ↔
      d.name ∉ names ∧ ∃ a rest, buildAction site .binding id d.expression = .ok a ∧
        a.compiled.fixed? = none ∧
        buildVariables site (names ++ [d.name]) (id + 1) ds = .ok rest ∧
        vs = (d.name, a) :: rest := by
  rw [buildVariables]
  by_cases hname : d.name ∈ names
  · simp [hname]
  · cases ha : buildAction site .binding id d.expression with
    | error fault => simp [hname, bind, Except.bind]
    | ok a =>
      cases hfixed : a.compiled.fixed? with
      | some value => simp [hname, hfixed, bind, Except.bind]
      | none =>
        cases buildVariables site (names ++ [d.name]) (id + 1) ds with
        | error fault => simp [hname, hfixed, bind, Except.bind]
        | ok rest => simp [hname, hfixed, bind, Except.bind, eq_comm]

theorem buildRequirements_cons_eq_ok {text : String} {texts : List String} {as : List Action} :
    buildRequirements site id (text :: texts) = .ok as ↔
      ∃ a rest, buildAction site .requirement id text = .ok a ∧
        buildRequirements site (id + 1) texts = .ok rest ∧ as = a :: rest := by
  rw [buildRequirements]
  cases buildAction site .requirement id text with
  | error fault => simp [bind, Except.bind]
  | ok a =>
    cases buildRequirements site (id + 1) texts with
    | error fault => simp [bind, Except.bind]
    | ok rest => simp [bind, Except.bind, eq_comm]

/-- A rule is compiled when all its parts are built and no action starts from a variable that
    it may not use. -/
theorem compile_eq_ok {d : RuleDefinition} {r : Rule} :
    compile site id d = .ok r ↔
      ∃ bs as a, buildVariables site [] id d.bindings = .ok bs ∧
        buildRequirements site (id + bs.length) d.requirements = .ok as ∧
        buildAction site .extraction (id + bs.length + as.length) d.extract.expression = .ok a ∧
        checkVariables [] bs = .ok () ∧ checkAll (bs.map (·.1)) as = .ok () ∧
        checkVariable (bs.map (·.1)) a = .ok () ∧
        r = ⟨site.index, d.name, d.extract.field, d.extract.confidence, bs, as, a⟩ := by
  constructor
  · intro h
    rw [compile] at h
    obtain ⟨bs, hbs, h⟩ := Reading.bind_eq_ok h
    obtain ⟨as, has, h⟩ := Reading.bind_eq_ok h
    obtain ⟨a, ha, h⟩ := Reading.bind_eq_ok h
    obtain ⟨⟨⟩, hvariables, h⟩ := Reading.bind_eq_ok h
    obtain ⟨⟨⟩, hrequirements, h⟩ := Reading.bind_eq_ok h
    obtain ⟨⟨⟩, hextraction, h⟩ := Reading.bind_eq_ok h
    exact ⟨bs, as, a, hbs, has, ha, hvariables, hrequirements, hextraction,
      (Except.ok.inj h).symm⟩
  · rintro ⟨bs, as, a, hbs, has, ha, hvariables, hrequirements, hextraction, rfl⟩
    simp [compile, hbs, has, ha, hvariables, hrequirements, hextraction, bind, Except.bind]

end Rule

/-! ### Rules as they are built -/

/-- What building makes of an action: it belongs to its rule and has the program of its
    expression. -/
structure Action.Built (lookups : Lookups) (rule : Nat) (a : Action) : Prop where
  rule : a.rule = rule
  compiled : ∃ pruned, a.expression.root.compile lookups pruned = .ok a.compiled

namespace Rule

/-- What building makes of a definition: the actions have consecutive numbers, and the
    variables different names. -/
structure Built (site : Site) (id : ActionId) (d : RuleDefinition) (r : Rule) : Prop where
  index : r.index = site.index
  name : r.name = d.name
  confidence : r.confidence = d.extract.confidence
  ids : r.actions.map (·.id) = List.range' id d.actionCount
  actions : ∀ a ∈ r.actions, a.Built site.lookups site.index
  names : (r.bindings.map (·.1)).Nodup

variable {site : Site}

theorem built_of_buildAction {role : Role} {id : ActionId} {text : String} {a : Action}
    (h : buildAction site role id text = .ok a) :
    a.id = id ∧ a.Built site.lookups site.index := by
  obtain ⟨e, compiled, -, hcompile, rfl⟩ := buildAction_eq_ok.mp h
  exact ⟨rfl, rfl, _, hcompile⟩

theorem built_of_buildVariables {names : List String} {id : ActionId} {ds : List Binding}
    {vs : List (String × Action)} (h : buildVariables site names id ds = .ok vs) :
    vs.map (·.2.id) = List.range' id ds.length ∧
      (∀ v ∈ vs, v.2.Built site.lookups site.index) ∧
      (vs.map (·.1)).Nodup ∧ ∀ v ∈ vs, v.1 ∉ names := by
  induction ds generalizing names id vs with
  | nil =>
    obtain rfl := Except.ok.inj h
    simp
  | cons d ds ih =>
    obtain ⟨hname, a, rest, ha, -, hrest, rfl⟩ := buildVariables_cons_eq_ok.mp h
    obtain ⟨hids, hbuilt, hnd, hnames⟩ := ih hrest
    obtain ⟨haid, habuilt⟩ := built_of_buildAction ha
    refine ⟨?_, ?_, ?_, ?_⟩
    · rw [List.map_cons, haid, hids]
      rfl
    · exact List.forall_mem_cons.mpr ⟨habuilt, hbuilt⟩
    · -- The name is among those that the later variables may not have.
      refine List.nodup_cons.mpr ⟨fun hmem => ?_, hnd⟩
      obtain ⟨v, hv, hvname⟩ := List.mem_map.mp hmem
      exact hnames v hv (by simp [hvname])
    · refine List.forall_mem_cons.mpr ⟨hname, fun v hv hmem => ?_⟩
      exact hnames v hv (List.mem_append_left _ hmem)

theorem built_of_buildRequirements {id : ActionId} {texts : List String} {as : List Action}
    (h : buildRequirements site id texts = .ok as) :
    as.map (·.id) = List.range' id texts.length ∧
      ∀ a ∈ as, a.Built site.lookups site.index := by
  induction texts generalizing id as with
  | nil =>
    obtain rfl := Except.ok.inj h
    simp
  | cons text texts ih =>
    obtain ⟨a, rest, ha, hrest, rfl⟩ := buildRequirements_cons_eq_ok.mp h
    obtain ⟨hids, hbuilt⟩ := ih hrest
    obtain ⟨haid, habuilt⟩ := built_of_buildAction ha
    refine ⟨?_, List.forall_mem_cons.mpr ⟨habuilt, hbuilt⟩⟩
    rw [List.map_cons, haid, hids]
    rfl

/-- **A rule that is built is in order.** -/
theorem built_of_compile {id : ActionId} {d : RuleDefinition} {r : Rule}
    (h : compile site id d = .ok r) : r.Built site id d := by
  obtain ⟨bs, as, a, hbs, has, ha, -, -, -, rfl⟩ := compile_eq_ok.mp h
  obtain ⟨hvids, hvbuilt, hnames, -⟩ := built_of_buildVariables hbs
  obtain ⟨hrids, hrbuilt⟩ := built_of_buildRequirements has
  obtain ⟨haid, habuilt⟩ := built_of_buildAction ha
  have hblen : bs.length = d.bindings.length := by simpa using congrArg List.length hvids
  have haslen : as.length = d.requirements.length := by simpa using congrArg List.length hrids
  refine ⟨rfl, rfl, rfl, ?_, ?_, hnames⟩
  · simp only [actions, List.map_append, List.map_map, List.map_singleton]
    rw [show ((fun a : Action => a.id) ∘ fun v : String × Action => v.2) = (·.2.id) from rfl,
      hvids, hrids, haid, hblen, haslen, List.range'_append_1, Nat.add_assoc id,
      ← List.range'_1_concat]
    rfl
  · intro b hb
    simp only [actions, List.mem_append, List.mem_map, List.mem_singleton] at hb
    rcases hb with (⟨v, hv, rfl⟩ | hb) | rfl
    · exact hvbuilt v hv
    · exact hrbuilt b hb
    · exact habuilt

end Rule

/-! ### Evaluating a rule -/

namespace Rule

/-- The actions that start from some variable. -/
def dependents (r : Rule) : List Action := r.actions.filter (·.expression.variableName?.isSome)

theorem listeners_subset (r : Rule) (name : String) : r.listeners name ⊆ r.dependents := by
  intro a ha
  obtain ⟨hmem, hname⟩ := List.mem_filter.mp ha
  simp only [decide_eq_true_eq] at hname
  exact List.mem_filter.mpr ⟨hmem, by rw [hname]; rfl⟩

/-- A variable informs the actions that start from it. -/
theorem informed_deliverVariable (r : Rule) (st : MatchState) (v : String × Action) :
    MatchState.Informed (r.listeners v.1) st (r.deliverVariable st v) := by
  rw [deliverVariable, deliverTo]
  split
  · exact .refl
  · exact MatchState.informed_foldl_inform (r.listeners v.1) _ st

theorem informed_foldl_deliverVariable (r : Rule) (vs : List (String × Action))
    (st : MatchState) :
    MatchState.Informed (vs.flatMap fun v => r.listeners v.1) st
      (vs.foldl r.deliverVariable st) := by
  refine List.foldlRecOn vs _ .refl fun now h v hv => ?_
  refine h.trans ((r.informed_deliverVariable now v).mono fun a ha => ?_)
  exact List.mem_flatMap.mpr ⟨v, hv, ha⟩

theorem informed_deliverVariables (r : Rule) (vs : List (String × Action)) (st : MatchState) :
    MatchState.Informed r.dependents st (vs.foldl r.deliverVariable st) := by
  refine (r.informed_foldl_deliverVariable vs st).mono fun a ha => ?_
  obtain ⟨v, -, ha⟩ := List.mem_flatMap.mp ha
  exact r.listeners_subset v.1 ha

/-- **Evaluating a rule informs actions that start from its variables, and no others.** -/
theorem informed_evaluate (r : Rule) (st : MatchState) :
    MatchState.Informed r.dependents st (r.evaluate st).2 :=
  r.informed_deliverVariables r.bindings st

/-- What a rule finds depends on the outcomes of its actions. -/
theorem emission?_congr {r : Rule} {st st' : MatchState}
    (h : ∀ a ∈ r.actions, a.evaluate st' = a.evaluate st) :
    r.emission? st' = r.emission? st := by
  have hrequirements : r.requirements.all (fun a => (a.evaluate st').isSuccess) =
      r.requirements.all fun a => (a.evaluate st).isSuccess := by
    rw [Bool.eq_iff_iff, List.all_eq_true, List.all_eq_true]
    refine forall₂_congr fun a ha => ?_
    rw [h a (List.mem_append_left _ (List.mem_append_right _ ha))]
  have hextraction := h r.extraction (List.mem_append_right _ (List.mem_singleton_self _))
  rw [emission?, emission?, hrequirements, hextraction]

end Rule

/-! ### Evaluating a moved rule -/

namespace MatchState

/-- Whether the slots of moved actions are in one state as those of the actions are in
    another; either state may be without slots for some of them. -/
def Aligned (as : List Action) (offset : Nat) (st st' : MatchState) : Prop :=
  ∀ a ∈ as, st'.slots[offset + a.id]? = st.slots[a.id]?

namespace Aligned

variable {as : List Action} {offset : Nat} {st st' : MatchState}

theorem candidate? (h : Aligned as offset st st') {a : Action} (ha : a ∈ as) :
    st'.candidate? (offset + a.id) = st.candidate? a.id :=
  candidate?_congr (h a ha)

theorem inform (h : Aligned as offset st st') {a : Action} (ha : a ∈ as) (rule : Nat)
    (c : Candidate) : Aligned as offset (st.inform a c) (st'.inform (a.moved rule offset) c) := by
  have haccepts : st'.accepts (a.moved rule offset) ↔ st.accepts a := by
    rw [accepts_iff_getElem?, accepts_iff_getElem?, ← h a ha]
    rfl
  intro b hb
  rw [getElem?_slots_inform, getElem?_slots_inform, h b hb]
  exact if_congr (and_congr Nat.add_left_cancel_iff haccepts) rfl rfl

end Aligned

end MatchState

namespace Rule

variable {r : Rule} (rule : Nat) {offset : Nat} {st st' : MatchState}

theorem listeners_moved (r : Rule) (offset : Nat) (name : String) :
    (r.moved rule offset).listeners name = (r.listeners name).map (.moved rule offset) := by
  rw [listeners, actions_moved, List.filter_map]
  rfl

theorem resolve?_moved {a : Action} (h : st'.candidate? (offset + a.id) = st.candidate? a.id) :
    (a.moved rule offset).resolve? st' = a.resolve? st := by
  simp only [Action.resolve?, Action.moved, h]

theorem evaluateAction_moved {a : Action}
    (h : st'.candidate? (offset + a.id) = st.candidate? a.id) :
    (a.moved rule offset).evaluate st' = a.evaluate st := by
  simp only [Action.evaluate, Action.moved, h]
  rfl

theorem snd_mem_actions {v : String × Action} (hv : v ∈ r.bindings) : v.2 ∈ r.actions :=
  List.mem_append_left _ (List.mem_append_left _ (List.mem_map_of_mem hv))

theorem aligned_deliverVariable (h : MatchState.Aligned r.actions offset st st')
    {v : String × Action} (hv : v ∈ r.bindings) :
    MatchState.Aligned r.actions offset (r.deliverVariable st v)
      ((r.moved rule offset).deliverVariable st' (v.1, v.2.moved rule offset)) := by
  rw [deliverVariable, deliverVariable, deliverTo, deliverTo,
    resolve?_moved rule (h.candidate? (snd_mem_actions hv)), listeners_moved]
  cases v.2.resolve? st with
  | none => exact h
  | some result =>
    dsimp only
    rw [List.foldl_map]
    exact List.foldl_rel h fun a ha _ _ h => h.inform (List.mem_of_mem_filter ha) rule _

theorem aligned_deliverVariables (h : MatchState.Aligned r.actions offset st st') :
    MatchState.Aligned r.actions offset (r.deliverVariables st)
      ((r.moved rule offset).deliverVariables st') := by
  have hbindings : (r.moved rule offset).bindings =
      r.bindings.map fun v => (v.1, v.2.moved rule offset) := rfl
  rw [deliverVariables, deliverVariables, hbindings, List.foldl_map]
  exact List.foldl_rel h fun v hv _ _ h => aligned_deliverVariable rule h hv

/-- **A rule finds the same wherever it stands.** -/
theorem evaluate_moved (h : MatchState.Aligned r.actions offset st st') :
    ((r.moved rule offset).evaluate st').1 = (r.evaluate st).1 := by
  have hdelivered := aligned_deliverVariables rule h
  have haction : ∀ a ∈ r.actions,
      (a.moved rule offset).evaluate ((r.moved rule offset).deliverVariables st') =
        a.evaluate (r.deliverVariables st) :=
    fun a ha => evaluateAction_moved rule (hdelivered.candidate? ha)
  have hrequirements : (r.moved rule offset).requirements.all
      (fun a => (a.evaluate ((r.moved rule offset).deliverVariables st')).isSuccess) =
        r.requirements.all fun a => (a.evaluate (r.deliverVariables st)).isSuccess := by
    rw [show (r.moved rule offset).requirements = r.requirements.map (.moved rule offset) from rfl,
      List.all_map, Bool.eq_iff_iff, List.all_eq_true, List.all_eq_true]
    refine forall₂_congr fun a ha => ?_
    rw [Function.comp_apply,
      haction a (List.mem_append_left _ (List.mem_append_right _ ha))]
  show emission? _ _ = emission? _ _
  rw [emission?, emission?, hrequirements]
  have hextraction := haction r.extraction (by simp [actions])
  rw [show (r.moved rule offset).extraction = r.extraction.moved rule offset from rfl, hextraction]
  rfl

end Rule

end AgentRules
