/-
  What can be built.

  A definition is well-formed when the names of its variables differ, all its texts can be read
  and compiled, no variable has a fixed value, and a text starts from a variable only where it
  may: a variable from those declared before it, anything else from any of them. This is said of
  the texts alone, and it is exactly what can be compiled (`Rule.exists_compile_eq_ok`).

  Whether a definition can be compiled does not depend on the rules before it, and neither does
  what is wrong with it. So a set builds when all its definitions are well-formed, and otherwise
  the first one that is not decides on the error (`RuleSet.build_exact`).
-/
import AgentRules.Proofs.RuleSet

namespace AgentRules

/-! ### Well-formed definitions -/

namespace Expression

/-- A text that can be read and compiled. -/
def Compiles (lookups : Lookups) (text : String) : Prop :=
  ∃ e compiled, parse text = .ok e ∧ e.root.compile lookups false = .ok compiled

/-- A text whose value does not depend on the tree. -/
def IsFixed (lookups : Lookups) (text : String) : Prop :=
  ∃ e value, parse text = .ok e ∧ e.root.compile lookups false = .ok (.fixed value)

/-- A text that starts from a variable. -/
def StartsFrom (text name : String) : Prop :=
  ∃ e, parse text = .ok e ∧ e.variableName? = some name

theorem startsFrom_iff {text : String} {e : Expression} (h : parse text = .ok e) {name : String} :
    StartsFrom text name ↔ e.variableName? = some name := by
  simp [StartsFrom, h]

end Expression

namespace RuleDefinition

/-- The texts of a definition that do not belong to a variable. -/
def plainTexts (d : RuleDefinition) : List String := d.requirements ++ [d.extract.expression]

/-- A definition from which a rule can be built. -/
structure WellFormed (lookups : Lookups) (d : RuleDefinition) : Prop where
  names : (d.bindings.map (·.name)).Nodup
  bindings : ∀ b ∈ d.bindings, Expression.Compiles lookups b.expression
  plain : ∀ text ∈ d.plainTexts, Expression.Compiles lookups text
  notFixed : ∀ b ∈ d.bindings, ¬Expression.IsFixed lookups b.expression
  /-- A variable starts from variables before it only. -/
  earlier : ∀ (i : Nat) (b : Binding), d.bindings[i]? = some b →
    ∀ name, Expression.StartsFrom b.expression name → name ∈ (d.bindings.take i).map (·.name)
  declared : ∀ text ∈ d.plainTexts, ∀ name, Expression.StartsFrom text name →
    name ∈ d.bindings.map (·.name)

end RuleDefinition

/-! ### Texts -/

/-- Dropping steps at the end does not decide on whether there is a program. -/
theorem Term.exists_compile_eq_ok (lookups : Lookups) (pruned : Bool) (t : Term) :
    (∃ compiled, t.compile lookups pruned = .ok compiled) ↔
      ∃ compiled, t.compile lookups false = .ok compiled := by
  unfold compile
  dsimp only
  cases Wrapper.compileAll lookups t.splitIsNull.2 with
  | error fault => simp
  | ok functions => cases t.path <;> simp

namespace Rule

variable {site : Site} {id : ActionId}

theorem exists_buildAction_eq_ok (site : Site) (id : ActionId) (role : Role) {text : String} :
    (∃ a, buildAction site role id text = .ok a) ↔ Expression.Compiles site.lookups text := by
  constructor
  · rintro ⟨a, ha⟩
    obtain ⟨e, compiled, hparse, hcompile, -⟩ := buildAction_eq_ok.mp ha
    obtain ⟨compiled', hcompile'⟩ := (Term.exists_compile_eq_ok _ _ _).mp ⟨compiled, hcompile⟩
    exact ⟨e, compiled', hparse, hcompile'⟩
  · rintro ⟨e, compiled, hparse, hcompile⟩
    obtain ⟨compiled', hcompile'⟩ :=
      (Term.exists_compile_eq_ok _ (role = .requirement) _).mpr ⟨compiled, hcompile⟩
    exact ⟨_, buildAction_eq_ok.mpr ⟨e, compiled', hparse, hcompile', rfl⟩⟩

/-- The action of a variable keeps all its steps, so it has a fixed value when its text has. -/
theorem isFixed_iff {text : String} {a : Action}
    (h : buildAction site .binding id text = .ok a) :
    Expression.IsFixed site.lookups text ↔ ∃ value, a.compiled.fixed? = some value := by
  obtain ⟨e, compiled, hparse, hcompile, rfl⟩ := buildAction_eq_ok.mp h
  have hfull : e.root.compile site.lookups false = .ok compiled := hcompile
  constructor
  · rintro ⟨e', value, hparse', hfixed⟩
    obtain rfl := Except.ok.inj (hparse.symm.trans hparse')
    obtain rfl := Except.ok.inj (hfull.symm.trans hfixed)
    exact ⟨value, rfl⟩
  · rintro ⟨value, hvalue⟩
    cases compiled with
    | fixed text => exact ⟨e, text, hparse, hfull⟩
    | program p => exact absurd hvalue (by simp [Compiled.fixed?])

/-! ### Variables and requirements -/

/-- A variable is built from a text that can be compiled and has no fixed value. -/
theorem exists_variable_iff {text : String} :
    (∃ a, buildAction site .binding id text = .ok a ∧ a.compiled.fixed? = none) ↔
      Expression.Compiles site.lookups text ∧ ¬Expression.IsFixed site.lookups text := by
  rw [← exists_buildAction_eq_ok site id .binding]
  constructor
  · rintro ⟨a, ha, hnone⟩
    refine ⟨⟨a, ha⟩, fun hfixed => ?_⟩
    obtain ⟨value, hvalue⟩ := (isFixed_iff ha).mp hfixed
    exact absurd (hvalue.symm.trans hnone) (by simp)
  · rintro ⟨⟨a, ha⟩, hnot⟩
    refine ⟨a, ha, Option.eq_none_iff_forall_ne_some.mpr fun value hvalue => ?_⟩
    exact hnot ((isFixed_iff ha).mpr ⟨value, hvalue⟩)

theorem exists_buildVariables_eq_ok (site : Site) (id : ActionId) (names : List String)
    {ds : List Binding} :
    (∃ vs, buildVariables site names id ds = .ok vs) ↔
      (ds.map (·.name)).Nodup ∧ (∀ d ∈ ds, d.name ∉ names) ∧
        ∀ d ∈ ds, Expression.Compiles site.lookups d.expression ∧
          ¬Expression.IsFixed site.lookups d.expression := by
  induction ds generalizing names id with
  | nil => simp [buildVariables]
  | cons d ds ih =>
    have hcons : (∃ vs, buildVariables site names id (d :: ds) = .ok vs) ↔
        d.name ∉ names ∧
          (∃ a, buildAction site .binding id d.expression = .ok a ∧ a.compiled.fixed? = none) ∧
          ∃ rest, buildVariables site (names ++ [d.name]) (id + 1) ds = .ok rest := by
      constructor
      · rintro ⟨vs, hvs⟩
        obtain ⟨hname, a, rest, ha, hnone, hrest, -⟩ := buildVariables_cons_eq_ok.mp hvs
        exact ⟨hname, ⟨a, ha, hnone⟩, rest, hrest⟩
      · rintro ⟨hname, ⟨a, ha, hnone⟩, rest, hrest⟩
        exact ⟨_, buildVariables_cons_eq_ok.mpr ⟨hname, a, rest, ha, hnone, hrest, rfl⟩⟩
    -- The variables after the first avoid its name as well as the names before.
    have hnames : (∀ b ∈ ds, b.name ∉ names ++ [d.name]) ↔
        (∀ b ∈ ds, b.name ∉ names) ∧ d.name ∉ ds.map (·.name) := by
      simp only [List.mem_append, List.mem_singleton, not_or, List.mem_map, not_exists, not_and]
      exact ⟨fun h => ⟨fun b hb => (h b hb).1, fun b hb => (h b hb).2⟩,
        fun h b hb => ⟨h.1 b hb, h.2 b hb⟩⟩
    rw [hcons, exists_variable_iff, ih, hnames, List.map_cons, List.nodup_cons,
      List.forall_mem_cons, List.forall_mem_cons]
    tauto

theorem exists_buildRequirements_eq_ok (site : Site) (id : ActionId) {texts : List String} :
    (∃ as, buildRequirements site id texts = .ok as) ↔
      ∀ text ∈ texts, Expression.Compiles site.lookups text := by
  induction texts generalizing id with
  | nil => simp [buildRequirements]
  | cons text texts ih =>
    rw [List.forall_mem_cons, ← exists_buildAction_eq_ok site id .requirement, ← ih (id + 1)]
    constructor
    · rintro ⟨as, has⟩
      obtain ⟨a, rest, ha, hrest, -⟩ := buildRequirements_cons_eq_ok.mp has
      exact ⟨⟨a, ha⟩, rest, hrest⟩
    · rintro ⟨⟨a, ha⟩, rest, hrest⟩
      exact ⟨_, buildRequirements_cons_eq_ok.mpr ⟨a, rest, ha, hrest, rfl⟩⟩

/-- The variables that are built have the names of their definitions and were read from their
    texts, in the same order. -/
theorem read_of_buildVariables {names : List String} {ds : List Binding}
    {vs : List (String × Action)} (h : buildVariables site names id ds = .ok vs) :
    List.Forall₂ (fun d v => v.1 = d.name ∧ Expression.parse d.expression = .ok v.2.expression)
      ds vs := by
  induction ds generalizing names id vs with
  | nil =>
    obtain rfl := Except.ok.inj h
    exact .nil
  | cons d ds ih =>
    obtain ⟨-, a, rest, ha, -, hrest, rfl⟩ := buildVariables_cons_eq_ok.mp h
    obtain ⟨e, compiled, hparse, -, rfl⟩ := buildAction_eq_ok.mp ha
    exact .cons ⟨rfl, hparse⟩ (ih hrest)

theorem map_fst_of_read {ds : List Binding} {vs : List (String × Action)}
    (hread : List.Forall₂
      (fun d v => v.1 = d.name ∧ Expression.parse d.expression = .ok v.2.expression) ds vs) :
    vs.map (·.1) = ds.map (·.name) := by
  induction hread with
  | nil => rfl
  | cons hdv _ ih => rw [List.map_cons, List.map_cons, hdv.1, ih]

theorem read_of_buildRequirements {texts : List String} {as : List Action}
    (h : buildRequirements site id texts = .ok as) :
    List.Forall₂ (fun text a => Expression.parse text = .ok a.expression) texts as := by
  induction texts generalizing id as with
  | nil =>
    obtain rfl := Except.ok.inj h
    exact .nil
  | cons text texts ih =>
    obtain ⟨a, rest, ha, hrest, rfl⟩ := buildRequirements_cons_eq_ok.mp h
    obtain ⟨e, compiled, hparse, -, rfl⟩ := buildAction_eq_ok.mp ha
    exact .cons hparse (ih hrest)

/-- **Every action of a rule was read from a text.** -/
theorem read_of_compile {d : RuleDefinition} {r : Rule} (h : compile site id d = .ok r) :
    ∀ a ∈ r.actions, ∃ text, Expression.parse text = .ok a.expression := by
  obtain ⟨bs, as, a, hbs, has, ha, -, -, -, rfl⟩ := compile_eq_ok.mp h
  intro b hb
  simp only [actions, List.mem_append, List.mem_map, List.mem_singleton] at hb
  rcases hb with (⟨v, hv, rfl⟩ | hb) | rfl
  · obtain ⟨d, -, -, hread⟩ := exists_of_mem_right (read_of_buildVariables hbs) hv
    exact ⟨_, hread⟩
  · obtain ⟨text, -, hread⟩ := exists_of_mem_right (read_of_buildRequirements has) hb
    exact ⟨text, hread⟩
  · obtain ⟨e, compiled, hread, -, rfl⟩ := buildAction_eq_ok.mp ha
    exact ⟨_, hread⟩

/-! ### Checks -/

theorem checkVariable_eq_ok {names : List String} {a : Action} :
    checkVariable names a = .ok () ↔
      ∀ name, a.expression.variableName? = some name → name ∈ names := by
  rw [checkVariable]
  cases a.expression.variableName? with
  | none => simp
  | some name => by_cases h : name ∈ names <;> simp [h]

theorem checkAll_eq_ok {names : List String} {as : List Action} :
    checkAll names as = .ok () ↔ ∀ a ∈ as, checkVariable names a = .ok () := by
  induction as with
  | nil => simp [checkAll]
  | cons a as ih =>
    rw [checkAll, List.forall_mem_cons, ← ih]
    cases checkVariable names a <;> simp [bind, Except.bind]

/-- Each variable may start from those before it, and from no others. -/
theorem checkVariables_eq_ok {names : List String} {vs : List (String × Action)} :
    checkVariables names vs = .ok () ↔ ∀ (i : Nat) (v : String × Action), vs[i]? = some v →
      checkVariable (names ++ (vs.take i).map (·.1)) v.2 = .ok () := by
  induction vs generalizing names with
  | nil => simp [checkVariables]
  | cons v vs ih =>
    have hcons : checkVariables names (v :: vs) = .ok () ↔
        checkVariable names v.2 = .ok () ∧ checkVariables (names ++ [v.1]) vs = .ok () := by
      rw [checkVariables]
      cases checkVariable names v.2 <;> simp [bind, Except.bind]
    rw [hcons, ih]
    constructor
    · rintro ⟨hv, hvs⟩ i w hw
      cases i with
      | zero =>
        obtain rfl := Option.some.inj hw
        simpa using hv
      | succ i => simpa using hvs i w hw
    · intro h
      refine ⟨by simpa using h 0 v rfl, fun i w hw => ?_⟩
      simpa using h (i + 1) w hw

/-! ### Checks of what was read -/

theorem checkVariable_iff {names : List String} {text : String} {a : Action}
    (hread : Expression.parse text = .ok a.expression) :
    checkVariable names a = .ok () ↔
      ∀ name, Expression.StartsFrom text name → name ∈ names := by
  rw [checkVariable_eq_ok]
  exact forall_congr' fun name => imp_congr_left (Expression.startsFrom_iff hread).symm

theorem checkAll_iff {names : List String} {texts : List String} {as : List Action}
    (hread : List.Forall₂ (fun text a => Expression.parse text = .ok a.expression) texts as) :
    checkAll names as = .ok () ↔
      ∀ text ∈ texts, ∀ name, Expression.StartsFrom text name → name ∈ names := by
  rw [checkAll_eq_ok]
  induction hread with
  | nil => simp
  | cons hparse _ ih =>
    rw [List.forall_mem_cons, List.forall_mem_cons, checkVariable_iff hparse, ih]

theorem checkVariables_iff {ds : List Binding} {vs : List (String × Action)}
    (hread : List.Forall₂
      (fun d v => v.1 = d.name ∧ Expression.parse d.expression = .ok v.2.expression) ds vs) :
    checkVariables [] vs = .ok () ↔ ∀ (i : Nat) (d : Binding), ds[i]? = some d →
      ∀ name, Expression.StartsFrom d.expression name → name ∈ (ds.take i).map (·.name) := by
  have hnames : vs.map (·.1) = ds.map (·.name) := map_fst_of_read hread
  rw [checkVariables_eq_ok]
  refine (forall_getElem?_congr hread fun i d v hdv => ?_).symm
  rw [checkVariable_iff hdv.2, List.nil_append, List.map_take, List.map_take, hnames]

/-! ### One rule -/

/-- **What can be compiled is what is well-formed**, wherever the rule stands. -/
theorem exists_compile_eq_ok {d : RuleDefinition} :
    (∃ r, compile site id d = .ok r) ↔ d.WellFormed site.lookups := by
  constructor
  · rintro ⟨r, hr⟩
    obtain ⟨bs, as, a, hbs, has, ha, hvariables, hrequirements, hextraction, -⟩ :=
      compile_eq_ok.mp hr
    obtain ⟨hnames, -, htexts⟩ := (exists_buildVariables_eq_ok _ _ _).mp ⟨bs, hbs⟩
    have hplain := (exists_buildRequirements_eq_ok _ _).mp ⟨as, has⟩
    have hextract := (exists_buildAction_eq_ok _ _ _).mp ⟨a, ha⟩
    obtain ⟨e, compiled, hparse, -, rfl⟩ := buildAction_eq_ok.mp ha
    have hread := read_of_buildVariables hbs
    rw [map_fst_of_read hread] at hrequirements hextraction
    refine ⟨hnames, fun b hb => (htexts b hb).1, ?_, fun b hb => (htexts b hb).2,
      (checkVariables_iff hread).mp hvariables, ?_⟩
    · exact List.forall_mem_append.mpr ⟨hplain, List.forall_mem_singleton.mpr hextract⟩
    · refine List.forall_mem_append.mpr
        ⟨(checkAll_iff (read_of_buildRequirements has)).mp hrequirements, ?_⟩
      exact List.forall_mem_singleton.mpr ((checkVariable_iff hparse).mp hextraction)
  · intro hd
    obtain ⟨hrequirements, hextract⟩ := List.forall_mem_append.mp hd.plain
    obtain ⟨hknown, hlast⟩ := List.forall_mem_append.mp hd.declared
    rw [List.forall_mem_singleton] at hextract hlast
    obtain ⟨bs, hbs⟩ := (exists_buildVariables_eq_ok site id []).mpr
      ⟨hd.names, by simp, fun b hb => ⟨hd.bindings b hb, hd.notFixed b hb⟩⟩
    obtain ⟨as, has⟩ := (exists_buildRequirements_eq_ok site (id + bs.length)).mpr hrequirements
    obtain ⟨a, ha⟩ :=
      (exists_buildAction_eq_ok site (id + bs.length + as.length) .extraction).mpr hextract
    have hread := read_of_buildVariables hbs
    obtain ⟨e, compiled, hparse, -, rfl⟩ := buildAction_eq_ok.mp ha
    refine ⟨_, compile_eq_ok.mpr ⟨bs, as, _, hbs, has, ha, ?_, ?_, ?_, rfl⟩⟩
    · exact (checkVariables_iff hread).mpr hd.earlier
    · rw [map_fst_of_read hread]
      exact (checkAll_iff (read_of_buildRequirements has)).mpr hknown
    · rw [map_fst_of_read hread]
      exact (checkVariable_iff hparse).mpr hlast

end Rule

/-! ### All rules of a set -/

namespace RuleSet

variable {lookups : Lookups} {verbose : Bool}

/-- Rules are added as long as each can be compiled by itself. -/
theorem exists_addAll_eq_ok (start : RuleSet) {ds : List RuleDefinition} :
    (∃ rs, start.addAll lookups verbose ds = .ok rs) ↔
      ∀ d ∈ ds, ∃ r, Rule.compile ⟨lookups, 0, verbose⟩ 0 d = .ok r := by
  induction ds generalizing start with
  | nil => simp [addAll]
  | cons d ds ih =>
    rw [addAll, add_eq, List.forall_mem_cons]
    cases hr : Rule.compile ⟨lookups, 0, verbose⟩ 0 d with
    | error cause => simp
    | ok r =>
      rw [← ih (start.append r)]
      simp

/-- The first definition that cannot be compiled by itself decides on the error. -/
theorem addAll_eq_error {ds : List RuleDefinition} {start : RuleSet} {e : RuleError} :
    start.addAll lookups verbose ds = .error e ↔
      ∃ before d after cause, ds = before ++ d :: after ∧
        (∀ b ∈ before, ∃ r, Rule.compile ⟨lookups, 0, verbose⟩ 0 b = .ok r) ∧
        Rule.compile ⟨lookups, 0, verbose⟩ 0 d = .error cause ∧ e = ⟨d.name, cause⟩ := by
  induction ds generalizing start with
  | nil => simp [addAll]
  | cons d ds ih =>
    rw [addAll, add_eq]
    cases hr : Rule.compile ⟨lookups, 0, verbose⟩ 0 d with
    | error cause =>
      constructor
      · intro h
        exact ⟨[], d, ds, cause, rfl, by simp, hr, (Except.error.inj h).symm⟩
      · rintro ⟨before, b, after, cause', hds, hbefore, hb, rfl⟩
        -- A definition that fails is not among those before the first that fails.
        cases before with
        | nil =>
          obtain ⟨rfl, rfl⟩ := List.cons.inj hds
          rw [Except.error.inj (hr.symm.trans hb)]
        | cons c before =>
          obtain ⟨rfl, rfl⟩ := List.cons.inj hds
          obtain ⟨r, hc⟩ := hbefore d List.mem_cons_self
          exact absurd (hr.symm.trans hc) (by simp)
    | ok r =>
      dsimp only
      rw [ih]
      constructor
      · rintro ⟨before, b, after, cause, rfl, hbefore, hb, he⟩
        exact ⟨d :: before, b, after, cause, rfl, List.forall_mem_cons.mpr ⟨⟨r, hr⟩, hbefore⟩, hb,
          he⟩
      · rintro ⟨before, b, after, cause, hds, hbefore, hb, he⟩
        cases before with
        | nil =>
          obtain ⟨rfl, rfl⟩ := List.cons.inj hds
          exact absurd (hr.symm.trans hb) (by simp)
        | cons c before =>
          obtain ⟨rfl, rfl⟩ := List.cons.inj hds
          exact ⟨before, b, after, cause, rfl, (List.forall_mem_cons.mp hbefore).2, hb, he⟩

theorem exists_build_singleton_eq_ok {d : RuleDefinition} :
    (∃ rs, build lookups verbose [d] = .ok rs) ↔
      ∃ r, Rule.compile ⟨lookups, 0, verbose⟩ 0 d = .ok r := by
  rw [build, exists_addAll_eq_ok, List.forall_mem_singleton]

theorem build_singleton_eq_error {d : RuleDefinition} {e : RuleError} :
    build lookups verbose [d] = .error e ↔
      ∃ cause, Rule.compile ⟨lookups, 0, verbose⟩ 0 d = .error cause ∧ e = ⟨d.name, cause⟩ := by
  rw [build, addAll, add_eq]
  cases Rule.compile ⟨lookups, 0, verbose⟩ 0 d with
  | error cause => simp [eq_comm]
  | ok r => simp [addAll]

/-- **What builds, and what is wrong otherwise.** A set builds exactly when all its definitions
    are well-formed. Otherwise the error is that of the first definition that does not build by
    itself: it names this definition and has the cause that it has when the definition is built
    by itself. -/
theorem build_exact (lookups : Lookups) (verbose : Bool) (ds : List RuleDefinition) :
    ((∃ rs, build lookups verbose ds = .ok rs) ↔ ∀ d ∈ ds, d.WellFormed lookups) ∧
      ∀ e, build lookups verbose ds = .error e ↔
        ∃ before d after, ds = before ++ d :: after ∧
          (∀ b ∈ before, ∃ rs, build lookups verbose [b] = .ok rs) ∧
          build lookups verbose [d] = .error e ∧ e.rule = d.name := by
  constructor
  · rw [build, exists_addAll_eq_ok]
    exact forall₂_congr fun d _ => Rule.exists_compile_eq_ok
  · intro e
    rw [build, addAll_eq_error]
    constructor
    · rintro ⟨before, d, after, cause, hds, hbefore, hd, he⟩
      refine ⟨before, d, after, hds, fun b hb => exists_build_singleton_eq_ok.mpr (hbefore b hb),
        build_singleton_eq_error.mpr ⟨cause, hd, he⟩, ?_⟩
      rw [he]
    · rintro ⟨before, d, after, hds, hbefore, hd, -⟩
      obtain ⟨cause, hcause, he⟩ := build_singleton_eq_error.mp hd
      exact ⟨before, d, after, cause, hds,
        fun b hb => exists_build_singleton_eq_ok.mp (hbefore b hb), hcause, he⟩

/-- The first rule that is wrong is blamed, and not the one after it. -/
example :
    let good : RuleDefinition := ⟨"good", [⟨"A", "agent.(0)product"⟩], [], ⟨"F", 1, "@A.name"⟩⟩
    let late : RuleDefinition :=
      ⟨"late", [⟨"A", "@B.name"⟩, ⟨"B", "agent.(0)product"⟩], [], ⟨"F", 1, "@A"⟩⟩
    let unreadable : RuleDefinition := ⟨"unreadable", [], [], ⟨"F", 1, "agent."⟩⟩
    (match build .empty false [good, late, unreadable] with
      | .ok _ => none
      | .error e => some e.message) =
        some "rule \"late\": unknown variable \"@B\" in \"@B.name\"" := by
  decide +kernel

end RuleSet

end AgentRules
