/-
  Answering a path by the index, and by a program.

  The index finds all places that the leading steps of a path lead to, its landings, and an
  action goes on from the first of them. A program that does all steps of the path itself
  goes down to the same landings in the same order, but tries the next one when the
  remaining steps fail (`runSteps_eq_findSome?`). So a value that the action finds is found
  by the program too, and where there is one landing at most or where nothing can fail they
  find the same (`evaluate_agrees`).

  Both have to split the path at the same step, `filings` and `unindexed`, and both have to
  keep all steps of the path when they drop steps at the end that cannot fail.
-/
import AgentRules.Proofs.MatchState
import AgentRules.Proofs.Numbering
import AgentRules.Proofs.Walk

namespace AgentRules

/-! ### Landings -/

namespace PathStep

/-- The places that the leading steps of a path lead to, in preorder, with what they take
    there. -/
def landings : List PathStep → Place → List (Place × String)
  | down kind range :: steps, p =>
    p.children.flatMap fun c =>
      if c.node.kind = kind ∧ range.contains c.node.index then landings steps c else []
  | steps, p => (answerHere steps p.node.value).toList.map (p, ·)

/-- Steps without a descent in front take something from the place itself only. -/
theorem filterMap_answer_of_no_descent {steps : List PathStep}
    (hhere : ∀ v, answer steps [] v = answerHere steps v)
    (hbelow : ∀ c way v, answer steps (c :: way) v = none) (p : Place) :
    (p.preorder.filterMap fun q => (answer steps (p.wayTo q) q.node.value).map (q, ·)) =
      (answerHere steps p.node.value).toList.map (p, ·) := by
  have hrest : (p.children.flatMap Place.preorder).filterMap
      (fun q => (answer steps (p.wayTo q) q.node.value).map (q, ·)) = [] := by
    rw [List.filterMap_eq_nil_iff]
    intro q hq
    obtain ⟨c, hc, hq⟩ := List.mem_flatMap.mp hq
    rw [Place.wayTo_of_child hc hq, Place.lineage, hbelow]
    rfl
  rw [Place.preorder_eq, List.filterMap_cons, hrest, Place.wayTo_self, hhere]
  cases answerHere steps p.node.value <;> rfl

/-- **The landings are the answers to all places below**, in preorder. -/
theorem filterMap_answer_eq_landings (steps : List PathStep) (p : Place) :
    (p.preorder.filterMap fun q => (answer steps (p.wayTo q) q.node.value).map (q, ·)) =
      landings steps p := by
  induction steps generalizing p with
  | nil => exact filterMap_answer_of_no_descent (fun _ => rfl) (fun _ _ _ => rfl) p
  | cons step steps ih =>
    cases step with
    | test t text => exact filterMap_answer_of_no_descent (fun _ => rfl) (fun _ _ _ => rfl) p
    | words range => exact filterMap_answer_of_no_descent (fun _ => rfl) (fun _ _ _ => rfl) p
    | down kind range =>
      have hself : (answer (down kind range :: steps) (p.wayTo p) p.node.value).map (p, ·) =
          none := by
        rw [Place.wayTo_self]
        rfl
      rw [Place.preorder_eq, List.filterMap_cons, hself, List.filterMap_flatMap, landings]
      -- The descent decides about a child and all places below it at once.
      refine List.flatMap_congr fun c hc => ?_
      have hchild : ∀ q ∈ c.preorder,
          (answer (down kind range :: steps) (p.wayTo q) q.node.value).map (q, ·) =
            if c.node.kind = kind ∧ range.contains c.node.index then
              (answer steps (c.wayTo q) q.node.value).map (q, ·) else none := by
        intro q hq
        rw [Place.wayTo_of_child hc hq, Place.lineage, answer]
        split <;> rfl
      rw [List.filterMap_congr hchild]
      split
      · exact ih c
      · exact List.filterMap_none _

/-- Whether all descents at the start of some steps go to one child. -/
def SingleFile : List PathStep → Prop
  | down _ range :: steps => range.first = range.last ∧ SingleFile steps
  | _ => True

/-- **In a numbered tree steps in single file have one landing at most.** -/
theorem length_landings_le_one {steps : List PathStep} (h : SingleFile steps) {p : Place}
    (hp : p.node.Numbered) : (landings steps p).length ≤ 1 := by
  induction steps generalizing p with
  | nil => exact Nat.le_refl 1
  | cons step steps ih =>
    have hhere : ∀ o : Option String, (o.toList.map (p, ·)).length ≤ 1 := by
      intro o
      cases o <;> simp
    cases step with
    | test t text => exact hhere _
    | words range => exact hhere _
    | down kind range =>
      obtain ⟨hrange, h⟩ := h
      refine length_flatMap_le_one (fun c hc => ?_) ?_
      · split
        · obtain ⟨i, n, hn, rfl⟩ := Place.mem_children.mp hc
          exact ih h (hp.of_mem_children (List.mem_of_getElem? hn))
        · exact Nat.zero_le 1
      · rw [List.pairwise_iff_getElem]
        intro i j hi hj hij
        by_contra hboth
        obtain ⟨hleft, hright⟩ := not_or.mp hboth
        obtain ⟨hki, hri⟩ := (ite_ne_right_iff.mp hleft).1
        obtain ⟨hkj, hrj⟩ := (ite_ne_right_iff.mp hright).1
        -- Both children have the kind and the one index of the range.
        simp only [Place.children, List.length_mapIdx] at hi hj
        simp only [Place.children, List.getElem_mapIdx, Place.below, ChildRange.contains,
          Bool.and_eq_true, decide_eq_true_eq] at hki hri hkj hrj
        have hsame : i = j := hp.eq_of_kind_of_index (List.getElem?_eq_getElem hi)
          (List.getElem?_eq_getElem hj) (hki.trans hkj.symm) (by omega)
        omega

end PathStep

/-- **The first candidate of a path is its first landing**, if the path starts down to the
    root. -/
theorem Path.map_findSome?_candidateAt (kind : Fragment) (range : ChildRange)
    (steps : List PathStep) (root : Place) :
    (root.preorder.findSome? ((Path.fromRoot (.down kind range :: steps)).candidateAt root)).map
        (fun c => (c.place, c.value)) =
      if root.node.kind = kind ∧ range.contains root.node.index then
        (PathStep.landings steps root).head? else none := by
  rw [List.map_findSome?, ← List.head?_filterMap]
  have hanswer : ∀ q : Place,
      (Path.fromRoot (.down kind range :: steps)).answer (root.lineage q) q.node.value =
        if root.node.kind = kind ∧ range.contains root.node.index then
          PathStep.answer steps (root.wayTo q) q.node.value else none := fun _ => rfl
  have hcandidate : (Option.map (fun c => (c.place, c.value)) ∘
      (Path.fromRoot (.down kind range :: steps)).candidateAt root) = fun q =>
        if root.node.kind = kind ∧ range.contains root.node.index then
          (PathStep.answer steps (root.wayTo q) q.node.value).map (q, ·) else none := by
    funext q
    rw [Function.comp_apply, map_candidateAt, hanswer]
    split <;> rfl
  rw [hcandidate]
  split
  · rw [PathStep.filterMap_answer_eq_landings]
  · rw [List.filterMap_none]
    rfl

/-! ### Running a program -/

namespace Program

theorem runSteps_of_transform {step : Step} (hstep : ∀ kind range, step ≠ .down kind range)
    (steps : List Step) (place : Place) (value : String) :
    runSteps (step :: steps) place value =
      (step.transform value).bind (runSteps steps place) := by
  rw [runSteps]
  · cases step.transform value <;> rfl
  · exact fun kind range h => hstep kind range h

/-- Doing steps is doing their first test, if an index can answer it, and then the others. -/
theorem runSteps_answerTest (steps : List PathStep) (after : List Step) (place : Place)
    (value : String) :
    runSteps (steps.map .ofPathStep ++ after) place value =
      (PathStep.answerTest steps value).bind
        (runSteps ((PathStep.afterTest steps).map .ofPathStep ++ after) place) := by
  rcases steps with _ | ⟨_ | ⟨_ | _ | _ | _ | _, text⟩ | _, steps⟩
  case cons.test.equals =>
    rw [List.map_cons, List.cons_append, Step.ofPathStep, runSteps_of_transform (by simp)]
    simp [Step.transform, Test.holds, PathStep.answerTest, PathStep.afterTest]
  case cons.test.startsWith =>
    rw [List.map_cons, List.cons_append, Step.ofPathStep, runSteps_of_transform (by simp)]
    simp [Step.transform, Test.holds, PathStep.answerTest, PathStep.afterTest]
  all_goals rfl

theorem runSteps_answerHere {steps : List PathStep} (hsteps : ∀ kind range rest,
    steps ≠ .down kind range :: rest) (after : List Step) (place : Place) (value : String) :
    runSteps (steps.map .ofPathStep ++ after) place value =
      (PathStep.answerHere steps value).bind
        (runSteps ((PathStep.unindexed steps).map .ofPathStep ++ after) place) := by
  rcases steps with _ | ⟨step, steps⟩
  · exact runSteps_answerTest [] after place value
  · cases step with
    | down kind range => exact absurd rfl (hsteps kind range steps)
    | test t text => exact runSteps_answerTest (.test t text :: steps) after place value
    | words range =>
      rw [List.map_cons, List.cons_append, Step.ofPathStep, runSteps_of_transform (by simp),
        PathStep.answerHere, Option.bind_assoc]
      exact congrArg _ (funext (runSteps_answerTest steps after place))

/-- **A program goes on from the landings of a path in order**, until the remaining steps get
    through. -/
theorem runSteps_eq_findSome? (steps : List PathStep) (after : List Step) (place : Place) :
    runSteps (steps.map .ofPathStep ++ after) place place.node.value =
      (PathStep.landings steps place).findSome? fun l =>
        runSteps ((PathStep.unindexed steps).map .ofPathStep ++ after) l.1 l.2 := by
  have hhere : ∀ (steps : List PathStep) (place : Place),
      (∀ kind range rest, steps ≠ .down kind range :: rest) →
      runSteps (steps.map .ofPathStep ++ after) place place.node.value =
        ((PathStep.answerHere steps place.node.value).toList.map (place, ·)).findSome? fun l =>
          runSteps ((PathStep.unindexed steps).map .ofPathStep ++ after) l.1 l.2 := by
    intro steps place hsteps
    rw [runSteps_answerHere hsteps]
    cases PathStep.answerHere steps place.node.value with
    | none => rfl
    | some v => simp
  induction steps generalizing place with
  | nil => exact hhere [] place (by simp)
  | cons step steps ih =>
    cases step with
    | test t text => exact hhere (.test t text :: steps) place (by simp)
    | words range => exact hhere (.words range :: steps) place (by simp)
    | down kind range =>
      rw [List.map_cons, List.cons_append, Step.ofPathStep, runSteps, PathStep.landings,
        findSome?_flatMap]
      congr 1
      funext c
      by_cases hc : c.node.kind = kind ∧ range.contains c.node.index
      · rw [if_pos hc, if_pos hc]
        exact ih c
      · rw [if_neg hc, if_neg hc]
        rfl

theorem isSome_runSteps {steps : List Step} (h : ∀ step ∈ steps, step.canFail = false)
    (place : Place) (value : String) : (runSteps steps place value).isSome := by
  induction steps generalizing value with
  | nil => rfl
  | cons step steps ih =>
    obtain ⟨hstep, h⟩ := List.forall_mem_cons.mp h
    have hdown : ∀ kind range, step ≠ .down kind range := by
      rintro kind range rfl
      simp [Step.canFail] at hstep
    have htransform : (step.transform value).isSome := by
      cases step <;> simp_all [Step.canFail, Step.transform]
    rw [runSteps_of_transform hdown]
    obtain ⟨v, hv⟩ := Option.isSome_iff_exists.mp htransform
    rw [hv]
    exact ih h v

end Program

/-! ### Compiling -/

namespace Step

theorem canFail_ofPathStep (step : PathStep) : (ofPathStep step).canFail := by
  cases step <;> rfl

/-- Steps that can fail are kept, whatever comes after them. -/
theorem prune_append {before : List Step} (h : ∀ step ∈ before, step.canFail)
    (after : List Step) : prune (before ++ after) = before ++ prune after := by
  have hbefore : before.reverse.dropWhile (!·.canFail) = before.reverse := by
    cases hr : before.reverse with
    | nil => rfl
    | cons step steps =>
      have hmem : step ∈ before := List.mem_reverse.mp (hr ▸ List.mem_cons_self)
      simp [h step hmem]
  rw [prune, List.reverse_append, List.dropWhile_append, hbefore]
  -- Either nothing is left of the steps after, or dropping stops among them.
  split
  · rename_i hnil
    rw [prune, List.isEmpty_iff.mp hnil]
    simp
  · rw [List.reverse_append, List.reverse_reverse, prune]

end Step

/-- The steps that come after those of a path, by the steps of the functions around it. -/
def Step.afterPath (pruned : Bool) (functions : List Step) : List Step :=
  if pruned then prune functions.reverse else functions.reverse

theorem Term.splitIsNull_of_notMem {wrappers : List Wrapper} (hnull : .isNull ∉ wrappers)
    (path : Path) : (⟨wrappers, path⟩ : Term).splitIsNull = (false, wrappers) := by
  cases wrappers with
  | nil => rfl
  | cons w ws => cases w <;> first | rfl | simp at hnull

/-- **A path keeps all steps that remain of it**, also where steps at the end are dropped. -/
theorem Term.compile_eq (lookups : Lookups) (pruned : Bool) {wrappers : List Wrapper}
    (hnull : .isNull ∉ wrappers) {path : Path} (hpath : ∀ text, path ≠ .literal text) :
    (⟨wrappers, path⟩ : Term).compile lookups pruned =
      (Wrapper.compileAll lookups wrappers).map fun functions =>
        .program ⟨path.remaining.map .ofPathStep ++ Step.afterPath pruned functions, false⟩ := by
  have hkept : ∀ after, Step.prune (path.remaining.map .ofPathStep ++ after) =
      path.remaining.map .ofPathStep ++ Step.prune after := by
    refine Step.prune_append fun step hstep => ?_
    obtain ⟨s, -, rfl⟩ := List.mem_map.mp hstep
    exact Step.canFail_ofPathStep s
  rw [Term.compile, splitIsNull_of_notMem hnull]
  dsimp only
  cases Wrapper.compileAll lookups wrappers with
  | error fault => rfl
  | ok functions =>
    cases path with
    | literal text => exact absurd rfl (hpath text)
    | fromRoot steps => cases pruned <;> simp [hkept, Except.map, Step.afterPath]
    | fromVariable name steps => cases pruned <;> simp [hkept, Except.map, Step.afterPath]

/-! ### Evaluating after a walk -/

/-- The path that goes on from the root of a tree. -/
def Path.fromAgent (steps : List PathStep) : Path := .fromRoot (.down .agent (.single 0) :: steps)

namespace MatchState

/-- The state of some actions after a walk, of which they are informed from a new state on. -/
def afterWalk (actions : List Action) (slots rules : Nat) (root : Place) : MatchState :=
  ((actions.foldl Action.file .empty).walk root).foldl
    (receive fun id => actions.find? (·.id = id)) (new slots rules)

variable {actions : List Action} (hnd : (actions.map (·.id)).Nodup)

include hnd

/-- **After a walk an action has the first landing of its path.** -/
theorem candidate?_afterWalk {a : Action} (ha : a ∈ actions) (hcap : 0 < a.capacity)
    {steps : List PathStep} (hpath : a.path = .fromAgent steps) {slots : Nat}
    (hid : a.id < slots) (rules : Nat) {root : Place} (hkind : root.node.kind = .agent)
    (hindex : root.node.index = 0) :
    ((afterWalk actions slots rules root).candidate? a.id).map (fun c => (c.place, c.value)) =
      (PathStep.landings steps root).head? := by
  have hentries : actions.foldl Action.file .empty =
      .registerAll (actions.map fun a => (a.id, a.path)) := by
    rw [RouteIndex.registerAll, List.foldl_map]
    rfl
  have hsize : a.id < (new slots rules).slots.size := by
    rwa [new, Array.size_replicate]
  have hkeyed : Keyed fun id => actions.find? (·.id = id) :=
    fun id a h => by simpa using List.find?_some h
  have hfirst := candidate?_walk hkeyed hnd ha (find?_of_nodup_map hnd ha) root hsize
    (candidate?_new slots rules a.id)
  rw [afterWalk, hentries, hfirst, if_pos hcap, hpath, Path.fromAgent,
    Path.map_findSome?_candidateAt, if_pos ⟨hkind, by rw [hindex]; rfl⟩]

end MatchState

namespace Action

/-- An action with a program finds what the program makes of its candidate. -/
theorem evaluate_program {a : Action} {steps : List Step}
    (h : a.compiled = .program ⟨steps, false⟩) (st : MatchState) (value : String) :
    a.evaluate st = .matched value ↔
      ((st.candidate? a.id).bind fun c => Program.runSteps steps c.place c.value).map
        Result.value = some value := by
  rw [evaluate, h]
  cases st.candidate? a.id with
  | none => simp
  | some c =>
    simp only [Program.run, Option.bind_some]
    cases Program.runSteps steps c.place c.value <;> simp

theorem evaluate_program_none {a : Action} {steps : List Step}
    (h : a.compiled = .program ⟨steps, false⟩) (st : MatchState) :
    a.evaluate st = .notMatched ↔
      ((st.candidate? a.id).bind fun c => Program.runSteps steps c.place c.value) = none := by
  rw [evaluate, h]
  cases st.candidate? a.id with
  | none => simp
  | some c =>
    simp only [Program.run, Option.bind_some]
    cases Program.runSteps steps c.place c.value <;> simp

/-- An expression over a path from the root has the steps that the index does not answer, and
    then those of its functions. -/
theorem ofExpression_fromAgent {lookups : Lookups} {verbose : Bool} {id : ActionId} {rule : Nat}
    {role : Role} {text : String} {wrappers : List Wrapper} (hnull : .isNull ∉ wrappers)
    {steps : List PathStep} {e : Action}
    (he : ofExpression id rule role lookups verbose ⟨text, wrappers, .fromAgent steps⟩ = .ok e) :
    ∃ functions, Wrapper.compileAll lookups wrappers = .ok functions ∧
      e = ⟨id, rule, role, ⟨text, wrappers, .fromAgent steps⟩,
        .program ⟨(PathStep.unindexed steps).map .ofPathStep ++
          Step.afterPath (role = .requirement) functions, false⟩, verbose, 0⟩ := by
  rw [ofExpression, Term.compile_eq _ _ hnull (by simp [Path.fromAgent])] at he
  cases hfunctions : Wrapper.compileAll lookups wrappers with
  | error fault => exact absurd he (by simp [hfunctions, Except.map])
  | ok functions =>
    rw [hfunctions] at he
    exact ⟨functions, rfl, (Except.ok.inj he).symm⟩

/-- **The index agrees with a program that does all steps.** An expression over a path from
    the root is filed in an index, with other actions, and evaluated after a walk; the same
    functions over the same path from a variable are compiled to a program, which is run from
    the root. What the expression finds the program finds, and where the program finds nothing
    the expression does not match. They agree if all leading descents go to one child, in a
    tree that is numbered, or if no step that is left to the expression can fail. -/
theorem evaluate_agrees {lookups : Lookups} {verbose : Bool} {id : ActionId} {rule : Nat}
    {role : Role} {text : String} {wrappers : List Wrapper} (hnull : .isNull ∉ wrappers)
    {steps : List PathStep} {e : Action}
    (he : ofExpression id rule role lookups verbose ⟨text, wrappers, .fromAgent steps⟩ = .ok e)
    {actions : List Action} (hnd : (actions.map (·.id)).Nodup) (hmem : e.registered ∈ actions)
    {slots : Nat} (hid : id < slots) (rules : Nat) {root : Place}
    (hkind : root.node.kind = .agent) (hindex : root.node.index = 0) (name : String) :
    ∃ p, (⟨wrappers, .fromVariable name steps⟩ : Term).compile lookups (role = .requirement) =
        .ok (.program p) ∧
      steps.map Step.ofPathStep <+: p.steps ∧
      let outcome := e.registered.evaluate (.afterWalk actions slots rules root)
      let found := (p.run root root.node.value).map Result.value
      (∀ v, outcome = .matched v → found = some v) ∧
      (found = none → outcome = .notMatched) ∧
      (PathStep.SingleFile steps ∧ root.node.Numbered ∨
          (∀ r, e.compiled = .program r → ∀ step ∈ r.steps, step.canFail = false) →
        ∀ v, outcome = .matched v ↔ found = some v) := by
  obtain ⟨functions, hfunctions, rfl⟩ := ofExpression_fromAgent hnull he
  -- The steps that come after the path are the same in both programs.
  generalize hafter : Step.afterPath (role = .requirement) functions = after at hmem ⊢
  generalize hrest : (PathStep.unindexed steps).map Step.ofPathStep ++ after = rest at hmem ⊢
  generalize hreg : Action.registered _ = e at hmem ⊢
  have hcompiled : e.compiled = .program ⟨rest, false⟩ := by rw [← hreg]; rfl
  have hpath : e.path = .fromAgent steps := by rw [← hreg]; rfl
  have hslot : e.id < slots := by rw [← hreg]; exact hid
  have hfirst : ((MatchState.afterWalk actions slots rules root).candidate? e.id).bind
      (fun c => Program.runSteps rest c.place c.value) =
        (PathStep.landings steps root).head?.bind fun l => Program.runSteps rest l.1 l.2 := by
    have hcap : 0 < e.capacity := by
      rw [capacity, hcompiled]
      exact Nat.one_pos
    rw [← MatchState.candidate?_afterWalk hnd hmem hcap hpath hslot rules hkind hindex,
      Option.bind_map]
    rfl
  have hall := Program.runSteps_eq_findSome? steps after root
  rw [hrest] at hall
  refine ⟨⟨steps.map .ofPathStep ++ after, false⟩, ?_, List.prefix_append _ _, ?_⟩
  · rw [Term.compile_eq _ _ hnull (by simp), hfunctions, ← hafter]
    rfl
  dsimp only
  rw [Program.run, hall]
  simp only [evaluate_program hcompiled, evaluate_program_none hcompiled, hfirst]
  refine ⟨fun v hv => ?_, fun hnone => ?_, fun hagree v => ?_⟩
  · obtain ⟨r, hr, rfl⟩ := Option.map_eq_some_iff.mp hv
    rw [findSome?_of_head? hr]
    rfl
  · -- Had the expression found something, the program would have found it too.
    rw [Option.map_eq_none_iff] at hnone
    by_contra hsome
    obtain ⟨r, hr⟩ := Option.ne_none_iff_exists'.mp hsome
    rw [findSome?_of_head? hr] at hnone
    exact absurd hnone (by simp)
  · rw [findSome?_eq_head? ?_]
    rcases hagree with ⟨hfile, hnumbered⟩ | hsafe
    · exact .inl (PathStep.length_landings_le_one hfile hnumbered)
    · exact .inr fun l => Program.isSome_runSteps (hsafe _ rfl) l.1 l.2

/-- The name of the first product, found in both ways; the action beside it is for products. -/
theorem evaluate_agrees_on_name :
    let root : Place := ⟨[], .agent [.product "chrome" "1", .product "Moz" "5"]⟩
    let steps := [.down .product (.single 0), .down .name (.single 0)]
    let e : Action := ⟨4, 0, .extraction, ⟨"name", [.normalizeBrand], .fromAgent steps⟩,
      .program ⟨[.normalizeBrand], false⟩, false, 0⟩
    let beside : Action := ⟨3, 0, .requirement,
      ⟨"product", [], .fromAgent [.down .product (.usual .product)]⟩, .program ⟨[], false⟩,
      false, 10⟩
    let outcome := e.registered.evaluate (.afterWalk [beside, e.registered] 5 1 root)
    ∃ p, (⟨[.normalizeBrand], .fromVariable "agent" steps⟩ : Term).compile .empty false =
        .ok (.program p) ∧
      outcome = .matched "Chrome" ∧
      (p.run root root.node.value).map Result.value = some "Chrome" := by
  intro root steps e beside outcome
  have he : ofExpression 4 0 .extraction .empty false
      ⟨"name", [.normalizeBrand], .fromAgent steps⟩ = .ok e := rfl
  obtain ⟨p, hp, -, -, -, hagree⟩ := evaluate_agrees (by simp) he
    (by decide : ([beside, e.registered].map (·.id)).Nodup) (by simp) (by decide : 4 < 5) 1
    (rfl : root.node.kind = .agent) (rfl : root.node.index = 0) "agent"
  have houtcome : outcome = .matched "Chrome" := by decide +kernel
  refine ⟨p, hp, houtcome, (hagree (.inr ?_) "Chrome").mp houtcome⟩
  intro r hr
  obtain rfl := Compiled.program.inj hr
  decide

end Action

end AgentRules
