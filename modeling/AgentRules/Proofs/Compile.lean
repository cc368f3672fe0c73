/-
  What is done ahead of a run.

  Compiling does some of the work of a run before there is a tree. Functions over a literal are
  done at once, and of a requirement the steps at the end are dropped that cannot fail. Neither
  changes what comes out: a literal is folded to the value with which a run from its text would
  end (`Term.compile_literal_agrees`), and without the dropped steps a run gets through to the
  same place, from everywhere (`Expression.compile_pruned_agrees`).

  Both rest on steps that stay at their place. They do not look at the tree, so doing several of
  them is making a value out of a value (`Program.runSteps_of_stays`). A descent before such
  steps may try child after child, but if they cannot fail they do not decide on the child
  (`Program.map_place_runSteps_append`).
-/
import AgentRules.Action.Outcome
import AgentRules.Proofs.Landing
import AgentRules.Proofs.WellFormed

namespace AgentRules

/-! ### Steps that stay -/

namespace Step

/-- Whether a step stays at its place and goes by the value alone. -/
def stays : Step → Bool
  | down .. => false
  | _ => true

theorem ne_down_of_stays {step : Step} (h : step.stays) (kind : Fragment) (range : ChildRange) :
    step ≠ .down kind range := by
  rintro rfl
  exact absurd h (by simp [stays])

/-- Only a descent leaves its place, and a descent can fail. -/
theorem stays_of_canFail {step : Step} (h : step.canFail = false) : step.stays := by
  cases step with
  | down kind range => exact absurd h (by simp [canFail])
  | _ => rfl

end Step

/-- The step of a function stays. -/
theorem Wrapper.stays_of_compile {lookups : Lookups} {w : Wrapper} {step : Step}
    (h : w.compile lookups = .ok step) : step.stays := by
  have htable : ∀ (table : String) (f : LookupTable → Step), (∀ t, (f t).stays) →
      (lookups.require table).map f = .ok step → step.stays := by
    intro table f hf hstep
    cases ht : lookups.require table with
    | error fault => exact absurd hstep (by simp [ht, Except.map])
    | ok t =>
      rw [ht] at hstep
      exact Except.ok.inj hstep ▸ hf t
  cases w with
  | isNull => exact absurd h (by simp [compile])
  | lookUp table default | lookUpPrefix table default | isInLookUpPrefix table =>
    exact htable table _ (fun _ => rfl) h
  | _ => exact Except.ok.inj h ▸ rfl

theorem Wrapper.stays_of_compileAll {lookups : Lookups} {ws : List Wrapper} {steps : List Step}
    (h : compileAll lookups ws = .ok steps) : ∀ step ∈ steps, step.stays := by
  induction ws generalizing steps with
  | nil =>
    obtain rfl := Except.ok.inj h
    simp
  | cons w ws ih =>
    rw [compileAll] at h
    cases hw : w.compile lookups with
    | error fault => exact absurd h (by simp [hw])
    | ok step =>
      cases hws : compileAll lookups ws with
      | error fault => exact absurd h (by simp [hw, hws, Except.map])
      | ok rest =>
        simp only [hw, hws, Except.map, Except.ok.injEq] at h
        subst h
        exact List.forall_mem_cons.mpr ⟨stays_of_compile hw, ih hws⟩

namespace Program

/-- **Steps that stay make a value out of a value**, one after the other, and end where they
    began. -/
theorem runSteps_of_stays {steps : List Step} (h : ∀ step ∈ steps, step.stays) (place : Place)
    (value : String) :
    runSteps steps place value = (steps.foldlM Step.transform value).map (⟨place, ·⟩) := by
  induction steps generalizing value with
  | nil => rfl
  | cons step steps ih =>
    obtain ⟨hstep, h⟩ := List.forall_mem_cons.mp h
    rw [runSteps_of_transform (Step.ne_down_of_stays hstep), List.foldlM_cons,
      Option.bind_eq_bind, Option.map_bind]
    exact congrArg _ (funext (ih h))

end Program

/-! ### Folding -/

namespace Step

/-- **Folding is doing the steps**; where they make nothing of the literal, the fault names the
    one of them that does not get through. -/
theorem foldLiteral_spec (literal value : String) (steps : List Step) :
    match steps.foldlM transform value with
    | some v => foldLiteral literal value steps = .ok v
    | none => ∃ step ∈ steps, foldLiteral literal value steps = .error (.noValue step literal) := by
  induction steps generalizing value with
  | nil => rfl
  | cons step steps ih =>
    rw [List.foldlM_cons, Option.bind_eq_bind, foldLiteral]
    cases htransform : step.transform value with
    | none => exact ⟨step, List.mem_cons_self, rfl⟩
    | some v =>
      have hrest := ih v
      rw [Option.bind_some]
      cases hfold : steps.foldlM transform v with
      | some w =>
        rw [hfold] at hrest
        exact hrest
      | none =>
        rw [hfold] at hrest
        obtain ⟨failing, hmem, herror⟩ := hrest
        exact ⟨failing, List.mem_cons_of_mem step hmem, herror⟩

end Step

/-- Whether the expression is at fault, and not the tables that are given for it. -/
def CompileFault.isInvalid : CompileFault → Bool
  | unknownTable _ => false
  | innerIsNull | isNullOverLiteral | noValue .. => true

namespace Term

/-- Functions over a literal are compiled, and then done in the order of a program. -/
theorem compile_literal (lookups : Lookups) (pruned : Bool) {wrappers : List Wrapper}
    (hnull : .isNull ∉ wrappers) (text : String) :
    (⟨wrappers, .literal text⟩ : Term).compile lookups pruned =
      (Wrapper.compileAll lookups wrappers).bind fun functions =>
        (Step.foldLiteral text text functions.reverse).map .fixed := by
  rw [compile, splitIsNull_of_notMem hnull]
  dsimp only
  cases Wrapper.compileAll lookups wrappers <;> rfl

/-- **Folding a literal agrees with running.** Some functions, none of them the check for a
    missing value, stand over a literal; and the same functions over a variable are compiled to
    a program, which is run from any place with the text of the literal. The literal is folded
    to a value when the run ends with that value, it is refused as invalid when the run ends
    nowhere, and it wants for a table when the program does. Whether steps may be dropped makes
    no difference to the literal. -/
theorem compile_literal_agrees {wrappers : List Wrapper} (hnull : .isNull ∉ wrappers)
    (lookups : Lookups) (pruned : Bool) (text name : String) (place : Place) :
    let folded := (⟨wrappers, .literal text⟩ : Term).compile lookups pruned
    let started := (⟨wrappers, .fromVariable name []⟩ : Term).compile lookups false
    (∀ value, folded = .ok (.fixed value) ↔
        ∃ p, started = .ok (.program p) ∧ (p.run place text).map Result.value = some value) ∧
      ((∃ fault, folded = .error fault ∧ fault.isInvalid) ↔
        ∃ p, started = .ok (.program p) ∧ p.run place text = none) ∧
      (∀ table, folded = .error (.unknownTable table) ↔
        started = .error (.unknownTable table)) ∧
      folded = (⟨wrappers, .literal text⟩ : Term).compile lookups (!pruned) := by
  intro folded started
  have hfolded := fun pruned => compile_literal lookups pruned hnull text
  have hstarted : started = (Wrapper.compileAll lookups wrappers).map fun functions =>
      .program ⟨functions.reverse, false⟩ := compile_eq lookups false hnull (by simp)
  have hsame : folded = (⟨wrappers, .literal text⟩ : Term).compile lookups (!pruned) :=
    (hfolded pruned).trans (hfolded (!pruned)).symm
  replace hfolded : folded = _ := hfolded pruned
  cases hfunctions : Wrapper.compileAll lookups wrappers with
  | error fault =>
    -- A table is missing, and neither is there a program.
    obtain ⟨w, -, table, -, -, rfl⟩ := Wrapper.compileAll_error hnull hfunctions
    rw [hfunctions, Except.bind] at hfolded
    rw [hfunctions, Except.map] at hstarted
    refine ⟨?_, ?_, ?_, hsame⟩
    · simp [hfolded, hstarted]
    · simp [hfolded, hstarted, CompileFault.isInvalid]
    · simp [hfolded, hstarted]
  | ok functions =>
    rw [hfunctions, Except.bind] at hfolded
    rw [hfunctions, Except.map] at hstarted
    have hrun : Program.run ⟨functions.reverse, false⟩ place text =
        (functions.reverse.foldlM Step.transform text).map (⟨place, ·⟩) := by
      refine Program.runSteps_of_stays (fun step hstep => ?_) place text
      exact Wrapper.stays_of_compileAll hfunctions step (List.mem_reverse.mp hstep)
    have hspec := Step.foldLiteral_spec text text functions.reverse
    cases hvalue : functions.reverse.foldlM Step.transform text with
    | some value =>
      rw [hvalue] at hspec hrun
      rw [hspec, Except.map] at hfolded
      refine ⟨?_, ?_, ?_, hsame⟩
      · simp [hfolded, hstarted, hrun]
      · simp [hfolded, hstarted, hrun]
      · simp [hfolded, hstarted]
    | none =>
      rw [hvalue] at hspec hrun
      obtain ⟨step, -, herror⟩ := hspec
      rw [herror, Except.map] at hfolded
      refine ⟨?_, ?_, ?_, hsame⟩
      · simp [hfolded, hstarted, hrun]
      · simp [hfolded, hstarted, hrun, CompileFault.isInvalid]
      · simp [hfolded, hstarted]

/-- The name of a system behind a word is looked up, at once and by a program. -/
theorem compile_literal_agrees_on_system :
    let lookups : Lookups := ⟨[.ofEntries "Systems" none [("win", "Windows")]]⟩
    let wrappers := [.concat (some "on ") none, .lookUp "Systems" none, .words ⟨-1, some (-1)⟩,
      .normalizeBrand]
    let place : Place := ⟨[], .leaf .agent "anything"⟩
    (⟨wrappers, .literal "os WIN"⟩ : Term).compile lookups true = .ok (.fixed "on Windows") ∧
      ∃ p, (⟨wrappers, .fromVariable "V" []⟩ : Term).compile lookups false = .ok (.program p) ∧
        (p.run place "os WIN").map Result.value = some "on Windows" := by
  intro lookups wrappers place
  have hnull : .isNull ∉ wrappers := by decide
  have hvalue := (compile_literal_agrees hnull lookups true "os WIN" "V" place).1 "on Windows"
  have hfolded : (⟨wrappers, .literal "os WIN"⟩ : Term).compile lookups true =
      .ok (.fixed "on Windows") := by rfl
  exact ⟨hfolded, hvalue.mp hfolded⟩

end Term

/-! ### Dropping steps -/

namespace Step

theorem exists_eq_prune_append (steps : List Step) :
    ∃ dropped, steps = prune steps ++ dropped ∧ ∀ step ∈ dropped, step.canFail = false := by
  refine ⟨(steps.reverse.takeWhile (!·.canFail)).reverse, ?_, fun step hstep => ?_⟩
  · rw [prune, ← List.reverse_append, List.takeWhile_append_dropWhile, List.reverse_reverse]
  · rw [List.mem_reverse] at hstep
    simpa using List.all_eq_true.mp List.all_takeWhile step hstep

theorem prune_subset (steps : List Step) : prune steps ⊆ steps := by
  obtain ⟨dropped, hsteps, -⟩ := exists_eq_prune_append steps
  exact fun step hstep => hsteps ▸ List.mem_append_left _ hstep

end Step

namespace Program

/-- Steps that cannot fail end where they began. -/
theorem map_place_runSteps {steps : List Step} (h : ∀ step ∈ steps, step.canFail = false)
    (place : Place) (value : String) :
    (runSteps steps place value).map Result.place = some place := by
  obtain ⟨r, hr⟩ := Option.isSome_iff_exists.mp (isSome_runSteps h place value)
  have hstays := runSteps_of_stays (fun step hstep => Step.stays_of_canFail (h step hstep)) place
    value
  rw [hr, eq_comm, Option.map_eq_some_iff] at hstays
  obtain ⟨v, -, rfl⟩ := hstays
  rw [hr]
  rfl

/-- **Steps at the end that cannot fail do not decide on the place**, wherever the steps before
    them go. -/
theorem map_place_runSteps_append (before : List Step) {after : List Step}
    (h : ∀ step ∈ after, step.canFail = false) (place : Place) (value : String) :
    (runSteps (before ++ after) place value).map Result.place =
      (runSteps before place value).map Result.place := by
  induction before generalizing place value with
  | nil => exact map_place_runSteps h place value
  | cons step before ih =>
    cases step with
    | down kind range =>
      -- The same children get through, so the first of them is the same.
      rw [List.cons_append, runSteps, runSteps, List.map_findSome?, List.map_findSome?]
      congr 1
      funext c
      simp only [Function.comp_apply]
      split
      · exact ih c c.node.value
      · rfl
    | _ =>
      rw [List.cons_append, runSteps_of_transform (by simp), runSteps_of_transform (by simp),
        Option.map_bind, Option.map_bind]
      exact congrArg _ (funext (ih place))

end Program

/-- Whether of two ways in which an expression was compiled the first has dropped nothing that
    matters: both fail alike, both give the same value, or the first program is a start of the
    second and from everywhere gets through to the same place. -/
inductive EndsAlike : Except CompileFault Compiled → Except CompileFault Compiled → Prop
  | error (fault : CompileFault) : EndsAlike (.error fault) (.error fault)
  | fixed (value : String) : EndsAlike (.ok (.fixed value)) (.ok (.fixed value))
  | program {short full : Program} (hnull : short.isNull = full.isNull)
    (hsteps : short.steps <+: full.steps)
    (hrun : ∀ place value,
      (short.run place value).map Result.place = (full.run place value).map Result.place) :
    EndsAlike (.ok (.program short)) (.ok (.program full))

theorem EndsAlike.prune (steps : List Step) (isNull : Bool) :
    EndsAlike (.ok (.program ⟨Step.prune steps, isNull⟩)) (.ok (.program ⟨steps, isNull⟩)) := by
  obtain ⟨dropped, hsteps, hdropped⟩ := Step.exists_eq_prune_append steps
  refine .program rfl ⟨dropped, hsteps.symm⟩ fun place value => ?_
  have hrun := Program.map_place_runSteps_append (Step.prune steps) hdropped place value
  rw [← hsteps] at hrun
  exact hrun.symm

theorem Term.endsAlike_compile (lookups : Lookups) (t : Term) :
    EndsAlike (t.compile lookups true) (t.compile lookups false) := by
  rw [compile, compile]
  dsimp only
  cases Wrapper.compileAll lookups t.splitIsNull.2 with
  | error fault => exact .error fault
  | ok functions =>
    cases t.path with
    | literal text =>
      dsimp only
      split
      · exact .error .isNullOverLiteral
      · cases Step.foldLiteral text text functions.reverse with
        | error fault => exact .error fault
        | ok value => exact .fixed value
    | fromRoot steps => exact .prune _ _
    | fromVariable name steps => exact .prune _ _

namespace Action

/-- An action with a candidate is successful when its program gets through, or when it does not
    and the action checks for a missing value. -/
theorem isSuccess_evaluate_program {a : Action} {p : Program} (h : a.compiled = .program p)
    (st : MatchState) :
    (a.evaluate st).isSuccess =
      match st.candidate? a.id with
      | none => !a.mustHave && p.isNull
      | some c => (p.run c.place c.value).isSome != p.isNull := by
  obtain ⟨steps, isNull⟩ := p
  rw [evaluate, h]
  cases st.candidate? a.id with
  | none => cases a.mustHave <;> cases isNull <;> rfl
  | some c =>
    dsimp only
    cases Program.run ⟨steps, isNull⟩ c.place c.value <;> cases isNull <;> rfl

end Action

/-- An action with the one program is successful in the same states as with the other. -/
theorem EndsAlike.map_success {short full : Except CompileFault Compiled}
    (h : EndsAlike short full) (a : Action) (st : MatchState) :
    short.map (fun c => ({ a with compiled := c }.evaluate st).isSuccess) =
      full.map fun c => ({ a with compiled := c }.evaluate st).isSuccess := by
  cases h with
  | error fault => rfl
  | fixed value => rfl
  | @program short full hnull hsteps hrun =>
    -- Success asks only whether a run gets through.
    have hsome : ∀ place value, (short.run place value).isSome = (full.run place value).isSome := by
      intro place value
      rw [← Option.isSome_map (f := Result.place), hrun, Option.isSome_map]
    refine congrArg Except.ok ?_
    dsimp only
    rw [Action.isSuccess_evaluate_program rfl, Action.isSuccess_evaluate_program rfl]
    simp only [hnull, hsome]
    rfl

/-- **Dropping steps does not decide on success.** Compiled with steps dropped at the end and
    without, an expression is refused for the same reason, or has the same value, or has two
    programs of which the one is a start of the other and both end on the same place from
    everywhere, or both nowhere. So an action of the expression is successful in the same states
    with the one as with the other, be it a check for a missing value or not. -/
theorem Expression.compile_pruned_agrees (lookups : Lookups) (e : Expression) :
    EndsAlike (e.root.compile lookups true) (e.root.compile lookups false) ∧
      ∀ (a : Action) (st : MatchState),
        let success := fun c => ({ a with expression := e, compiled := c }.evaluate st).isSuccess
        (e.root.compile lookups true).map success = (e.root.compile lookups false).map success := by
  have halike := e.root.endsAlike_compile lookups
  exact ⟨halike, fun a st => halike.map_success { a with expression := e } st⟩

end AgentRules
