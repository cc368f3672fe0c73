/-
  Programs as exhaustive searches.

  A program runs with backtracking: a descent tries one child after the other, and the first
  child from which the remaining steps get through decides. The same steps can be done without
  stopping early. Then each step leads from a place with a value to all its options, and
  `results` lists the ends of all ways through, in the order of the tree. A run finds the first
  of these results, and it finds nothing only where there are none (`run_eq_head?_results`).
-/
import AgentRules.Proofs.Landing

namespace AgentRules

namespace Place

/-- The children that a descent goes down to. -/
def childrenIn (p : Place) (kind : Fragment) (range : ChildRange) : List Place :=
  p.children.filter fun c => c.node.kind = kind ∧ range.contains c.node.index

end Place

/-! ### All results -/

namespace Step

/-- All that a step leads to: a descent to each child of its kind in its range, with the value of
    the child; any other step stays, with what it makes of the value, if it makes anything. -/
def options : Step → Result → List Result
  | down kind range, r => (r.place.childrenIn kind range).map fun c => ⟨c, c.node.value⟩
  | step, r => (step.transform r.value).toList.map (⟨r.place, ·⟩)

end Step

namespace Program

/-- The ends of all ways through some steps, by the options of the first step in their order. -/
def results : List Step → Result → List Result
  | [], r => [r]
  | step :: steps, r => (step.options r).flatMap (results steps)

/-! ### The first result -/

theorem runSteps_down (kind : Fragment) (range : ChildRange) (steps : List Step) (place : Place)
    (value : String) :
    runSteps (.down kind range :: steps) place value =
      (place.childrenIn kind range).findSome? fun c => runSteps steps c c.node.value := by
  rw [runSteps, Place.childrenIn, findSome?_filter]
  simp

/-- **Doing a step is trying its options in order**, until the remaining steps get through. -/
theorem runSteps_cons (step : Step) (steps : List Step) (r : Result) :
    runSteps (step :: steps) r.place r.value =
      (step.options r).findSome? fun o => runSteps steps o.place o.value := by
  by_cases hdown : ∃ kind range, step = .down kind range
  · obtain ⟨kind, range, rfl⟩ := hdown
    rw [runSteps_down, Step.options, List.findSome?_map]
    rfl
  · -- A step that stays has one option at most.
    have hstep : ∀ kind range, step ≠ .down kind range := fun kind range h =>
      hdown ⟨kind, range, h⟩
    have hoptions : step.options r = (step.transform r.value).toList.map (⟨r.place, ·⟩) := by
      unfold Step.options
      split
      · exact absurd rfl (hstep _ _)
      · rfl
    rw [runSteps_of_transform hstep, hoptions]
    cases step.transform r.value with
    | none => rfl
    | some value => simp

/-- The search that stops early finds the first result: none is passed over, and what is found
    with an earlier option comes first. -/
theorem runSteps_eq_head?_results (steps : List Step) (r : Result) :
    runSteps steps r.place r.value = (results steps r).head? := by
  induction steps generalizing r with
  | nil => rfl
  | cons step steps ih =>
    have hoptions : ∀ o : Result, runSteps steps o.place o.value = (results steps o).head? := ih
    rw [runSteps_cons, results, List.head?_flatMap]
    simp only [hoptions]

/-- The results come out the same when each step is done at once from all that is found so
    far. -/
theorem flatMap_results (steps : List Step) (found : List Result) :
    found.flatMap (results steps) =
      steps.foldl (fun found step => found.flatMap step.options) found := by
  induction steps generalizing found with
  | nil => exact List.flatMap_singleton' found
  | cons step steps ih =>
    have hstep : found.flatMap (results (step :: steps)) =
        (found.flatMap step.options).flatMap (results steps) := by
      rw [List.flatMap_assoc]
      rfl
    rw [hstep, ih, List.foldl_cons]

/-- **A run finds the first of all results**, wherever it starts and with whatever value, and it
    finds nothing exactly where there are no results. The results are those of an exhaustive
    search, which does one step after the other, each from all that the steps before have found. -/
theorem run_eq_head?_results (p : Program) (place : Place) (value : String) :
    let all := results p.steps ⟨place, value⟩
    p.run place value = all.head? ∧ (p.run place value = none ↔ all = []) ∧
      all = p.steps.foldl (fun found step => found.flatMap step.options) [⟨place, value⟩] := by
  intro all
  have hrun : p.run place value = all.head? := runSteps_eq_head?_results p.steps ⟨place, value⟩
  have hall : all = [⟨place, value⟩].flatMap (results p.steps) :=
    (List.flatMap_singleton _ _).symm
  refine ⟨hrun, ?_, ?_⟩
  · rw [hrun]
    exact List.head?_eq_none_iff
  · rw [hall]
    exact flatMap_results p.steps _

end Program

end AgentRules
