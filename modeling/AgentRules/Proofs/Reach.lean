/-
  Nodes out of reach.

  A node that is out of reach, with all that is below it, is never looked at: a tree is
  classified like the trimmed tree (`classify_trim`).

  That is a statement about two trees, so the proof goes along both at once. What is found in
  the one tree, a place with a value, is also found in the trimmed one, where the place is the
  same place trimmed (`TrimsTo`). This is kept by descents, and therefore by the index, whose
  candidates are the first landings of paths, and by programs, which try one child after the
  other. It is kept by variables, which hand on where their programs end. And where the
  candidates of a rule are related by it, the rule finds the same.

  Only the reader of expressions sees to it that descents stay in reach, so the theorem is one
  about rules that were read.
-/
import AgentRules.Proofs.Compile
import AgentRules.Proofs.Search
import AgentRules.Proofs.Trimming
import AgentRules.Proofs.Variables
import AgentRules.Proofs.WellFormed

namespace AgentRules

/-! ### The same places -/

/-- Whether a place is another one in the trimmed tree. Where it stands does not matter, since
    nothing is done by its address. -/
def Place.TrimsTo (p q : Place) : Prop := q.node = p.node.trim

/-- Two places with a value each: the second place is the first one in the trimmed tree, and the
    values are the same. -/
def TrimsTo (found found' : Place × String) : Prop :=
  found.1.TrimsTo found'.1 ∧ found'.2 = found.2

/-- The same of where two programs ended. -/
def Result.TrimsTo (r r' : Result) : Prop :=
  AgentRules.TrimsTo (r.place, r.value) (r'.place, r'.value)

/-- The same of two candidates. What led to them does not matter. -/
def Candidate.TrimsTo (c c' : Candidate) : Prop :=
  AgentRules.TrimsTo (c.place, c.value) (c'.place, c'.value)

/-- A descent that stays in reach. -/
def ChildRange.WithinReach (kind : Fragment) (range : ChildRange) : Prop :=
  kind ≠ .agent ∧ range.last < maxChildIndex

namespace Place

theorem map_node_childrenIn (p : Place) (kind : Fragment) (range : ChildRange) :
    (p.childrenIn kind range).map node =
      p.node.children.filter fun n => n.kind = kind ∧ range.contains n.index := by
  have hchildren : p.children.map node = p.node.children := by
    refine List.ext_getElem? fun i => ?_
    rw [List.getElem?_map, children_getElem?, Option.map_map]
    exact Option.map_id'
  rw [← hchildren, List.filter_map]
  rfl

variable {p q : Place}

theorem TrimsTo.value_eq (h : p.TrimsTo q) : q.node.value = p.node.value := by
  rw [h, Node.value_trim]

/-- **A descent in reach goes down to the same children** in the trimmed tree. -/
theorem TrimsTo.childrenIn (h : p.TrimsTo q) {kind : Fragment} {range : ChildRange}
    (hreach : range.WithinReach kind) :
    List.Forall₂ TrimsTo (p.childrenIn kind range) (q.childrenIn kind range) := by
  have hnodes : (q.childrenIn kind range).map node =
      (p.childrenIn kind range).map fun c => c.node.trim := by
    have hnode : q.node = p.node.trim := h
    have hmatch : ∀ n : Node, (n.kind = kind ∧ range.contains n.index) → n.reachable := by
      rintro n ⟨rfl, hindex⟩
      simp only [ChildRange.contains, Bool.and_eq_true, decide_eq_true_eq] at hindex
      have hlt : n.index < maxChildIndex := hindex.2.trans_lt hreach.2
      simp [Node.reachable, hreach.1, hlt]
    rw [← Function.comp_def, ← List.map_map, map_node_childrenIn, map_node_childrenIn, hnode,
      Node.children_trim, List.filter_map, List.filter_filter]
    refine congrArg _ (List.filter_congr fun n _ => ?_)
    simpa using hmatch n
  rw [← List.forall₂_eq_eq_eq, List.forall₂_map_left_iff, List.forall₂_map_right_iff] at hnodes
  exact hnodes.flip

end Place

/-! ### Descents -/

/-- A step of a program that stays in reach. -/
def Step.WithinReach : Step → Prop
  | down kind range => range.WithinReach kind
  | _ => True

theorem PathStep.WellFormed.withinReach {step : PathStep} (h : step.WellFormed) :
    (Step.ofPathStep step).WithinReach := by
  cases step with
  | down kind range => exact ⟨h.1, h.2.2⟩
  | test t text => trivial
  | words range => trivial

theorem Step.withinReach_of_stays {step : Step} (h : step.stays) : step.WithinReach := by
  cases step with
  | down kind range => exact absurd h (by simp [stays])
  | _ => trivial

namespace PathStep

theorem landings_down (kind : Fragment) (range : ChildRange) (steps : List PathStep) (p : Place) :
    landings (down kind range :: steps) p =
      (p.childrenIn kind range).flatMap (landings steps) := by
  rw [landings, Place.childrenIn, flatMap_filter]
  simp

/-- **Steps land in the same places** in the trimmed tree. -/
theorem trimsTo_landings {steps : List PathStep} (h : ∀ step ∈ steps, step.WellFormed)
    {p q : Place} (hpq : p.TrimsTo q) :
    List.Forall₂ TrimsTo (landings steps p) (landings steps q) := by
  have hhere : ∀ {p q : Place}, p.TrimsTo q → ∀ o : String → Option String,
      List.Forall₂ TrimsTo ((o p.node.value).toList.map (p, ·))
        ((o q.node.value).toList.map (q, ·)) := by
    intro p q hpq o
    rw [hpq.value_eq]
    cases o p.node.value with
    | none => exact .nil
    | some v => exact .cons ⟨hpq, rfl⟩ .nil
  induction steps generalizing p q with
  | nil => exact hhere hpq (answerHere [])
  | cons step steps ih =>
    obtain ⟨hstep, hrest⟩ := List.forall_mem_cons.mp h
    cases step with
    | test t text => exact hhere hpq (answerHere (test t text :: steps))
    | words range => exact hhere hpq (answerHere (words range :: steps))
    | down kind range =>
      rw [landings_down, landings_down]
      exact List.rel_flatMap (hpq.childrenIn hstep.withinReach) fun _ _ hcd => ih hrest hcd

end PathStep

namespace Program

/-- **A program ends in the same place** in the trimmed tree, with the same value. -/
theorem trimsTo_runSteps {steps : List Step} (h : ∀ step ∈ steps, step.WithinReach) {p q : Place}
    (hpq : p.TrimsTo q) (value : String) :
    Option.Rel Result.TrimsTo (runSteps steps p value) (runSteps steps q value) := by
  induction steps generalizing p q value with
  | nil => exact .some ⟨hpq, rfl⟩
  | cons step steps ih =>
    obtain ⟨hstep, hrest⟩ := List.forall_mem_cons.mp h
    by_cases hstays : step.stays
    · rw [runSteps_of_transform (step.ne_down_of_stays hstays),
        runSteps_of_transform (step.ne_down_of_stays hstays)]
      cases step.transform value with
      | none => exact .none
      | some v => exact ih hrest hpq v
    · cases step with
      | down kind range =>
        rw [runSteps_down, runSteps_down]
        refine rel_findSome? (hpq.childrenIn hstep) fun c d hcd => ?_
        rw [hcd.value_eq]
        exact ih hrest hcd _
      | _ => exact absurd rfl hstays

theorem trimsTo_run {program : Program} (h : ∀ step ∈ program.steps, step.WithinReach)
    {c c' : Candidate} (hc : c.TrimsTo c') :
    Option.Rel Result.TrimsTo (program.run c.place c.value) (program.run c'.place c'.value) := by
  obtain ⟨hplace, hvalue⟩ := hc
  have hsame : c'.value = c.value := hvalue
  rw [hsame]
  exact trimsTo_runSteps h hplace c.value

end Program

/-! ### Actions -/

namespace PathStep

theorem afterTest_subset (steps : List PathStep) : afterTest steps ⊆ steps := by
  rw [afterTest.eq_def]
  split
  · exact List.subset_cons_self _ _
  · exact List.subset_cons_self _ _
  · exact List.Subset.refl _

theorem unindexed_subset (steps : List PathStep) : unindexed steps ⊆ steps := by
  induction steps with
  | nil => exact afterTest_subset []
  | cons step steps ih =>
    cases step with
    | down kind range => exact List.subset_cons_of_subset _ ih
    | test t text => exact afterTest_subset _
    | words range => exact List.subset_cons_of_subset _ (afterTest_subset steps)

end PathStep

/-- The steps that remain of a path do not go down to a root. -/
theorem Path.WellFormed.remaining {path : Path} (h : path.WellFormed) :
    ∀ step ∈ path.remaining, step.WellFormed := by
  cases path with
  | literal text => exact fun _ hstep => absurd hstep List.not_mem_nil
  | fromRoot steps =>
    obtain ⟨rest, rfl, hrest⟩ := h
    exact fun step hstep => hrest step (PathStep.unindexed_subset rest hstep)
  | fromVariable name steps => exact h.2

/-- **A program stays in reach** when the path of its expression does. -/
theorem Term.withinReach_of_compile {lookups : Lookups} {pruned : Bool} {t : Term} {p : Program}
    (h : t.path.WellFormed) (hcompile : t.compile lookups pruned = .ok (.program p)) :
    ∀ step ∈ p.steps, step.WithinReach := by
  obtain ⟨-, functions, hfunctions, rfl⟩ := program_of_compile hcompile
  have hpath : ∀ step ∈ t.path.remaining.map Step.ofPathStep, step.WithinReach := by
    refine List.forall_mem_map.mpr fun step hstep => ?_
    exact (h.remaining step hstep).withinReach
  have hfunction : ∀ step ∈ functions.reverse, step.WithinReach := by
    intro step hstep
    exact Step.withinReach_of_stays
      (Wrapper.stays_of_compileAll hfunctions step (List.mem_reverse.mp hstep))
  have hall := List.forall_mem_append.mpr ⟨hpath, hfunction⟩
  dsimp only
  split
  · exact fun step hstep => hall step (Step.prune_subset _ hstep)
  · exact hall

/-- Only paths from the root have candidates. -/
theorem Path.findSome?_candidateAt_of_not_fromRoot {path : Path}
    (h : ∀ steps, path ≠ .fromRoot steps) (root : Place) :
    root.preorder.findSome? (path.candidateAt root) = none := by
  refine List.findSome?_eq_none_iff.mpr fun q _ => ?_
  cases path with
  | literal text => rfl
  | fromVariable name steps => rfl
  | fromRoot steps => exact absurd rfl (h steps)

namespace Action

/-- An action whose path and whose program stay in reach. -/
structure WithinReach (a : Action) : Prop where
  path : a.path.WellFormed
  program : ∀ p, a.compiled = .program p → ∀ step ∈ p.steps, step.WithinReach

variable {a : Action}

/-- **A walk has the same candidate for an action** in the trimmed tree. -/
theorem WithinReach.trimsTo_first (h : a.WithinReach) {p q : Place} (hpq : p.TrimsTo q) :
    Option.Rel Candidate.TrimsTo (a.first p) (a.first q) := by
  have hpath := h.path
  rw [first, first]
  split
  · -- Only a path from the root has candidates, and the first one is its first landing.
    cases hp : a.path with
    | literal text | fromVariable name steps =>
      rw [Path.findSome?_candidateAt_of_not_fromRoot (by simp),
        Path.findSome?_candidateAt_of_not_fromRoot (by simp)]
      exact .none
    | fromRoot steps =>
      rw [hp] at hpath
      obtain ⟨rest, rfl, hrest⟩ := hpath
      refine rel_of_rel_map (R := TrimsTo) ?_
      rw [Path.map_findSome?_candidateAt, Path.map_findSome?_candidateAt, hpq, Node.kind_trim,
        Node.index_trim]
      split
      · exact rel_head? (PathStep.trimsTo_landings hrest hpq)
      · exact .none
  · exact .none

variable {st st' : MatchState}

/-- **An action ends in the same place** from related candidates. -/
theorem WithinReach.trimsTo_resolve? (h : a.WithinReach)
    (hst : Option.Rel Candidate.TrimsTo (st.candidate? a.id) (st'.candidate? a.id)) :
    Option.Rel Result.TrimsTo (a.resolve? st) (a.resolve? st') := by
  rw [resolve?, resolve?]
  cases hp : a.compiled with
  | fixed value => exact .none
  | program p =>
    dsimp only
    split
    · exact .none
    · exact rel_bind hst fun _ _ hc => Program.trimsTo_run (h.program p hp) hc

/-- **An action has the same outcome** with related candidates. -/
theorem WithinReach.evaluate_eq (h : a.WithinReach)
    (hst : Option.Rel Candidate.TrimsTo (st.candidate? a.id) (st'.candidate? a.id)) :
    a.evaluate st' = a.evaluate st := by
  rw [evaluate, evaluate]
  cases hp : a.compiled with
  | fixed value => rfl
  | program p =>
    dsimp only
    generalize st.candidate? a.id = o at hst ⊢
    generalize st'.candidate? a.id = o' at hst ⊢
    cases hst with
    | none => rfl
    | @some c c' hc =>
      have hrun := Program.trimsTo_run (h.program p hp) hc
      dsimp only
      generalize p.run c.place c.value = o at hrun ⊢
      generalize p.run c'.place c'.value = o' at hrun ⊢
      cases hrun with
      | none => rfl
      | some hr =>
        cases p.isNull with
        | true => rfl
        | false => exact congrArg Outcome.matched hr.2

end Action

/-! ### Rules -/

namespace MatchState

/-- Whether the candidates of some actions are the same in two states, but for the trees. -/
structure TrimsTo (as : List Action) (st st' : MatchState) : Prop where
  size_slots : st'.slots.size = st.slots.size
  candidate : ∀ a ∈ as,
    Option.Rel Candidate.TrimsTo (st.candidate? a.id) (st'.candidate? a.id)

theorem TrimsTo.inform {as : List Action} {st st' : MatchState} (h : TrimsTo as st st')
    {a : Action} (ha : a ∈ as) {c c' : Candidate} (hc : c.TrimsTo c') :
    TrimsTo as (st.inform a c) (st'.inform a c') := by
  have haccepts : st'.accepts a = st.accepts a := by
    rw [accepts, accepts, h.size_slots, ← Option.not_isSome, ← Option.not_isSome,
      rel_isSome (h.candidate a ha)]
  refine ⟨?_, fun b hb => ?_⟩
  · rw [size_slots_inform, size_slots_inform, h.size_slots]
  · rw [candidate?_inform, candidate?_inform, haccepts]
    split
    · exact .some hc
    · exact h.candidate b hb

end MatchState

namespace Rule

variable {r : Rule} (hr : ∀ a ∈ r.actions, a.WithinReach) {st st' : MatchState}

include hr

theorem trimsTo_deliverVariable (h : MatchState.TrimsTo r.actions st st') {v : String × Action}
    (hv : v ∈ r.bindings) :
    MatchState.TrimsTo r.actions (r.deliverVariable st v) (r.deliverVariable st' v) := by
  have hmem : v.2 ∈ r.actions := snd_mem_actions hv
  have hresolve : Option.Rel Result.TrimsTo (v.2.resolve? st) (v.2.resolve? st') :=
    (hr v.2 hmem).trimsTo_resolve? (h.candidate v.2 hmem)
  rw [deliverVariable, deliverVariable, deliverTo, deliverTo]
  generalize v.2.resolve? st = ended at hresolve ⊢
  generalize v.2.resolve? st' = ended' at hresolve ⊢
  cases hresolve with
  | none => exact h
  | some hended =>
    exact List.foldl_rel h fun a ha _ _ h => h.inform (List.mem_of_mem_filter ha) hended

theorem trimsTo_deliverVariables (h : MatchState.TrimsTo r.actions st st') :
    MatchState.TrimsTo r.actions (r.deliverVariables st) (r.deliverVariables st') :=
  List.foldl_rel h fun _ hv _ _ h => trimsTo_deliverVariable hr h hv

/-- **A rule finds the same** from related candidates. -/
theorem evaluate_eq_of_trimsTo (h : MatchState.TrimsTo r.actions st st') :
    (r.evaluate st').1 = (r.evaluate st).1 := by
  have hdelivered := trimsTo_deliverVariables hr h
  have haction : ∀ a ∈ r.actions,
      a.evaluate (r.deliverVariables st') = a.evaluate (r.deliverVariables st) :=
    fun a ha => (hr a ha).evaluate_eq (hdelivered.candidate a ha)
  exact emission?_congr haction

end Rule

namespace RuleSet

variable {lookups : Lookups} {verbose : Bool} {ds : List RuleDefinition} {rs : RuleSet}

/-- **The actions of a set stay in reach**, since they were read. -/
theorem withinReach_of_build (h : build lookups verbose ds = .ok rs) {r : Rule}
    (hr : r ∈ rs.rules) : ∀ a ∈ r.actions, a.WithinReach := by
  obtain ⟨d, alone, position, offset, hcompile, rfl⟩ := stands_of_mem_rules h hr
  intro a ha
  rw [Rule.actions_moved, Rule.actions_registered, List.map_map] at ha
  obtain ⟨b, hb, rfl⟩ := List.mem_map.mp ha
  obtain ⟨text, hread⟩ := Rule.read_of_compile hcompile b hb
  obtain ⟨pruned, hcompiled⟩ := ((Rule.built_of_compile hcompile).actions b hb).compiled
  have hpath : b.path.WellFormed := (Expression.root_wellFormed hread).path
  exact ⟨hpath, fun p hp => Term.withinReach_of_compile hpath (hcompiled.trans (congrArg _ hp))⟩

/-- **A walk over a trimmed tree** gives the actions of a set the same candidates. -/
theorem trimsTo_collect (h : build lookups verbose ds = .ok rs) {root root' : Place}
    (hroot : root.TrimsTo root') {r : Rule} (hr : r ∈ rs.rules) :
    MatchState.TrimsTo r.actions (rs.collect root rs.newState) (rs.collect root' rs.newState) := by
  obtain ⟨hwf, -⟩ := rules_of_build h
  refine ⟨?_, fun a ha => ?_⟩
  · rw [(informed_collect hwf root' _).size_slots, (informed_collect hwf root _).size_slots]
  · rw [candidate?_collect hwf root (slots_newState rs) (WellFormed.mem_actions hr ha),
      candidate?_collect hwf root' (slots_newState rs) (WellFormed.mem_actions hr ha)]
    exact (withinReach_of_build h hr a ha).trimsTo_first hroot

theorem finding_eq_of_trimsTo (h : build lookups verbose ds = .ok rs) {root root' : Place}
    (hroot : root.TrimsTo root') {r : Rule} (hr : r ∈ rs.rules) :
    finding passesGate (rs.collect root' rs.newState) r =
      finding passesGate (rs.collect root rs.newState) r := by
  obtain ⟨hwf, -⟩ := rules_of_build h
  have hst := trimsTo_collect h hroot hr
  have hgate : passesGate (rs.collect root' rs.newState) r =
      passesGate (rs.collect root rs.newState) r := by
    rw [Bool.eq_iff_iff, passesGate_iff hwf (fits_newState hwf root') hr,
      passesGate_iff hwf (fits_newState hwf root) hr]
    exact forall₂_congr fun a ha => by rw [rel_isSome (hst.candidate a ha)]
  rw [finding, finding, hgate, Rule.evaluate_eq_of_trimsTo (withinReach_of_build h hr) hst]

/-- **Nodes out of reach are never looked at.** A set that builds classifies a tree like the tree
    without its inner roots and without the children whose index among their kind is not below
    the bound, at every level and with all that is below them. The same holds of a tree that is
    built from an outline without these nodes. -/
theorem classify_trim (h : build lookups verbose ds = .ok rs) :
    (∀ address (n : Node), rs.classify ⟨address, n.trim⟩ = rs.classify ⟨address, n⟩) ∧
      ∀ address (o : Outline),
        rs.classify ⟨address, o.trim.build⟩ = rs.classify ⟨address, o.build⟩ := by
  have htrim : ∀ address (n : Node),
      rs.classify ⟨address, n.trim⟩ = rs.classify ⟨address, n⟩ := by
    intro address n
    obtain ⟨hwf, -⟩ := rules_of_build h
    have hroot : Place.TrimsTo ⟨address, n⟩ ⟨address, n.trim⟩ := rfl
    have hfindings : rs.rules.filterMap
          (finding passesGate (rs.collect ⟨address, n.trim⟩ rs.newState)) =
        rs.rules.filterMap (finding passesGate (rs.collect ⟨address, n⟩ rs.newState)) :=
      List.filterMap_congr fun r hr => finding_eq_of_trimsTo h hroot hr
    rw [classify_eq hwf, classify_eq hwf, hfindings]
  exact ⟨htrim, fun address o => o.build_trim ▸ htrim address o.build⟩

/-- A tree with a root inside it and with 65 products: the first rule asks the index for the last
    product in reach, the second one goes down to it from a variable. -/
theorem classify_trim_on_products :
    let product (name : String) : Outline := ⟨.product, name, [⟨.name, name, []⟩]⟩
    let o : Outline := ⟨.agent, "Moz", ⟨.agent, "Edge", [product "Edge"]⟩ ::
      List.replicate 63 (product "Moz") ++ [product "Chrome", product "Edge"]⟩
    let ds : List RuleDefinition := [⟨"last", [], [], ⟨"Name", 10, "agent.(63)product.name"⟩⟩,
      ⟨"other", [⟨"A", "agent"⟩], [], ⟨"Other", 10, "@A.(0-63)product!=\"Moz\""⟩⟩]
    ∃ rs, build .empty false ds = .ok rs ∧ o.trim.children.length = 64 ∧
      rs.classify ⟨[], o.build.trim⟩ = rs.classify ⟨[], o.build⟩ ∧
      (rs.classify ⟨[], o.trim.build⟩).get? "Name" = some ⟨"Name", "Chrome", 10, "last"⟩ ∧
      (rs.classify ⟨[], o.trim.build⟩).get? "Other" = some ⟨"Other", "Chrome", 10, "other"⟩ := by
  intro product o ds
  have hget : ((build .empty false ds).toOption.map fun rs =>
      ((rs.classify ⟨[], o.build⟩).get? "Name", (rs.classify ⟨[], o.build⟩).get? "Other")) =
        some (some ⟨"Name", "Chrome", 10, "last"⟩, some ⟨"Other", "Chrome", 10, "other"⟩) := by
    decide +kernel
  cases hrs : build .empty false ds with
  | error e => simp [hrs, Except.toOption] at hget
  | ok rs =>
    rw [hrs] at hget
    obtain ⟨hname, hother⟩ := Prod.mk.inj (Option.some.inj hget)
    have htrimmed : o.trim.children.length = 64 := by decide +kernel
    obtain ⟨htrees, houtlines⟩ := classify_trim hrs
    refine ⟨rs, rfl, htrimmed, htrees [] o.build, ?_⟩
    rw [houtlines [] o]
    exact ⟨hname, hother⟩

end RuleSet

end AgentRules
