/-
  Segments: routes as lists of parts.

  A route is a row of segments, one for each child on its way, one for its words and one for
  its test. Routes that share a start of these rows share nodes of an index, and the written
  form of a route is that of its segments one after the other (`Route.render_eq`).

  A path stands for some rows of segments, its expansions. Each step that an index can answer
  leaves a choice of segments, a descent one for each index of its range and any other step a
  single one, and an expansion chooses for each step. The routes that a path is filed under
  are its expansions (`Path.mem_expansions`), and their number is the product of the lengths
  of its leading ranges (`Path.WellFormed.length_filings`).
-/
import AgentRules.Expr.WellFormed
import AgentRules.Proofs.RouteIndex
import Mathlib.Data.List.Infix
import Mathlib.Data.List.Nodup
import Mathlib.Data.List.Sections
import Mathlib.Algebra.BigOperators.Group.List.Basic

namespace AgentRules

/-! ### Segments -/

/-- A part of a route. -/
inductive Segment
  /-- The child of a kind at an index. -/
  | child (kind : Fragment) (index : Nat)
  /-- Some words of the value. -/
  | words (range : WordRange)
  /-- A test of the value or of the words. -/
  | test (test : IndexedTest)
  deriving DecidableEq, Repr

namespace Segment

/-- The written form of a segment behind others. -/
def render : Segment → String
  | child kind index => s!".({index}){kind.label}"
  | words range => s!"[{range.render}]"
  | test t => t.render

/-- The written form of segments in a row. The root of a tree, which is the first of them, is
    written by its kind alone. -/
def renderAll : List Segment → String
  | child root _ :: segments => root.label ++ String.join (segments.map render)
  | segments => String.join (segments.map render)

end Segment

namespace Route

/-- The parts of a route. -/
def segments (r : Route) : List Segment :=
  r.children.map (fun (kind, index) => .child kind index) ++
    (r.words.toList.map .words ++ r.test.toList.map .test)

theorem segments_injective : Function.Injective segments := by
  rintro ⟨way, w, t⟩ ⟨way', w', t'⟩ h
  induction way generalizing way' with
  | nil => cases way' <;> cases w <;> cases w' <;> cases t <;> cases t' <;> simp_all [segments]
  | cons c way ih =>
    cases way' with
    | nil => cases w' <;> cases t' <;> simp [segments] at h
    | cons c' way' =>
      have hsplit : c = c' ∧ segments ⟨way, w, t⟩ = segments ⟨way', w', t'⟩ := by
        simpa [segments, Prod.ext_iff] using h
      obtain ⟨rfl, hrest⟩ := hsplit
      simpa using ih way' hrest

/-- **A start of a route is a route.** -/
theorem exists_of_start {r : Route} {segs : List Segment} (h : segs <+: r.segments) :
    ∃ q : Route, q.segments = segs := by
  obtain ⟨way, w, t⟩ := r
  induction way generalizing segs with
  | nil =>
    have hcases : segs = [] ∨ segs = w.toList.map .words ∨ segs = segments ⟨[], w, t⟩ := by
      rw [← List.mem_inits] at h
      cases w <;> cases t <;> simpa [segments] using h
    rcases hcases with rfl | rfl | rfl
    · exact ⟨⟨[], none, none⟩, rfl⟩
    · exact ⟨⟨[], w, none⟩, List.append_nil _⟩
    · exact ⟨_, rfl⟩
  | cons c way ih =>
    cases segs with
    | nil => exact ⟨⟨[], none, none⟩, rfl⟩
    | cons seg segs =>
      obtain ⟨rfl, hsegs⟩ := List.cons_prefix_cons.mp h
      obtain ⟨q, rfl⟩ := ih hsegs
      exact ⟨q.under c, rfl⟩

/-- **The written form of a route is that of its segments.** -/
theorem render_eq (r : Route) : r.render = Segment.renderAll r.segments := by
  obtain ⟨way, w, t⟩ := r
  have hend : String.join ((w.toList.map Segment.words ++ t.toList.map Segment.test).map
      Segment.render) =
        (w.map fun range => s!"[{range.render}]").getD "" ++
          (t.map IndexedTest.render).getD "" := by
    cases w <;> cases t <;> simp [Segment.render]
  cases way with
  | nil =>
    have hall : Segment.renderAll (segments ⟨[], w, t⟩) = String.join
        ((w.toList.map Segment.words ++ t.toList.map Segment.test).map Segment.render) := by
      cases w <;> cases t <;> rfl
    rw [hall, hend, render, String.empty_append]
  | cons c way =>
    rw [render, segments, List.map_cons, List.cons_append, Segment.renderAll, List.map_append,
      String.join_append, hend, List.map_map, ← String.append_assoc, ← String.append_assoc]
    rfl

theorem words_mem_segments {r : Route} {range : WordRange} :
    .words range ∈ r.segments ↔ r.words = some range := by
  simp [segments]

end Route

namespace Segment

/-- Whether segments start with the root of a tree, and all word ranges in them have a written
    form. -/
def Rooted (segs : List Segment) : Prop :=
  ∃ rest, segs = .child .agent 0 :: rest ∧ ∀ range, .words range ∈ rest → range.Parseable

theorem Rooted.of_start {segs start : List Segment} (h : Rooted segs) (hstart : start <+: segs)
    (hne : start ≠ []) : Rooted start := by
  obtain ⟨rest, rfl, hrest⟩ := h
  obtain ⟨seg, start, rfl⟩ := List.exists_cons_of_ne_nil hne
  obtain ⟨rfl, hbelow⟩ := List.cons_prefix_cons.mp hstart
  exact ⟨start, rfl, fun range hrange => hrest range (hbelow.subset hrange)⟩

end Segment

/-! ### Expansions -/

/-- Choices between different elements are different. -/
theorem nodup_sections {α : Type} {choices : List (List α)} (h : ∀ as ∈ choices, as.Nodup) :
    choices.sections.Nodup := by
  induction choices with
  | nil => exact List.nodup_singleton []
  | cons as choices ih =>
    obtain ⟨has, hchoices⟩ := List.forall_mem_cons.mp h
    rw [List.sections, List.nodup_flatMap]
    refine ⟨fun bs _ => has.map fun _ _ heq => (List.cons.inj heq).1, ?_⟩
    refine (ih hchoices).imp fun {bs cs} hne => ?_
    intro segs hbs hcs
    obtain ⟨b, -, rfl⟩ := List.mem_map.mp hbs
    obtain ⟨c, -, heq⟩ := List.mem_map.mp hcs
    exact hne (List.cons.inj heq).2.symm

namespace PathStep

/-- The segments that each step that an index can answer leaves to choose from. -/
def choices : List PathStep → List (List Segment)
  | down kind range :: steps => range.indices.map (.child kind) :: choices steps
  | words range :: steps => [.words range] :: (leadingTest? steps).toList.map fun t => [.test t]
  | steps => (leadingTest? steps).toList.map fun t => [.test t]

/-- The ranges of the descents that steps start with. -/
def leadingRanges : List PathStep → List ChildRange
  | down _ range :: steps => range :: leadingRanges steps
  | _ => []

theorem mem_sections_test {segs : List Segment} (test : Option IndexedTest) :
    segs ∈ (test.toList.map fun t => [Segment.test t]).sections ↔
      segs = test.toList.map .test := by
  cases test <;> simp [List.sections]

theorem mem_expansions {steps : List PathStep} {segs : List Segment} :
    segs ∈ (choices steps).sections ↔ ∃ r ∈ filings steps, r.segments = segs := by
  induction steps generalizing segs with
  | nil => simp [choices, filings, mem_sections_test, Route.segments, eq_comm]
  | cons step steps ih =>
    cases step with
    | test u text => simp [choices, filings, mem_sections_test, Route.segments, eq_comm]
    | words range =>
      simp [choices, filings, List.sections, mem_sections_test, Route.segments, eq_comm]
    | down kind range =>
      simp only [choices, filings, List.sections, List.mem_flatMap, List.mem_map, ih]
      constructor
      · rintro ⟨_, ⟨r, hr, rfl⟩, _, ⟨i, hi, rfl⟩, rfl⟩
        exact ⟨r.under (kind, i), ⟨i, hi, r, hr, rfl⟩, rfl⟩
      · rintro ⟨_, ⟨i, hi, r, hr, rfl⟩, rfl⟩
        exact ⟨r.segments, ⟨r, hr, rfl⟩, .child kind i, ⟨i, hi, rfl⟩, rfl⟩

theorem nodup_choices (steps : List PathStep) : ∀ segs ∈ choices steps, segs.Nodup := by
  have htest : ∀ test : Option IndexedTest,
      ∀ segs ∈ test.toList.map fun t => [Segment.test t], segs.Nodup := by
    intro test segs hsegs
    obtain ⟨t, -, rfl⟩ := List.mem_map.mp hsegs
    exact List.nodup_singleton _
  induction steps with
  | nil => exact htest _
  | cons step steps ih =>
    cases step with
    | test u text => exact htest _
    | words range => exact List.forall_mem_cons.mpr ⟨List.nodup_singleton _, htest _⟩
    | down kind range =>
      have hindices : range.indices.Nodup := List.nodup_range'
      have hchildren := hindices.map (f := Segment.child kind) fun _ _ heq =>
        (Segment.child.inj heq).2
      exact List.forall_mem_cons.mpr ⟨hchildren, ih⟩

theorem length_filings {steps : List PathStep} (h : ∀ range ∈ leadingRanges steps, range.Bounded) :
    (filings steps).length = ((leadingRanges steps).map ChildRange.length).prod := by
  induction steps with
  | nil => rfl
  | cons step steps ih =>
    cases step with
    | test u text => rfl
    | words range => rfl
    | down kind range =>
      obtain ⟨hrange, hranges⟩ := List.forall_mem_cons.mp h
      have hindices : range.indices.length = range.length := by
        rw [ChildRange.indices, List.length_range', ChildRange.length]
        have hle : range.first ≤ range.last := hrange.1
        omega
      simp only [filings, leadingRanges, List.map_cons, List.prod_cons, List.length_flatMap,
        List.length_map, ih hranges, List.map_const', List.sum_replicate_nat, hindices]

/-- Where no range is empty there is a route. -/
theorem filings_ne_nil {steps : List PathStep} (h : ∀ range ∈ leadingRanges steps, range.Bounded) :
    filings steps ≠ [] := by
  induction steps with
  | nil => exact List.cons_ne_nil _ _
  | cons step steps ih =>
    cases step with
    | test u text => exact List.cons_ne_nil _ _
    | words range => exact List.cons_ne_nil _ _
    | down kind range =>
      obtain ⟨hrange, hranges⟩ := List.forall_mem_cons.mp h
      have hfirst : range.first ∈ range.indices := by
        rw [ChildRange.mem_indices, ChildRange.contains]
        simp [hrange.1]
      rw [filings, Ne, List.flatMap_eq_nil_iff]
      exact fun hnil => ih hranges (List.map_eq_nil_iff.mp (hnil _ hfirst))

theorem bounded_leadingRanges {steps : List PathStep} (h : ∀ step ∈ steps, step.WellFormed) :
    ∀ range ∈ leadingRanges steps, range.Bounded := by
  induction steps with
  | nil => simp [leadingRanges]
  | cons step steps ih =>
    obtain ⟨hstep, hsteps⟩ := List.forall_mem_cons.mp h
    cases step with
    | test u text => simp [leadingRanges]
    | words range => simp [leadingRanges]
    | down kind range => exact List.forall_mem_cons.mpr ⟨hstep.2, ih hsteps⟩

theorem parseable_of_mem_filings {steps : List PathStep} (h : ∀ step ∈ steps, step.WellFormed)
    {r : Route} (hr : r ∈ filings steps) {range : WordRange} (hwords : r.words = some range) :
    range.Parseable := by
  induction steps generalizing r with
  | nil =>
    obtain rfl := List.mem_singleton.mp hr
    cases hwords
  | cons step steps ih =>
    obtain ⟨hstep, hsteps⟩ := List.forall_mem_cons.mp h
    cases step with
    | test u text =>
      obtain rfl := List.mem_singleton.mp hr
      cases hwords
    | words range' =>
      obtain rfl := List.mem_singleton.mp hr
      obtain rfl := Option.some.inj hwords
      exact hstep
    | down kind range' =>
      obtain ⟨i, -, hr⟩ := List.mem_flatMap.mp hr
      obtain ⟨q, hq, rfl⟩ := List.mem_map.mp hr
      exact ih hsteps hq hwords

end PathStep

namespace Path

/-- The rows of segments that a path stands for. Only paths from the root stand for any. -/
def expansions : Path → List (List Segment)
  | fromRoot steps => (PathStep.choices steps).sections
  | literal _ | fromVariable .. => []

/-- The product of the lengths of the ranges that a path from the root starts with. -/
def fanOut : Path → Nat
  | fromRoot steps => ((PathStep.leadingRanges steps).map ChildRange.length).prod
  | literal _ | fromVariable .. => 0

/-- **The routes of a path are its expansions.** -/
theorem mem_expansions {path : Path} {segs : List Segment} :
    segs ∈ path.expansions ↔ ∃ r ∈ path.filings, r.segments = segs := by
  cases path with
  | fromRoot steps => exact PathStep.mem_expansions
  | literal text => simp [expansions, filings]
  | fromVariable name steps => simp [expansions, filings]

theorem segments_mem_expansions {path : Path} {r : Route} :
    r.segments ∈ path.expansions ↔ r ∈ path.filings := by
  rw [mem_expansions]
  constructor
  · rintro ⟨q, hq, heq⟩
    exact Route.segments_injective heq ▸ hq
  · exact fun h => ⟨r, h, rfl⟩

theorem nodup_expansions (path : Path) : path.expansions.Nodup := by
  cases path with
  | fromRoot steps => exact nodup_sections (PathStep.nodup_choices steps)
  | literal text => exact List.nodup_nil
  | fromVariable name steps => exact List.nodup_nil

/-- **The expansions of a path are its routes**, each once. -/
theorem perm_expansions (path : Path) : path.expansions.Perm (path.filings.map Route.segments) := by
  have hfilings := path.nodup_filings.map Route.segments_injective
  rw [List.perm_ext_iff_of_nodup path.nodup_expansions hfilings]
  intro segs
  rw [mem_expansions, List.mem_map]

namespace WellFormed

variable {path : Path}

theorem bounded_leadingRanges {steps : List PathStep} (h : (fromRoot steps).WellFormed) :
    ∀ range ∈ PathStep.leadingRanges steps, range.Bounded := by
  obtain ⟨rest, rfl, hrest⟩ := h
  exact List.forall_mem_cons.mpr ⟨by decide, PathStep.bounded_leadingRanges hrest⟩

theorem length_filings (h : path.WellFormed) : path.filings.length = path.fanOut := by
  cases path with
  | literal text => rfl
  | fromVariable name steps => rfl
  | fromRoot steps => exact PathStep.length_filings h.bounded_leadingRanges

theorem rooted (h : path.WellFormed) {r : Route} (hr : r ∈ path.filings) :
    Segment.Rooted r.segments := by
  cases path with
  | literal text => exact absurd hr List.not_mem_nil
  | fromVariable name steps => exact absurd hr List.not_mem_nil
  | fromRoot steps =>
    obtain ⟨rest, rfl, hrest⟩ := h
    obtain ⟨i, hi, hr⟩ := List.mem_flatMap.mp hr
    obtain ⟨q, hq, rfl⟩ := List.mem_map.mp hr
    obtain rfl : i = 0 := List.mem_singleton.mp hi
    refine ⟨q.segments, rfl, fun range hrange => ?_⟩
    exact PathStep.parseable_of_mem_filings hrest hq (Route.words_mem_segments.mp hrange)

end WellFormed

end Path

end AgentRules
