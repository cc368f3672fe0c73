/-
  Rules of one set do not disturb each other.

  The rules of a set share an index, a numbering and a match state. Nevertheless each finds
  what it would find in a set of its own, so a classification keeps for each field the best
  of what the definitions find alone (`classify_isolated`).
-/
import AgentRules.Proofs.RuleSet

namespace AgentRules.RuleSet

/-- What a definition finds for a field in a set of its own. -/
def foundAlone (lookups : Lookups) (verbose : Bool) (root : Place) (field : String)
    (d : RuleDefinition) : Option Emission :=
  match build lookups verbose [d] with
  | .ok rs => (rs.classify root).get? field
  | .error _ => none

/-! ### A rule by itself -/

variable {lookups : Lookups} {verbose : Bool}

theorem build_singleton {d : RuleDefinition} {r : Rule}
    (h : Rule.compile ⟨lookups, 0, verbose⟩ 0 d = .ok r) :
    build lookups verbose [d] = .ok (empty.append r) := by
  rw [build, addAll, add_eq, h]
  rfl

/-- The one rule of a set stands at its own position. -/
theorem rules_append_empty {d : RuleDefinition} {r : Rule}
    (h : Rule.compile ⟨lookups, 0, verbose⟩ 0 d = .ok r) :
    (empty.append r).rules = [r.registered] := by
  have hbuilt := Rule.built_of_compile h
  have hself : r.registered.moved r.registered.index 0 = r.registered := by
    refine Rule.moved_self fun a ha => ?_
    rw [Rule.actions_registered] at ha
    obtain ⟨b, hb, rfl⟩ := List.mem_map.mp ha
    exact (hbuilt.actions b hb).rule.trans hbuilt.index.symm
  rw [show r.registered.index = 0 from hbuilt.index] at hself
  exact congrArg (fun q => [q]) hself

theorem get?_offer_empty (found : Option Emission) (field : String) :
    (((found.toList).foldl Classification.offer .empty).get? field) =
      found.filter (·.field == field) := by
  cases found with
  | none => rfl
  | some e =>
    rw [Option.toList_some, List.foldl_cons, List.foldl_nil, Classification.get?_offer_eq_better,
      Classification.get?_empty]
    cases (some e).filter (·.field == field) <;> rfl

/-- **A rule that stands in a set finds there what its definition finds alone.** -/
theorem foundAlone_eq {rs : RuleSet} (h : rs.WellFormed) (root : Place) (field : String)
    {d : RuleDefinition} {r : Rule} (hr : r ∈ rs.rules) (hstands : Stands lookups verbose d r) :
    foundAlone lookups verbose root field d =
      (finding passesGate (rs.collect root rs.newState) r).filter (·.field == field) := by
  obtain ⟨alone, position, offset, hcompile, rfl⟩ := hstands
  have hwf : (empty.append alone).WellFormed :=
    wellFormed_empty.append (Rule.built_of_compile hcompile)
  have hrules := rules_append_empty hcompile
  have hmem : alone.registered ∈ (empty.append alone).rules := by simp [hrules]
  -- After the walk an action has the first candidate of its path, here and in its own set.
  have hfinding : finding passesGate (rs.collect root rs.newState)
      (alone.registered.moved position offset) =
        finding passesGate ((empty.append alone).collect root (empty.append alone).newState)
          alone.registered := by
    refine finding_moved hwf h (fits_newState hwf root) (fits_newState h root) hmem hr ?_
    intro a ha
    have hmoved : a.moved position offset ∈ rs.actions := by
      refine WellFormed.mem_actions hr ?_
      rw [Rule.actions_moved]
      exact List.mem_map_of_mem ha
    have hshared := candidate?_collect h root (slots_newState rs) hmoved
    have hown := candidate?_collect hwf root (slots_newState (empty.append alone))
      (WellFormed.mem_actions hmem ha)
    exact hshared.trans hown.symm
  rw [foundAlone, build_singleton hcompile]
  dsimp only
  rw [classify_eq hwf, hrules, hfinding, ← get?_offer_empty, List.filterMap_cons,
    List.filterMap_nil]
  cases finding passesGate ((empty.append alone).collect root (empty.append alone).newState)
    alone.registered <;> rfl

/-! ### All rules of a set -/

/-- What a rule finds is for its field, with its confidence and its name. -/
theorem finding_eq_some {gate : MatchState → Rule → Bool} {st : MatchState} {r : Rule}
    {e : Emission} (h : finding gate st r = some e) :
    e.field = r.field ∧ e.confidence = r.confidence ∧ e.rule = r.name := by
  rw [finding] at h
  split at h
  · rw [Rule.evaluate, Rule.emission?] at h
    dsimp only at h
    split at h
    · obtain ⟨value, -, rfl⟩ := Option.map_eq_some_iff.mp h
      exact ⟨rfl, rfl, rfl⟩
    · exact absurd h (by simp)
  · exact absurd h (by simp)

/-- **Rules of one set do not disturb each other.** In a set that builds every definition
    builds by itself. For each field the set finds something when some definition does so by
    itself, and then it is the first best of what the definitions find by themselves; and what
    a definition finds carries its confidence and its name. -/
theorem classify_isolated {ds : List RuleDefinition} {rs : RuleSet}
    (h : build lookups verbose ds = .ok rs) (root : Place) (field : String) :
    (∀ d ∈ ds, ∃ alone, build lookups verbose [d] = .ok alone) ∧
      (((rs.classify root).get? field).isSome ↔
        ∃ d ∈ ds, (foundAlone lookups verbose root field d).isSome) ∧
      Classification.IsFirstBest (foundAlone lookups verbose root field) ds
        ((rs.classify root).get? field) ∧
      ∀ d ∈ ds, ∀ e, foundAlone lookups verbose root field d = some e →
        e.field = field ∧ e.confidence = d.extract.confidence ∧ e.rule = d.name := by
  obtain ⟨hwf, hall⟩ := rules_of_build h
  obtain ⟨hlength, hstands⟩ := List.forall₂_iff_zip.mp hall
  generalize hpairs : ds.zip rs.rules = pairs at hstands
  have hds : pairs.map (·.1) = ds := hpairs ▸ List.map_fst_zip (Nat.le_of_eq hlength)
  have hrules : pairs.map (·.2) = rs.rules :=
    hpairs ▸ List.map_snd_zip (Nat.le_of_eq hlength.symm)
  have hmem : ∀ d ∈ ds, ∃ p ∈ pairs, p.1 = d := fun d hd => List.mem_map.mp (hds ▸ hd)
  -- What a definition finds alone is what its rule finds after the walk.
  let offered := fun p : RuleDefinition × Rule =>
    finding passesGate (rs.collect root rs.newState) p.2
  have hfound : ∀ p ∈ pairs, foundAlone lookups verbose root field p.1 =
      (offered p).filter (·.field == field) := fun p hp =>
    foundAlone_eq hwf root field (hrules ▸ List.mem_map_of_mem hp) (hstands hp)
  have hclassify : rs.classify root = (pairs.filterMap offered).foldl .offer .empty := by
    rw [classify_eq hwf, ← hrules, List.filterMap_map]
    rfl
  have hbest : Classification.IsFirstBest (foundAlone lookups verbose root field) ds
      ((rs.classify root).get? field) := by
    rw [hclassify, ← hds]
    exact (Classification.isFirstBest_get? offered pairs field).map hfound
  refine ⟨fun d hd => ?_, hbest.isSome_iff, hbest, fun d hd e he => ?_⟩
  · obtain ⟨p, hp, rfl⟩ := hmem d hd
    obtain ⟨alone, -, -, hcompile, -⟩ := hstands hp
    exact ⟨_, build_singleton hcompile⟩
  · obtain ⟨p, hp, rfl⟩ := hmem d hd
    rw [hfound p hp, Option.filter_eq_some_iff] at he
    obtain ⟨hfinding, hfield⟩ := he
    obtain ⟨-, hconfidence, hname⟩ := finding_eq_some hfinding
    obtain ⟨alone, position, offset, hcompile, hr⟩ := hstands hp
    have hbuilt := Rule.built_of_compile hcompile
    rw [hr] at hconfidence hname
    exact ⟨by simpa using hfield, hconfidence.trans hbuilt.confidence, hname.trans hbuilt.name⟩

/-- Three rules for one field with equal confidence: the first finds nothing, and of the others
    the earlier one is kept. -/
theorem classify_isolated_on_names :
    let definition := fun name expression =>
      (⟨name, [], [], ⟨"Name", 10, expression⟩⟩ : RuleDefinition)
    let ds := [definition "url" "agent.url", definition "first" "agent.(0)product.name",
      definition "second" "agent.(1)product.name"]
    let root : Place := ⟨[], .agent [.product "Moz" "5", .product "Chrome" "1"]⟩
    ∃ rs, build .empty false ds = .ok rs ∧
      Classification.IsFirstBest (foundAlone .empty false root "Name") ds
        (some ⟨"Name", "Moz", 10, "first"⟩) := by
  intro definition ds root
  have hget : ((build .empty false ds).toOption.bind fun rs =>
      (rs.classify root).get? "Name") = some ⟨"Name", "Moz", 10, "first"⟩ := by
    decide +kernel
  cases hrs : build .empty false ds with
  | error e => simp [hrs, Except.toOption] at hget
  | ok rs =>
    have hbest := (classify_isolated hrs root "Name").2.2.1
    rw [hrs] at hget
    exact ⟨rs, rfl, hget ▸ hbest⟩

end AgentRules.RuleSet
