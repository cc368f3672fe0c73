/-
  What an index records.

  An index has a node for each start of what has been registered, and for nothing else, so
  routes that start alike share nodes as far as they can. The listing of an index names each
  expansion of a registered path once, with the actions whose paths have it, in the order of
  their registration. All counts are counts of these: of filings for one registration, of
  filings in all, and of nodes (`RouteIndex.enterAll_records`).

  The nodes are those of the starts because filing a path is filing under its routes, one after
  the other (`isSome_node?_registerAll`). Which actions are at a node is known from
  `RouteIndex.ids_registerAll`, and that the listing has each node once from `Distinct`.
-/
import AgentRules.Proofs.Nodes
import AgentRules.Proofs.WellFormed
import Mathlib.Algebra.GroupWithZero.Nat
import Mathlib.Data.Finset.Card

namespace AgentRules

/-- What each step of a fold may add holds in the end if it did before or some step added it. -/
theorem foldl_iff {σ β : Type} {f : σ → β → σ} {P : σ → Prop} {Q : β → Prop} {bs : List β}
    (h : ∀ b ∈ bs, ∀ s, P (f s b) ↔ P s ∨ Q b) (s : σ) :
    P (bs.foldl f s) ↔ P s ∨ ∃ b ∈ bs, Q b := by
  induction bs generalizing s with
  | nil => simp
  | cons b bs ih =>
    obtain ⟨hb, hbs⟩ := List.forall_mem_cons.mp h
    rw [List.foldl_cons, ih hbs, hb, or_assoc]
    simp only [List.mem_cons, exists_eq_or_imp]

/-- What is counted element by element is counted list by list. -/
theorem sum_length_filter_mem {α β : Type} [DecidableEq α] {f : β → List α}
    [∀ a b, Decidable (a ∈ f b)] (hf : ∀ b, (f b).Nodup) (bs : List β) :
    ((bs.flatMap f).dedup.map fun a => (bs.filter fun b => a ∈ f b).length).sum =
      (bs.flatMap f).length := by
  have hcount : ∀ a, (bs.filter fun b => a ∈ f b).length = (bs.flatMap f).count a := by
    intro a
    induction bs with
    | nil => rfl
    | cons b bs ih =>
      rw [List.flatMap_cons, List.count_append, ← ih, List.filter_cons]
      by_cases hmem : a ∈ f b
      · simp [hmem, List.count_eq_one_of_mem (hf b) hmem, Nat.add_comm]
      · simp [hmem, List.count_eq_zero_of_not_mem]
  simp only [hcount]
  exact List.sum_map_count_dedup_eq_length _

namespace RouteIndex

/-! ### Calls in a row -/

/-- Registers expressions one after the other; gives the numbers of filings and the index in
    the end. -/
def enterAll (entries : List (ActionId × Expression)) : List Nat × RouteIndex :=
  callAll (fun index e => index.enter e.1 e.2.root.path) empty entries

/-- The paths of expressions. -/
def paths (entries : List (ActionId × Expression)) : List (ActionId × Path) :=
  entries.map fun e => (e.1, e.2.root.path)

theorem enterAll_eq (entries : List (ActionId × Expression)) :
    enterAll entries =
      ((paths entries).map fun e => e.2.filings.length, registerAll (paths entries)) := by
  have hcalls : ∀ (entries : List (ActionId × Expression)) (ix : RouteIndex),
      callAll (fun index e => index.enter e.1 e.2.root.path) ix entries =
        ((paths entries).map (fun e => e.2.filings.length),
          (paths entries).foldl (fun index e => (index.enter e.1 e.2).2) ix) := by
    intro entries
    induction entries with
    | nil => exact fun ix => rfl
    | cons e entries ih =>
      intro ix
      have hrest := ih (ix.enter e.1 e.2.root.path).2
      simp only [callAll, hrest, fst_enter]
      rfl
  exact hcalls entries empty

/-- The count of an index is the sum of the answers. -/
theorem registrations_registerAll (entries : List (ActionId × Path)) :
    (registerAll entries).registrations = (entries.map fun e => e.2.filings.length).sum := by
  have hfold : ∀ (entries : List (ActionId × Path)) (ix : RouteIndex),
      (entries.foldl (fun index e => (index.enter e.1 e.2).2) ix).registrations =
        ix.registrations + (entries.map fun e => e.2.filings.length).sum := by
    intro entries
    induction entries with
    | nil => exact fun ix => rfl
    | cons e entries ih =>
      intro ix
      rw [List.foldl_cons, ih, registrations_enter, fst_enter, List.map_cons, List.sum_cons,
        Nat.add_assoc]
  exact (hfold entries empty).trans (Nat.zero_add _)

/-! ### The nodes of registered paths -/

theorem Distinct.enter {ix : RouteIndex} (hix : ix.Distinct) (id : ActionId) {path : Path}
    (h : path.WellFormed) : (ix.enter id path).2.Distinct := by
  rw [enter_eq ix id h]
  exact List.foldlRecOn path.filings _ hix fun _ hix route _ => hix.insert id route

theorem isSome_node?_enter (ix : RouteIndex) (id : ActionId) {path : Path} (h : path.WellFormed)
    (r : Route) :
    ((ix.enter id path).2.node? r).isSome ↔
      (ix.node? r).isSome ∨ ∃ q ∈ path.filings, r.segments <+: q.segments := by
  rw [enter_eq ix id h]
  exact foldl_iff (P := fun ix => (node? ix r).isSome)
    (fun q _ ix => isSome_node?_insert ix id q r) ix

/-- All expansions of paths, each as often as it comes up. -/
def expansions (entries : List (ActionId × Path)) : List (List Segment) :=
  entries.flatMap fun e => e.2.expansions

/-- The actions whose paths have an expansion. -/
def actionsOf (entries : List (ActionId × Path)) (segs : List Segment) : List ActionId :=
  (entries.filter fun e => segs ∈ e.2.expansions).map (·.1)

/-- The starts of segments in a row that are not empty. -/
def starts (segs : List Segment) : List (List Segment) := segs.inits.tail

theorem mem_starts {segs start : List Segment} :
    start ∈ starts segs ↔ start ≠ [] ∧ start <+: segs := by
  rw [starts]
  cases segs with
  | nil => simp
  | cons seg segs =>
    rw [List.inits_cons, List.tail_cons, List.mem_map]
    cases start with
    | nil => simp
    | cons s start => simp [List.cons_prefix_cons, and_comm, eq_comm]

variable {entries : List (ActionId × Path)}

theorem distinct_registerAll (h : ∀ e ∈ entries, e.2.WellFormed) :
    (registerAll entries).Distinct :=
  List.foldlRecOn entries _ (show Distinct empty from IndexNode.distinct_empty)
    fun _ hix e he => hix.enter e.1 (h e he)

/-- **The nodes are those that the starts of registered routes lead to.** -/
theorem isSome_node?_registerAll (h : ∀ e ∈ entries, e.2.WellFormed) (r : Route) :
    ((registerAll entries).node? r).isSome ↔
      r.segments = [] ∨ ∃ e ∈ entries, ∃ q ∈ e.2.filings, r.segments <+: q.segments := by
  rw [← isSome_node?_empty]
  exact foldl_iff (P := fun ix => (node? ix r).isSome)
    (fun e he ix => isSome_node?_enter ix e.1 (h e he) r) empty

theorem ids_eq_actionsOf (entries : List (ActionId × Path)) (r : Route) :
    (registerAll entries).ids r = actionsOf entries r.segments := by
  simp only [ids_registerAll, actionsOf, Path.segments_mem_expansions]

/-- Other than the node above the root there is one node for each start of an expansion. -/
theorem mem_nodes_registerAll (h : ∀ e ∈ entries, e.2.WellFormed) (r : Route)
    (ids : List ActionId) :
    (r, ids) ∈ (registerAll entries).nodes ↔
      r.segments ∈ (expansions entries).flatMap starts ∧ actionsOf entries r.segments = ids := by
  have hstarts : r.segments ∈ (expansions entries).flatMap starts ↔
      r.segments ≠ [] ∧ ((registerAll entries).node? r).isSome := by
    rw [isSome_node?_registerAll h]
    simp only [expansions, List.mem_flatMap, mem_starts]
    constructor
    · rintro ⟨full, ⟨e, he, hfull⟩, hne, hstart⟩
      obtain ⟨q, hq, rfl⟩ := Path.mem_expansions.mp hfull
      exact ⟨hne, .inr ⟨e, he, q, hq, hstart⟩⟩
    · rintro ⟨hne, hnil | ⟨e, he, q, hq, hstart⟩⟩
      · exact absurd hnil hne
      · exact ⟨q.segments, ⟨e, he, Path.segments_mem_expansions.mpr hq⟩, hne, hstart⟩
  rw [(distinct_registerAll h).mem_nodes, hstarts, and_assoc, ← ids_eq_actionsOf]
  refine and_congr_right fun _ => ?_
  constructor
  · exact fun hnode => ⟨hnode ▸ rfl, ids_of_node? hnode⟩
  · rintro ⟨hsome, rfl⟩
    obtain ⟨ids, hnode⟩ := Option.isSome_iff_exists.mp hsome
    rw [hnode, ids_of_node? hnode]

theorem nodup_segments_nodes (h : ∀ e ∈ entries, e.2.WellFormed) :
    ((registerAll entries).nodes.map (·.1.segments)).Nodup := by
  have hroutes := (distinct_registerAll h).nodup_nodes.map Route.segments_injective
  rwa [List.map_map] at hroutes

/-- **An index has one node for each start of an expansion.** -/
theorem nodeCount_registerAll (h : ∀ e ∈ entries, e.2.WellFormed) :
    (registerAll entries).nodeCount = ((expansions entries).flatMap starts).toFinset.card := by
  have hstarts : ((expansions entries).flatMap starts).toFinset =
      ((registerAll entries).nodes.map (·.1.segments)).toFinset := by
    ext segs
    rw [List.mem_toFinset, List.mem_toFinset, List.mem_map]
    constructor
    · intro hsegs
      obtain ⟨full, hfull, hstart⟩ := List.mem_flatMap.mp hsegs
      obtain ⟨e, -, hexpansion⟩ := List.mem_flatMap.mp hfull
      obtain ⟨q, -, rfl⟩ := Path.mem_expansions.mp hexpansion
      obtain ⟨r, rfl⟩ := Route.exists_of_start (mem_starts.mp hstart).2
      exact ⟨(r, _), (mem_nodes_registerAll h r _).mpr ⟨hsegs, rfl⟩, rfl⟩
    · rintro ⟨⟨r, ids⟩, hr, rfl⟩
      exact ((mem_nodes_registerAll h r ids).mp hr).1
  rw [hstarts, List.toFinset_card_of_nodup (nodup_segments_nodes h), List.length_map,
    length_nodes]

/-! ### The listing -/

theorem actionsOf_ne_nil {segs : List Segment} :
    actionsOf entries segs ≠ [] ↔ segs ∈ expansions entries := by
  simp [actionsOf, expansions]

theorem mem_filed_registerAll (h : ∀ e ∈ entries, e.2.WellFormed) (r : Route)
    (ids : List ActionId) :
    (r, ids) ∈ (registerAll entries).filed ↔
      r.segments ∈ expansions entries ∧ actionsOf entries r.segments = ids := by
  rw [filed_eq, List.mem_filter, (distinct_registerAll h).mem_nodes_top, ← actionsOf_ne_nil,
    ← ids_eq_actionsOf]
  constructor
  · rintro ⟨hnode, hne⟩
    rw [ids_of_node? hnode]
    exact ⟨by simpa using hne, rfl⟩
  · rintro ⟨hne, rfl⟩
    -- Where there are actions there is a node.
    rw [ids_eq] at hne ⊢
    cases hnode : (registerAll entries).node? r with
    | none => exact absurd (by rw [hnode]; rfl) hne
    | some ids => exact ⟨rfl, by simpa [hnode] using hne⟩

theorem nodup_segments_filed (h : ∀ e ∈ entries, e.2.WellFormed) :
    ((registerAll entries).filed.map (·.1.segments)).Nodup := by
  have hroutes := (distinct_registerAll h).nodup_nodes_top.map Route.segments_injective
  rw [List.map_map] at hroutes
  rw [filed_eq]
  exact hroutes.sublist (List.filter_sublist.map _)

/-- **Each expansion is listed once**, with the actions whose paths have it. -/
theorem filed_registerAll (h : ∀ e ∈ entries, e.2.WellFormed) :
    ((registerAll entries).filed.map fun (r, ids) => (r.segments, ids)).Perm
      ((expansions entries).dedup.map fun segs => (segs, actionsOf entries segs)) := by
  have hleft : ((registerAll entries).filed.map fun (r, ids) => (r.segments, ids)).Nodup := by
    refine List.Nodup.of_map Prod.fst ?_
    rw [List.map_map]
    exact nodup_segments_filed h
  have hright : ((expansions entries).dedup.map
      fun segs => (segs, actionsOf entries segs)).Nodup :=
    (List.nodup_dedup _).map fun _ _ heq => congrArg Prod.fst heq
  rw [List.perm_ext_iff_of_nodup hleft hright]
  rintro ⟨segs, ids⟩
  simp only [List.mem_map, List.mem_dedup, Prod.mk.injEq, Prod.exists]
  constructor
  · rintro ⟨r, ids, hr, rfl, rfl⟩
    obtain ⟨hsegs, hids⟩ := (mem_filed_registerAll h r ids).mp hr
    exact ⟨r.segments, hsegs, rfl, hids⟩
  · rintro ⟨segs, hsegs, rfl, rfl⟩
    obtain ⟨e, he, hmem⟩ := List.mem_flatMap.mp hsegs
    obtain ⟨r, hr, rfl⟩ := Path.mem_expansions.mp hmem
    exact ⟨r, _, (mem_filed_registerAll h r _).mpr ⟨hsegs, rfl⟩, rfl, rfl⟩

/-- What is listed, before it is put in order. -/
def listing (ix : RouteIndex) : List (String × List ActionId) :=
  ix.filed.map fun (r, ids) => (r.render, ids)

theorem filedRoutes_perm (ix : RouteIndex) : ix.filedRoutes.Perm ix.listing :=
  List.mergeSort_perm _ _

theorem filedRoutes_registerAll (h : ∀ e ∈ entries, e.2.WellFormed) :
    (registerAll entries).filedRoutes.Perm ((expansions entries).dedup.map fun segs =>
      (Segment.renderAll segs, actionsOf entries segs)) := by
  have hlisting := (filed_registerAll h).map fun (segs, ids) => (Segment.renderAll segs, ids)
  have hrender : (registerAll entries).listing =
      ((registerAll entries).filed.map fun (r, ids) => (r.segments, ids)).map
        fun (segs, ids) => (Segment.renderAll segs, ids) := by
    rw [listing, List.map_map]
    exact List.map_congr_left fun p _ => congrArg (·, p.2) p.1.render_eq
  rw [← hrender, List.map_map] at hlisting
  exact (filedRoutes_perm _).trans hlisting

/-- **The count of an index is the number of actions in the listing.** -/
theorem registrations_eq (h : ∀ e ∈ entries, e.2.WellFormed) :
    (registerAll entries).registrations =
      ((registerAll entries).filedRoutes.map (·.2.length)).sum := by
  have hlengths : ∀ e ∈ entries, e.2.filings.length = e.2.expansions.length := fun e _ =>
    (e.2.perm_expansions.length_eq.trans (List.length_map _)).symm
  calc (registerAll entries).registrations
      = (entries.map fun e => e.2.filings.length).sum := registrations_registerAll entries
    _ = (expansions entries).length := by
        rw [expansions, List.length_flatMap, List.map_congr_left hlengths]
    _ = ((expansions entries).dedup.map fun segs =>
          (entries.filter fun e => segs ∈ e.2.expansions).length).sum :=
        (sum_length_filter_mem (fun e => e.2.nodup_expansions) entries).symm
    _ = ((expansions entries).dedup.map fun segs => (actionsOf entries segs).length).sum := by
        simp only [actionsOf, List.length_map]
    _ = ((registerAll entries).filedRoutes.map (·.2.length)).sum := by
        rw [((filedRoutes_registerAll h).map _).sum_eq, List.map_map]
        rfl

/-- Paths whose expansions are starts of others add no node. -/
theorem nodeCount_enter_of_starts (h : ∀ e ∈ entries, e.2.WellFormed) (id : ActionId)
    {path : Path} (hpath : path.WellFormed)
    (hshared : ∀ segs ∈ path.expansions, ∃ full ∈ expansions entries, segs <+: full) :
    ((registerAll entries).enter id path).2.nodeCount = (registerAll entries).nodeCount := by
  have happend : ((registerAll entries).enter id path).2 =
      registerAll (entries ++ [(id, path)]) := by
    rw [registerAll, registerAll, List.foldl_append]
    rfl
  have hall : ∀ e ∈ entries ++ [(id, path)], e.2.WellFormed := by
    intro e he
    rcases List.mem_append.mp he with he | he
    · exact h e he
    · rwa [List.mem_singleton.mp he]
  rw [happend, nodeCount_registerAll hall, nodeCount_registerAll h]
  congr 1
  ext start
  have hexpansions : expansions (entries ++ [(id, path)]) =
      expansions entries ++ path.expansions := by
    simp [expansions]
  simp only [hexpansions, List.mem_toFinset, List.mem_flatMap, List.mem_append, mem_starts]
  constructor
  · rintro ⟨segs, hsegs | hsegs, hne, hstart⟩
    · exact ⟨segs, hsegs, hne, hstart⟩
    · obtain ⟨full, hfull, hfullstart⟩ := hshared segs hsegs
      exact ⟨full, hfull, hne, hstart.trans hfullstart⟩
  · rintro ⟨segs, hsegs, hne, hstart⟩
    exact ⟨segs, .inl hsegs, hne, hstart⟩

/-! ### Registering what has been read -/

theorem wellFormed_paths {entries : List (ActionId × Expression)}
    (h : ∀ e ∈ entries, Expression.parse e.2.text = .ok e.2) :
    ∀ e ∈ paths entries, e.2.WellFormed := by
  intro e he
  obtain ⟨e, hmem, rfl⟩ := List.mem_map.mp he
  exact (Expression.root_wellFormed (h e hmem)).path

/-- **An index is a faithful record, shared as far as can be.** Each registration is answered
    with the product of the lengths of the leading ranges, or with zero if the path is not from
    the root. The listing has each expansion of a registered path once, with the actions whose
    paths have it, in the order of their registration; the number of all filings is both the sum
    of the answers and that of the listed actions. There is one node for each start of an
    expansion, so none is made by a path whose expansions are starts of others. -/
theorem enterAll_records {entries : List (ActionId × Expression)}
    (hread : ∀ e ∈ entries, Expression.parse e.2.text = .ok e.2) :
    let (answers, index) := enterAll entries
    let expanded := expansions (paths entries)
    answers = entries.map (fun e => e.2.root.path.fanOut) ∧
      index.filedRoutes.Perm
        (expanded.dedup.map fun segs => (Segment.renderAll segs, actionsOf (paths entries) segs)) ∧
      index.registrations = answers.sum ∧
      index.registrations = (index.filedRoutes.map (·.2.length)).sum ∧
      index.nodeCount = (expanded.flatMap starts).toFinset.card ∧
      ∀ id (e : Expression), Expression.parse e.text = .ok e →
        (∀ segs ∈ e.root.path.expansions, ∃ full ∈ expanded, segs <+: full) →
          (index.enter id e.root.path).2.nodeCount = index.nodeCount := by
  have hpaths := wellFormed_paths hread
  rw [enterAll_eq]
  refine ⟨?_, filedRoutes_registerAll hpaths, registrations_registerAll _,
    registrations_eq hpaths, nodeCount_registerAll hpaths, fun id e he hshared =>
      nodeCount_enter_of_starts hpaths id (Expression.root_wellFormed he).path hshared⟩
  rw [paths, List.map_map]
  exact List.map_congr_left fun e he =>
    (hpaths (e.1, e.2.root.path) (List.mem_map_of_mem he)).length_filings

/-- Two expressions that share a product, and a literal. -/
def sharedProducts : List (ActionId × Expression) :=
  [(0, ⟨"agent.(0-1)product", ⟨[], .fromRoot
      [.down .agent (.single 0), .down .product ⟨0, 1⟩]⟩⟩),
    (1, ⟨"agent.(1-2)product\x7b\"Chrome\"", ⟨[], .fromRoot
      [.down .agent (.single 0), .down .product ⟨1, 2⟩, .test .startsWith "Chrome"]⟩⟩),
    (2, ⟨"\"Chrome\"", ⟨[], .literal "Chrome"⟩⟩)]

theorem enterAll_records_on_sharedProducts :
    (∀ e ∈ sharedProducts, Expression.parse e.2.text = .ok e.2) ∧
      (enterAll sharedProducts).1 = [2, 2, 0] ∧
      (enterAll sharedProducts).2.registrations = 4 ∧
      (enterAll sharedProducts).2.nodeCount = 6 := by
  have hread : ∀ e ∈ sharedProducts, Expression.parse e.2.text = .ok e.2 := by decide +kernel
  have hrecords := enterAll_records hread
  have hanswers : (enterAll sharedProducts).1 = [2, 2, 0] := hrecords.1.trans (by decide +kernel)
  have hregistrations : (enterAll sharedProducts).2.registrations =
      (enterAll sharedProducts).1.sum := hrecords.2.2.1
  have hnodes : (enterAll sharedProducts).2.nodeCount = 6 :=
    hrecords.2.2.2.2.1.trans (by decide +kernel)
  exact ⟨hread, hanswers, by rw [hregistrations, hanswers]; rfl, hnodes⟩

end RouteIndex

end AgentRules
