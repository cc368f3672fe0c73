/-
  What a walk delivers.

  A path asks of a place that its descents lead down to it, and of the value there that it
  passes a test, has some words, or has words that pass a test. `Path.answer` says so of one
  path, one lineage and one value, without an index. The deliveries of a walk to an action
  are the answers of its path to all places of the tree in preorder, whatever else has been
  registered (`filter_walk_registerAll`).

  An index in order delivers a value once for each reading of it, the value itself or some
  words, and each test that the reading passes (`deliver_eq_flatMap`). A path has at most one
  route along a lineage (`mem_filings`), and a route has one reading and one test, so at most
  one of the deliveries of a place is for the action.
-/
import AgentRules.MatchState
import AgentRules.Proofs.Lists
import AgentRules.Proofs.RouteIndex

namespace AgentRules

/-! ### Answers -/

namespace PathStep

/-- The value itself, unless the first of some steps is a test that an index can answer and
    that the value does not pass. -/
def answerTest : List PathStep → String → Option String
  | test .equals text :: _, value => if value = text then some value else none
  | test .startsWith text :: _, value =>
    if text.toList <+: value.toList then some value else none
  | _, value => some value

/-- What steps take from a place: its value or, if the first step is for words, these words
    of it; unless the test that comes then is not passed. -/
def answerHere : List PathStep → String → Option String
  | words range :: steps, value => (range.extract value).bind (answerTest steps)
  | steps, value => answerTest steps value

/-- What steps take from a place whose value and lineage are given. Each descent at the start
    has to go to the next node of the lineage, and the last of them to its last node. -/
def answer : List PathStep → List (Fragment × Nat) → String → Option String
  | down kind range :: steps, (k, i) :: way, value =>
    if k = kind ∧ range.contains i then answer steps way value else none
  | down _ _ :: _, [], _ => none
  | _, _ :: _, _ => none
  | steps, [], value => answerHere steps value

end PathStep

/-- What a path takes from a place whose value and lineage are given, as far as an index can
    tell. Only paths from the root take anything. -/
def Path.answer : Path → List (Fragment × Nat) → String → Option String
  | fromRoot steps => PathStep.answer steps
  | literal _ | fromVariable .. => fun _ _ => none

/-! ### The route along a lineage -/

/-- The value itself, or some words of it. -/
def reading (words : Option WordRange) (value : String) : Option String :=
  match words with
  | none => some value
  | some range => range.extract value

/-- The tests that a value passes, and no test. -/
def passedBy (value : String) : List (Option IndexedTest) :=
  none :: some (.equals value) ::
    value.toList.inits.map fun start => some (.startsWith (String.ofList start))

theorem mem_passedBy_equals {value text : String} :
    some (.equals text) ∈ passedBy value ↔ value = text := by
  simp [passedBy, eq_comm]

theorem mem_passedBy_startsWith {value text : String} :
    some (.startsWith text) ∈ passedBy value ↔ text.toList <+: value.toList := by
  simp only [passedBy, List.mem_cons, reduceCtorEq, Option.some.injEq, false_or, List.mem_map,
    IndexedTest.startsWith.injEq, List.mem_inits]
  constructor
  · rintro ⟨start, hstart, rfl⟩
    rwa [String.toList_ofList]
  · exact fun h => ⟨text.toList, h, String.ofList_toList⟩

theorem nodup_passedBy (value : String) : (passedBy value).Nodup := by
  have hinj : Function.Injective fun start : List Char =>
      some (IndexedTest.startsWith (String.ofList start)) := by
    intro s t h
    simpa [String.ofList_inj] using h
  have hstarts := (nodup_inits value.toList).map hinj
  exact List.nodup_cons.mpr ⟨by simp, List.nodup_cons.mpr ⟨by simp, hstarts⟩⟩

namespace Route

/-- What a route takes from a place to which its children lead. -/
def answer (r : Route) (value : String) : Option String :=
  (reading r.words value).bind fun v => if r.test ∈ passedBy v then some v else none

end Route

namespace PathStep

theorem answerTest_eq (steps : List PathStep) (value : String) :
    answerTest steps value = if leadingTest? steps ∈ passedBy value then some value else none := by
  have hnone : none ∈ passedBy value := List.mem_cons_self
  rcases steps with _ | ⟨_ | ⟨_ | _ | _ | _ | _, text⟩ | _, steps⟩
  all_goals
    simp only [answerTest, leadingTest?, mem_passedBy_equals, mem_passedBy_startsWith, hnone,
      if_true]

theorem answerHere_eq (words : Option WordRange) (steps : List PathStep) (value : String) :
    (reading words value).bind (answerTest steps) =
      (⟨[], words, leadingTest? steps⟩ : Route).answer value := by
  rw [Route.answer]
  exact congrArg _ (funext (answerTest_eq steps))

theorem answer_eq (steps : List PathStep) (way : List (Fragment × Nat)) (value : String) :
    answer steps way value = (routeAlong steps way).bind (·.answer value) := by
  induction steps generalizing way with
  | nil => cases way with
    | nil => exact answerHere_eq none [] value
    | cons c way => rfl
  | cons step steps ih =>
    cases step with
    | test u text => cases way with
      | nil => exact answerHere_eq none (test u text :: steps) value
      | cons c way => rfl
    | words range => cases way with
      | nil => exact answerHere_eq (some range) steps value
      | cons c way => rfl
    | down kind range =>
      cases way with
      | nil => rfl
      | cons c way =>
        rw [answer, routeAlong, ih]
        split
        · cases routeAlong steps way <;> rfl
        · rfl

end PathStep

namespace Path

theorem answer_eq (path : Path) (way : List (Fragment × Nat)) (value : String) :
    path.answer way value = (path.routeAlong way).bind (·.answer value) := by
  cases path with
  | fromRoot steps => exact PathStep.answer_eq steps way value
  | literal text => rfl
  | fromVariable name steps => rfl

end Path

/-- The candidate that a path has at a place of a tree. -/
def Path.candidateAt (path : Path) (root q : Place) : Option Candidate :=
  (path.routeAlong (root.lineage q)).bind fun r =>
    (r.answer q.node.value).map (⟨.ofRoute r, q, ·⟩)

/-- The candidates of a path are its answers. -/
theorem Path.map_candidateAt (path : Path) (root q : Place) :
    (path.candidateAt root q).map (fun c => (c.place, c.value)) =
      (path.answer (root.lineage q) q.node.value).map (q, ·) := by
  rw [Path.answer_eq, Path.candidateAt]
  cases path.routeAlong (root.lineage q) with
  | none => rfl
  | some r => simp [Function.comp_def]

/-- The delivery of a candidate to an action. -/
def Candidate.delivery (c : Candidate) (id : ActionId) : Delivery :=
  ⟨id, c.origin, c.place, c.value⟩

/-! ### Deliveries at a place -/

namespace ValueNode

/-- **A value is delivered once for each test that it passes.** -/
theorem deliver_eq_flatMap {n : ValueNode} (h : n.WellFormed) (way : List (Fragment × Nat))
    (words : Option WordRange) (place : Place) (value : String) :
    n.deliver way words place value =
      (passedBy value).flatMap fun t =>
        (n.ids t).map (⟨·, .ofRoute ⟨way, words, t⟩, place, value⟩) := by
  -- A node that is found carries the text it was found by, so origins can be read off it.
  rw [deliver, passedBy, List.flatMap_cons, List.flatMap_cons, ← List.append_assoc]
  congr 1
  · congr 1
    rw [ids]
    cases hm : n.equals.find? (·.text == value) with
    | none => rfl
    | some m =>
      have htext : m.text = value := by simpa using List.find?_some hm
      rw [← htext]
      rfl
  · rw [PrefixTree.prefixValues_eq, List.flatMap_map]
    induction value.toList.inits with
    | nil => rfl
    | cons start starts ih =>
      rw [List.flatMap_cons, ← ih, ids, String.toList_ofList]
      cases hm : n.starts.get? start with
      | none => rw [List.filterMap_cons_none hm]; rfl
      | some m =>
        have htext : m.text = String.ofList start := by
          rw [← h start m hm, String.ofList_toList]
        rw [List.filterMap_cons_some hm, List.flatMap_cons, ← htext]
        rfl

end ValueNode

namespace PlaceNode

/-- The word ranges under which actions are filed at a place, and none. -/
def wordings (n : PlaceNode) : List (Option WordRange) := none :: (n.worded.map (·.1)).map some

theorem WellFormed.nodup_wordings {n : PlaceNode} (h : n.WellFormed) : n.wordings.Nodup :=
  List.nodup_cons.mpr ⟨by simp, h.distinct.map fun _ _ => Option.some.inj⟩

theorem mem_wordings {n : PlaceNode} {words : Option WordRange} {test : Option IndexedTest}
    (h : n.ids words test ≠ []) : words ∈ n.wordings := by
  cases words with
  | none => exact List.mem_cons_self
  | some range =>
    rw [ids] at h
    cases hm : n.worded.lookup range with
    | none => exact absurd (by rw [hm]; rfl) h
    | some m =>
      obtain ⟨before, after, hsplit, -⟩ := List.lookup_eq_some_iff.mp hm
      simp [wordings, hsplit]

/-- **A place is delivered once for each reading of its value and each test that the reading
    passes.** -/
theorem deliver_eq_flatMap {n : PlaceNode} (h : n.WellFormed) (way : List (Fragment × Nat))
    (place : Place) :
    n.deliver way place =
      n.wordings.flatMap fun w => (reading w place.node.value).toList.flatMap fun v =>
        (passedBy v).flatMap fun t =>
          (n.ids w t).map (⟨·, .ofRoute ⟨way, w, t⟩, place, v⟩) := by
  have hplain := ValueNode.deliver_eq_flatMap h.plain way none place place.node.value
  rw [deliver, wordings, List.flatMap_cons, hplain, List.map_map, List.flatMap_map]
  congr 1
  · exact (List.append_nil _).symm
  · refine List.flatMap_congr fun m hm => ?_
    have hlookup : n.worded.lookup m.1 = some m.2 := lookup_of_mem h.distinct hm
    simp only [Function.comp_apply, reading, ids, hlookup]
    cases m.1.extract place.node.value with
    | none => rfl
    | some v =>
      exact (ValueNode.deliver_eq_flatMap (h.worded m hm) way (some m.1) place v).trans
        (List.append_nil _).symm

/-- **A place is delivered once at most to an action with one route there.** -/
theorem filter_deliver {n : PlaceNode} (h : n.WellFormed) (id : ActionId)
    {way : List (Fragment × Nat)} {route : Option Route}
    (hway : ∀ r, route = some r → r.children = way)
    (hids : ∀ w t, (n.ids w t).filter (· = id) =
      if route = some ⟨way, w, t⟩ then [id] else [])
    (place : Place) :
    (n.deliver way place).filter (·.action = id) =
      ((route.bind fun r => (r.answer place.node.value).map
        fun v => (⟨.ofRoute r, place, v⟩ : Candidate)).map (·.delivery id)).toList := by
  have hsome : ∀ w t v, ((n.ids w t).map fun i =>
      (⟨i, .ofRoute ⟨way, w, t⟩, place, v⟩ : Delivery)).filter (·.action = id) =
        if route = some ⟨way, w, t⟩ then [⟨id, .ofRoute ⟨way, w, t⟩, place, v⟩] else [] := by
    intro w t v
    rw [List.filter_map]
    show ((n.ids w t).filter (· = id)).map _ = _
    rw [hids]
    split <;> rfl
  simp only [deliver_eq_flatMap h, List.filter_flatMap, hsome]
  cases route with
  | none => simp
  | some r =>
    obtain rfl := hway r rfl
    obtain ⟨way, words, test⟩ := r
    simp only [Option.some.injEq] at hids ⊢
    have hne : n.ids words test ≠ [] := fun hnil => by simpa [hnil] using hids words test
    have hmem : words ∈ n.wordings := mem_wordings hne
    -- Only the words of the route contribute, and for them only its test.
    rw [flatMap_eq_of_forall_ne h.nodup_wordings (a := words) fun w hw => by simp [Ne.symm hw],
      if_pos hmem, Option.bind_some, Route.answer]
    cases reading words place.node.value with
    | none => rfl
    | some v =>
      rw [Option.toList_some, List.flatMap_singleton,
        flatMap_eq_of_forall_ne (nodup_passedBy v) (a := test) fun t ht => by simp [Ne.symm ht]]
      by_cases ht : test ∈ passedBy v <;> simp [ht, Candidate.delivery]

end PlaceNode

namespace RouteIndex

/-- The index in which paths are filed, one after the other. -/
def registerAll (entries : List (ActionId × Path)) : RouteIndex :=
  entries.foldl (fun index e => (index.enter e.1 e.2).2) empty

theorem wellFormed_registerAll (entries : List (ActionId × Path)) :
    (registerAll entries).WellFormed :=
  List.foldlRecOn entries _ wellFormed_empty fun _ h e _ => h.enter e.1 e.2

/-- Under a route those actions are filed whose paths have the route, in the order of their
    registration. -/
theorem ids_registerAll (entries : List (ActionId × Path)) (r : Route) :
    (registerAll entries).ids r = (entries.filter fun e => r ∈ e.2.filings).map (·.1) := by
  have hfold : ∀ (entries : List (ActionId × Path)) (index : RouteIndex),
      (entries.foldl (fun index e => (index.enter e.1 e.2).2) index).ids r =
        index.ids r ++ (entries.filter fun e => r ∈ e.2.filings).map (·.1) := by
    intro entries
    induction entries with
    | nil => simp
    | cons e entries ih =>
      intro index
      rw [List.foldl_cons, ih, ids_enter, List.append_assoc, List.filter_cons]
      by_cases h : r ∈ e.2.filings
      · simp [h]
      · simp [h]
  rw [registerAll, hfold, ids_empty, List.nil_append]

theorem filter_ids_registerAll {entries : List (ActionId × Path)}
    (hnd : (entries.map (·.1)).Nodup) {id : ActionId} {path : Path} (h : (id, path) ∈ entries)
    (r : Route) :
    ((registerAll entries).ids r).filter (· = id) = if r ∈ path.filings then [id] else [] := by
  rw [ids_registerAll, List.filter_map, List.filter_filter]
  obtain ⟨before, after, rfl⟩ := List.append_of_mem h
  -- All other entries are for other actions.
  have hother : ∀ e ∈ before ++ after, e.1 ≠ id := ne_of_nodup_map hnd
  have hbefore : ∀ e ∈ before, e.1 ≠ id := fun e he => hother e (List.mem_append_left _ he)
  have hafter : ∀ e ∈ after, e.1 ≠ id := fun e he => hother e (List.mem_append_right _ he)
  rw [List.filter_append, List.filter_cons, List.filter_eq_nil_iff.mpr, List.filter_eq_nil_iff.mpr]
  · by_cases hr : r ∈ path.filings
    · simp [hr]
    · simp [hr]
  · intro e he
    simp [hafter e he]
  · intro e he
    simp [hbefore e he]

/-- What a walk delivers to an action at a place, by the path of the action. -/
def deliveryAt (id : ActionId) (path : Path) (root q : Place) : Option Delivery :=
  (path.candidateAt root q).map (·.delivery id)

/-- **The deliveries to an action are the answers of its path**, in preorder. -/
theorem filter_walk_registerAll {entries : List (ActionId × Path)}
    (hnd : (entries.map (·.1)).Nodup) {id : ActionId} {path : Path} (h : (id, path) ∈ entries)
    (root : Place) :
    ((registerAll entries).walk root).filter (·.action = id) =
      root.preorder.filterMap (deliveryAt id path root) := by
  rw [walk_eq_flatMap, List.filter_flatMap, List.filterMap_eq_flatMap_toList]
  refine List.flatMap_congr fun q _ => ?_
  refine PlaceNode.filter_deliver (wellFormed_registerAll entries _) id
    (fun r => Path.children_routeAlong) (fun w t => ?_) q
  show ((registerAll entries).ids ⟨root.lineage q, w, t⟩).filter (· = id) = _
  rw [filter_ids_registerAll hnd h]
  exact if_congr Path.mem_filings rfl rfl

/-- Only registered actions get deliveries. -/
theorem action_of_mem_walk {entries : List (ActionId × Path)} {root : Place} {d : Delivery}
    (hd : d ∈ (registerAll entries).walk root) : d.action ∈ entries.map (·.1) := by
  rw [walk_eq_flatMap] at hd
  obtain ⟨q, -, hd⟩ := List.mem_flatMap.mp hd
  rw [PlaceNode.deliver_eq_flatMap (wellFormed_registerAll entries _)] at hd
  obtain ⟨w, -, hd⟩ := List.mem_flatMap.mp hd
  obtain ⟨v, -, hd⟩ := List.mem_flatMap.mp hd
  obtain ⟨t, -, hd⟩ := List.mem_flatMap.mp hd
  obtain ⟨i, hi, rfl⟩ := List.mem_map.mp hd
  change i ∈ (registerAll entries).ids ⟨root.lineage q, w, t⟩ at hi
  rw [ids_registerAll] at hi
  obtain ⟨e, he, rfl⟩ := List.mem_map.mp hi
  exact List.mem_map_of_mem (List.mem_of_mem_filter he)

theorem map_deliveryAt (id : ActionId) (path : Path) (root q : Place) :
    (deliveryAt id path root q).map (fun d => (d.place, d.value)) =
      (path.answer (root.lineage q) q.node.value).map (q, ·) := by
  rw [deliveryAt, Option.map_map, ← Path.map_candidateAt]
  rfl

/-- **A walk delivers exactly the matches.** The deliveries to a registered action are the
    places of the tree that its path takes something from, in preorder and each once, with
    what it takes. They are the deliveries that there would be without the other actions, and
    there are none for paths that do not start from the root. -/
theorem deliveries_exact {entries : List (ActionId × Path)} (hnd : (entries.map (·.1)).Nodup)
    {id : ActionId} {path : Path} (h : (id, path) ∈ entries) (root : Place) :
    let deliveries := ((registerAll entries).walk root).filter (·.action = id)
    deliveries.map (fun d => (d.place, d.value)) =
        root.preorder.filterMap
          (fun q => (path.answer (root.lineage q) q.node.value).map (q, ·)) ∧
      (root.preorder.map Place.address).Nodup ∧
      deliveries = (empty.enter id path).2.walk root ∧
      ((∀ steps, path ≠ .fromRoot steps) → deliveries = []) := by
  intro deliveries
  have hdel : deliveries = root.preorder.filterMap (deliveryAt id path root) :=
    filter_walk_registerAll hnd h root
  refine ⟨?_, root.nodup_addresses, ?_, fun hpath => ?_⟩
  · rw [hdel, List.map_filterMap]
    exact List.filterMap_congr fun q _ => map_deliveryAt id path root q
  · -- The index with this one path delivers to no other action.
    have halone : ((registerAll [(id, path)]).walk root).filter (·.action = id) =
        root.preorder.filterMap (deliveryAt id path root) :=
      filter_walk_registerAll (by simp) (by simp) root
    rw [hdel, ← halone, List.filter_eq_self.mpr]
    · rfl
    · intro d hd
      simpa using action_of_mem_walk hd
  · rw [hdel, List.filterMap_eq_nil_iff]
    intro q _
    cases path with
    | fromRoot steps => exact absurd rfl (hpath steps)
    | literal text => rfl
    | fromVariable name steps => rfl

/-- Two actions that ask for products, and the second gets the two of its name. -/
theorem deliveries_of_products :
    let products : List Node := [.product "Moz" "5", .product "Chrome" "1", .product "Chrome" "2"]
    let root : Place := ⟨[], .agent products⟩
    let steps := [.down .agent (.single 0), .down .product (.usual .product)]
    let entries := [(0, .fromRoot steps), (1, .fromRoot (steps ++ [.test .startsWith "Chrome"]))]
    (((registerAll entries).walk root).filter (·.action = 1)).map
        (fun d => (d.place.address, d.value)) = [([1], "Chrome/1"), ([2], "Chrome/2")] := by
  intro products root steps entries
  have h := (deliveries_exact (by decide : (entries.map (·.1)).Nodup)
    (List.mem_cons_of_mem _ List.mem_cons_self) root).1
  have h := congrArg (List.map fun x : Place × String => (x.1.address, x.2)) h
  rw [List.map_map] at h
  exact h.trans (by decide +kernel)

end RouteIndex

end AgentRules
