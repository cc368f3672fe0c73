/-
  The nodes of an index.

  Filing a path goes down all its routes at once, child by child. It comes to the same as filing
  the action under one route after the other (`enter_eq`), because what the routes below a child
  have in common is done once in either case.

  A node is known by the route that leads to it, and an index is read as the finite map from
  routes to actions that `node?` is. Filing under a route makes the nodes on the way, those
  that the starts of the route lead to, and no others (`isSome_node?_insert`); how the
  containers find an existing node does not show in this statement.

  The same map can be listed. As long as no container has two nodes for one thing
  (`Distinct`), which filing preserves, the listing has each node once (`mem_nodes`,
  `nodup_nodes`), and the count of nodes is its length (`length_nodes`).
-/
import AgentRules.Proofs.FiniteMap
import AgentRules.Proofs.Segment
import AgentRules.Proofs.Walk

namespace AgentRules

/-! ### Nodes of a value -/

theorem TestNode.texts_insert (id : ActionId) (text : String) (ns : List TestNode) :
    (insert id text ns).map TestNode.text =
      if text ∈ ns.map TestNode.text then ns.map TestNode.text
      else ns.map TestNode.text ++ [text] := by
  induction ns with
  | nil => rfl
  | cons n ns ih =>
    rw [insert]
    by_cases h : n.text = text
    · simp [h, add]
    · rw [if_neg h, List.map_cons, ih, List.map_cons]
      by_cases hmem : text ∈ ns.map TestNode.text
      · rw [if_pos hmem, if_pos (List.mem_cons_of_mem _ hmem)]
      · rw [if_neg hmem, if_neg (by simpa [Ne.symm h] using hmem), List.cons_append]

namespace ValueNode

variable {n : ValueNode}

/-- The actions at the node for a test, if there is one. Without a test it is the node of the
    value itself. -/
def node? (n : ValueNode) : Option IndexedTest → Option (List ActionId)
  | none => some n.actions
  | some (.equals text) => (n.equals.find? (·.text == text)).map TestNode.actions
  | some (.startsWith text) => (n.starts.get? text.toList).map TestNode.actions

theorem ids_eq (n : ValueNode) (t : Option IndexedTest) : n.ids t = (n.node? t).getD [] := by
  rcases t with _ | _ | _ <;> rfl

theorem isSome_node?_empty (t : Option IndexedTest) : (empty.node? t).isSome ↔ t = none := by
  rcases t with _ | _ | _
  · simp [node?]
  · simp [node?, empty]
  · simp [node?, empty]

theorem isSome_node?_insert (n : ValueNode) (id : ActionId) (test t : Option IndexedTest) :
    ((n.insert id test).node? t).isSome ↔ (n.node? t).isSome ∨ t = test := by
  rcases test with _ | text | text
  · rcases t with _ | _ | _ <;> simp [insert, node?]
  · rcases t with _ | t | t
    · simp [insert, node?]
    · by_cases h : t = text <;> simp [insert, node?, TestNode.find?_insert, h]
    · simp [insert, node?]
  · rcases t with _ | t | t
    · simp [insert, node?]
    · simp [insert, node?]
    · by_cases h : t = text
      · simp [insert, node?, PrefixTree.get?_alter, h]
      · have hne : t.toList ≠ text.toList := fun he => h (String.toList_inj.mp he)
        simp [insert, node?, PrefixTree.get?_alter, h, hne]

/-- Whether no two nodes of a value are for the same test. -/
structure Distinct (n : ValueNode) : Prop where
  equals : (n.equals.map TestNode.text).Nodup
  starts : n.WellFormed

theorem distinct_empty : empty.Distinct := ⟨List.nodup_nil, wellFormed_empty⟩

theorem Distinct.insert (h : n.Distinct) (id : ActionId) (test : Option IndexedTest) :
    (n.insert id test).Distinct := by
  refine ⟨?_, h.starts.insert id test⟩
  rcases test with _ | text | text
  · exact h.equals
  · show ((TestNode.insert id text n.equals).map TestNode.text).Nodup
    rw [TestNode.texts_insert]
    exact nodup_add_key h.equals
  · exact h.equals

theorem Distinct.mem_filed (h : n.Distinct) (t : Option IndexedTest) (ids : List ActionId) :
    (t, ids) ∈ n.filed ↔ n.node? t = some ids := by
  rw [filed, List.mem_append, List.mem_cons, List.mem_map, List.mem_map]
  rcases t with _ | text | text
  · simp [node?, eq_comm]
  · have hmem : ∀ m, m ∈ n.equals ∧ m.text = text ↔ n.equals.find? (·.text == text) = some m := by
      intro m
      constructor
      · rintro ⟨hm, rfl⟩
        exact find?_of_nodup_map h.equals hm
      · intro hm
        exact ⟨List.mem_of_find?_eq_some hm, by simpa using List.find?_some hm⟩
    simp [node?, ← hmem, and_assoc]
  · have hmem : ∀ m, m.text = text ∧ (∃ key, (key, m) ∈ n.starts.entries) ↔
        n.starts.get? text.toList = some m := by
      intro m
      simp only [PrefixTree.mem_entries]
      constructor
      · rintro ⟨rfl, key, hm⟩
        rwa [h.starts key m hm]
      · exact fun hm => ⟨String.toList_inj.mp (h.starts _ m hm), _, hm⟩
    simp only [node?, Option.map_eq_some_iff, ← hmem]
    constructor
    · rintro ((hnone | ⟨m, -, hm⟩) | ⟨⟨key, m⟩, hm, heq⟩)
      · cases hnone
      · cases hm
      · cases heq
        exact ⟨m, ⟨rfl, key, hm⟩, rfl⟩
    · rintro ⟨m, ⟨rfl, key, hm⟩, rfl⟩
      exact .inr ⟨(key, m), hm, rfl⟩

theorem Distinct.nodup_filed (h : n.Distinct) : (n.filed.map (·.1)).Nodup := by
  have hequals := h.equals.map (f := fun text => some (IndexedTest.equals text)) fun _ _ => by simp
  -- The keys of the prefix tree are the texts that its nodes carry.
  have hkeys : n.starts.entries.map (·.1) =
      (n.starts.entries.map (·.2.text)).map String.toList := by
    rw [List.map_map]
    refine List.map_congr_left fun e he => ?_
    exact (h.starts e.1 e.2 ((n.starts.mem_entries e.1 e.2).mp he)).symm
  have hstarts := (List.Nodup.of_map _ (hkeys ▸ n.starts.nodup_keys)).map
    (f := fun text => some (IndexedTest.startsWith text)) fun _ _ => by simp
  rw [List.map_map] at hequals hstarts
  rw [filed, List.map_append, List.map_cons, List.map_map, List.map_map]
  refine List.Nodup.append (List.nodup_cons.mpr ⟨by simp, hequals⟩) hstarts fun t ht ht' => ?_
  obtain ⟨e, -, rfl⟩ := List.mem_map.mp ht'
  simp at ht

theorem length_filed (n : ValueNode) : n.filed.length = 1 + n.testCount := by
  simp only [filed, testCount, List.length_append, List.length_cons, List.length_map,
    PrefixTree.length_entries]
  omega

end ValueNode

/-! ### Nodes at a place -/

namespace PlaceNode

variable {n : PlaceNode}

/-- The node of the place, without words, and the nodes for words. -/
def parts (n : PlaceNode) : List (Option WordRange × ValueNode) :=
  (none, n.plain) :: n.worded.map fun (range, m) => (some range, m)

/-- The part for some words, or for the place itself. -/
def part? (n : PlaceNode) : Option WordRange → Option ValueNode
  | none => some n.plain
  | some range => n.worded.lookup range

/-- The actions at the node for some words and a test, if there is one. -/
def node? (n : PlaceNode) (w : Option WordRange) (t : Option IndexedTest) :
    Option (List ActionId) :=
  (n.part? w).bind (·.node? t)

/-- All nodes at a place, with the words and the tests that they are for. -/
def nodes (n : PlaceNode) : List ((Option WordRange × Option IndexedTest) × List ActionId) :=
  n.parts.flatMap fun (w, m) => m.filed.map fun (t, ids) => ((w, t), ids)

theorem ids_eq (n : PlaceNode) (w : Option WordRange) (t : Option IndexedTest) :
    n.ids w t = (n.node? w t).getD [] := by
  cases w with
  | none => exact n.plain.ids_eq t
  | some range =>
    rw [ids, node?, part?]
    cases n.worded.lookup range with
    | none => rfl
    | some m => exact m.ids_eq t

/-- The node of the place itself is always there. -/
theorem isSome_node?_self (n : PlaceNode) {w : Option WordRange} {t : Option IndexedTest}
    (h : w = none ∧ t = none) : (n.node? w t).isSome := by
  obtain ⟨rfl, rfl⟩ := h
  rfl

theorem isSome_node?_empty (w : Option WordRange) (t : Option IndexedTest) :
    (empty.node? w t).isSome ↔ w = none ∧ t = none := by
  cases w with
  | none => simp [node?, part?, empty, ValueNode.isSome_node?_empty]
  | some range => simp [node?, part?, empty]

theorem part?_insert (n : PlaceNode) (id : ActionId) (words w : Option WordRange)
    (test : Option IndexedTest) :
    (n.insert id words test).part? w =
      if w = words then some (((n.part? words).getD .empty).insert id test) else n.part? w := by
  cases words with
  | none => cases w <;> simp [insert, part?]
  | some range =>
    cases w with
    | none => simp [insert, part?]
    | some r => simp [insert, part?, lookup_insertWords]

/-- Filing at a place makes the node for the words and the node for the test of them. -/
theorem isSome_node?_insert (n : PlaceNode) (id : ActionId) (words w : Option WordRange)
    (test t : Option IndexedTest) :
    ((n.insert id words test).node? w t).isSome ↔
      (n.node? w t).isSome ∨ w = words ∧ (t = none ∨ t = test) := by
  rw [node?, part?_insert, node?]
  by_cases h : w = words
  · subst h
    rw [if_pos rfl, Option.bind_some, ValueNode.isSome_node?_insert]
    cases n.part? w with
    | none => simp [ValueNode.isSome_node?_empty]
    | some m =>
      have hnone : t = none → (m.node? t).isSome := fun ht => ht ▸ rfl
      simp only [Option.getD_some, Option.bind_some, true_and]
      tauto
  · simp [h]

/-- Whether no two nodes at a place are for the same words and the same test. -/
structure Distinct (n : PlaceNode) : Prop where
  keys : (n.worded.map (·.1)).Nodup
  each : ∀ w m, n.part? w = some m → m.Distinct

theorem distinct_empty : empty.Distinct := by
  refine ⟨List.nodup_nil, fun w m hm => ?_⟩
  cases w with
  | none => exact Option.some.inj hm ▸ ValueNode.distinct_empty
  | some range => cases hm

theorem Distinct.insert (h : n.Distinct) (id : ActionId) (words : Option WordRange)
    (test : Option IndexedTest) : (n.insert id words test).Distinct := by
  constructor
  · cases words with
    | none => exact h.keys
    | some range =>
      show ((insertWords id range test n.worded).map (·.1)).Nodup
      rw [keys_insertWords]
      exact nodup_add_key h.keys
  · intro w m hm
    rw [part?_insert] at hm
    split at hm
    · obtain rfl := Option.some.inj hm
      refine ValueNode.Distinct.insert ?_ id test
      cases hpart : n.part? words with
      | none => exact ValueNode.distinct_empty
      | some old => exact h.each words old hpart
    · exact h.each w m hm

theorem Distinct.mem_parts (h : n.Distinct) (w : Option WordRange) (m : ValueNode) :
    (w, m) ∈ n.parts ↔ n.part? w = some m := by
  rw [parts, List.mem_cons, List.mem_map]
  cases w with
  | none => simp [part?, eq_comm]
  | some range =>
    have hlookup : (range, m) ∈ n.worded ↔ n.worded.lookup range = some m := by
      constructor
      · exact fun hm => lookup_of_mem h.keys hm
      · intro hm
        obtain ⟨before, after, hsplit, -⟩ := List.lookup_eq_some_iff.mp hm
        simp [hsplit]
    simp [part?, ← hlookup]

theorem Distinct.nodup_parts (h : n.Distinct) : (n.parts.map (·.1)).Nodup := by
  have hkeys := h.keys.map (f := some) fun _ _ => Option.some.inj
  rw [List.map_map] at hkeys
  rw [parts, List.map_cons, List.map_map]
  exact List.nodup_cons.mpr ⟨by simp, hkeys⟩

theorem Distinct.mem_nodes (h : n.Distinct) (w : Option WordRange) (t : Option IndexedTest)
    (ids : List ActionId) : ((w, t), ids) ∈ n.nodes ↔ n.node? w t = some ids := by
  rw [nodes, List.mem_flatMap, node?, Option.bind_eq_some_iff]
  constructor
  · rintro ⟨⟨w', m⟩, hm, hfiled⟩
    obtain ⟨⟨t', ids'⟩, ht, heq⟩ := List.mem_map.mp hfiled
    cases heq
    have hpart : n.part? w = some m := (h.mem_parts w m).mp hm
    exact ⟨m, hpart, ((h.each w m hpart).mem_filed t ids).mp ht⟩
  · rintro ⟨m, hpart, ht⟩
    refine ⟨(w, m), (h.mem_parts w m).mpr hpart, List.mem_map.mpr ⟨(t, ids), ?_, rfl⟩⟩
    exact ((h.each w m hpart).mem_filed t ids).mpr ht

theorem Distinct.nodup_nodes (h : n.Distinct) : (n.nodes.map (·.1)).Nodup := by
  rw [nodes, List.map_flatMap, List.nodup_flatMap]
  constructor
  · rintro ⟨w, m⟩ hm
    have hfiled := (h.each w m ((h.mem_parts w m).mp hm)).nodup_filed.map
      (f := fun t => (w, t)) fun _ _ => by simp
    rwa [List.map_map] at hfiled ⊢
  · -- Nodes of different parts are for different words.
    have hparts := List.pairwise_map.mp h.nodup_parts
    refine hparts.imp fun {p q} hne => ?_
    rw [Function.onFun, List.map_map, List.map_map]
    intro x hx hx'
    obtain ⟨e, -, rfl⟩ := List.mem_map.mp hx
    obtain ⟨e', -, heq⟩ := List.mem_map.mp hx'
    exact hne (congrArg Prod.fst heq).symm

theorem length_nodes (n : PlaceNode) : n.nodes.length = 1 + n.nodeCount := by
  have hworded : ∀ (ns : List (WordRange × ValueNode)) (count : Nat),
      ns.foldl (fun count (_, m) => count + 1 + m.testCount) count =
        count + (ns.map fun p => p.2.filed.length).sum := by
    intro ns
    induction ns with
    | nil => exact fun count => rfl
    | cons p ns ih =>
      intro count
      have hcons := ih (count + 1 + p.2.testCount)
      rw [List.map_cons, List.sum_cons, ValueNode.length_filed]
      exact hcons.trans (by omega)
  have hlength : n.nodes.length =
      n.plain.filed.length + (n.worded.map fun p => p.2.filed.length).sum := by
    simp [nodes, parts, List.length_flatMap, Function.comp_def]
  rw [hlength, nodeCount, hworded, ValueNode.length_filed]
  omega

end PlaceNode

/-! ### Filing under one route -/

namespace RouteNodes

/-- Of two nodes that are put in one place the second stays. -/
theorem put_put (kind : Fragment) (index : Nat) (n m : IndexNode) (ns : RouteNodes) :
    (((ns.slot kind index).put n).slot kind index).put m = (ns.slot kind index).put m := by
  induction ns with
  | nil => simp [slot]
  | node k i here below others _ ih =>
    by_cases h : k = kind ∧ i = index
    · simp [slot, h]
    · simp [slot, h, ih]

theorem content_slot_put (kind : Fragment) (index : Nat) (n : IndexNode) (ns : RouteNodes) :
    (((ns.slot kind index).put n).slot kind index).content = some n := by
  rw [content_slot, find?_put, if_pos ⟨rfl, rfl⟩]

end RouteNodes

namespace IndexNode

/-- Files an action at the end of a way down from a node. -/
def insert (id : ActionId) (words : Option WordRange) (test : Option IndexedTest) :
    List (Fragment × Nat) → IndexNode → IndexNode
  | [], n => n.file id words test
  | (kind, index) :: way, n =>
    let child := n.below.slot kind index
    { n with below := child.put (insert id words test way (child.content.getD empty)) }

/-- Files an action under several routes, one after the other. -/
def insertAll (id : ActionId) (routes : List Route) (n : IndexNode) : IndexNode :=
  routes.foldl (fun n r => insert id r.words r.test r.children n) n

/-- What is filed under routes through one child is filed at this child. -/
theorem insertAll_under (id : ActionId) (kind : Fragment) (index : Nat) {routes : List Route}
    (hroutes : routes ≠ []) (n : IndexNode) :
    insertAll id (routes.map (.under (kind, index))) n =
      { n with
        below := (n.below.slot kind index).put
          (insertAll id routes ((n.below.slot kind index).content.getD empty)) } := by
  -- From the first route on the child is there, and each further route finds it again.
  have hrest : ∀ (routes : List Route) (child : IndexNode),
      insertAll id (routes.map (.under (kind, index)))
          { n with below := (n.below.slot kind index).put child } =
        { n with below := (n.below.slot kind index).put (insertAll id routes child) } := by
    intro routes
    induction routes with
    | nil => exact fun child => rfl
    | cons r routes ih =>
      intro child
      rw [List.map_cons, insertAll, List.foldl_cons, Route.under, insert]
      simp only [RouteNodes.put_put, RouteNodes.content_slot_put, Option.getD_some]
      exact ih (insert id r.words r.test r.children child)
  obtain ⟨r, routes, rfl⟩ := List.exists_cons_of_ne_nil hroutes
  exact hrest routes _

/-- Filing some routes at several children is filing them under each of the children. -/
theorem snd_atChildren {id : ActionId} {routes : List Route} (hroutes : routes ≠ [])
    {file : IndexNode → Nat × IndexNode} (hfile : ∀ n, (file n).2 = insertAll id routes n)
    (kind : Fragment) (indices : List Nat) (n : IndexNode) :
    (n.atChildren file kind indices).2 =
      insertAll id (indices.flatMap fun i => routes.map (.under (kind, i))) n := by
  induction indices generalizing n with
  | nil => rfl
  | cons index indices ih =>
    have hchild : (n.atChild file kind index).2 =
        insertAll id (routes.map (.under (kind, index))) n := by
      rw [insertAll_under id kind index hroutes, ← hfile]
      rfl
    calc (n.atChildren file kind (index :: indices)).2
        = ((n.atChild file kind index).2.atChildren file kind indices).2 := rfl
      _ = insertAll id (indices.flatMap fun i => routes.map (.under (kind, i)))
            (insertAll id (routes.map (.under (kind, index))) n) := by rw [ih, hchild]
      _ = insertAll id ((index :: indices).flatMap fun i => routes.map (.under (kind, i))) n := by
          rw [List.flatMap_cons, insertAll, insertAll, insertAll, List.foldl_append]

/-- **Filing wherever steps lead is filing under each of their routes**, as long as no range is
    empty. -/
theorem snd_enter (id : ActionId) {steps : List PathStep}
    (h : ∀ range ∈ PathStep.leadingRanges steps, range.Bounded) (n : IndexNode) :
    (enter id steps n).2 = insertAll id (PathStep.filings steps) n := by
  induction steps generalizing n with
  | nil => rfl
  | cons step steps ih =>
    cases step with
    | test u text => rfl
    | words range => rfl
    | down kind range =>
      obtain ⟨-, hranges⟩ := List.forall_mem_cons.mp h
      exact snd_atChildren (PathStep.filings_ne_nil hranges) (ih hranges) kind range.indices n

end IndexNode

namespace RouteIndex

/-- Files an action under one route. -/
def insert (id : ActionId) (index : RouteIndex) (route : Route) : RouteIndex :=
  ⟨index.top.insert id route.words route.test route.children, index.registrations + 1⟩

/-- **Filing a path is filing under each of its routes**, one after the other. -/
theorem enter_eq (ix : RouteIndex) (id : ActionId) {path : Path} (h : path.WellFormed) :
    ix.enter id path = (path.filings.length, path.filings.foldl (insert id) ix) := by
  have hfold : ∀ (routes : List Route) (ix : RouteIndex), routes.foldl (insert id) ix =
      ⟨IndexNode.insertAll id routes ix.top, ix.registrations + routes.length⟩ := by
    intro routes
    induction routes with
    | nil => exact fun ix => rfl
    | cons r routes ih =>
      intro ix
      rw [List.foldl_cons, ih, List.length_cons, Nat.add_comm routes.length, ← Nat.add_assoc]
      rfl
  refine Prod.ext (ix.fst_enter id path) ?_
  cases path with
  | fromRoot steps =>
    rw [hfold, Path.filings, ← IndexNode.snd_enter id h.bounded_leadingRanges,
      ← IndexNode.fst_enter id steps ix.top]
    rfl
  | literal text => rfl
  | fromVariable name steps => rfl

end RouteIndex

/-! ### Starts of routes -/

namespace Route

variable {c c' : Fragment × Nat} {v way : List (Fragment × Nat)} {w words : Option WordRange}
  {t test : Option IndexedTest}

theorem prefix_at_place :
    segments ⟨[], w, t⟩ <+: segments ⟨[], words, test⟩ ↔
      (w = none ∧ t = none) ∨ w = words ∧ (t = none ∨ t = test) := by
  rw [← List.mem_inits]
  cases w <;> cases t <;> cases words <;> cases test <;> simp [segments]

theorem prefix_above_child :
    segments ⟨[], w, t⟩ <+: segments ⟨c :: way, words, test⟩ ↔ w = none ∧ t = none := by
  cases w <;> cases t <;> simp [segments, List.cons_prefix_cons]

theorem not_prefix_of_child : ¬segments ⟨c :: v, w, t⟩ <+: segments ⟨[], words, test⟩ := by
  cases words <;> cases test <;> simp [segments, List.cons_prefix_cons]

theorem prefix_below_child :
    segments ⟨c :: v, w, t⟩ <+: segments ⟨c' :: way, words, test⟩ ↔
      c = c' ∧ segments ⟨v, w, t⟩ <+: segments ⟨way, words, test⟩ := by
  simp [segments, List.cons_prefix_cons, Prod.ext_iff]

end Route

/-! ### Nodes of an index -/

namespace IndexNode

/-- The actions at the node that a way, some words and a test lead to, if there is one. -/
def node? (w : Option WordRange) (t : Option IndexedTest) :
    List (Fragment × Nat) → IndexNode → Option (List ActionId)
  | [], n => n.here.node? w t
  | (kind, index) :: way, n => (n.below.find? kind index).bind (node? w t way)

theorem ids_descend (w : Option WordRange) (t : Option IndexedTest) (way : List (Fragment × Nat))
    (n : IndexNode) : (n.descend way).here.ids w t = (n.node? w t way).getD [] := by
  induction way generalizing n with
  | nil => exact n.here.ids_eq w t
  | cons c way ih =>
    rw [descend, node?]
    cases n.below.find? c.1 c.2 with
    | none =>
      rw [Option.getD_none, descend_empty]
      exact PlaceNode.ids_empty w t
    | some m => exact ih m

/-- An index without nodes has the place itself only. -/
theorem segments_of_isSome_node?_empty {w : Option WordRange} {t : Option IndexedTest}
    {way : List (Fragment × Nat)} (h : (empty.node? w t way).isSome) :
    Route.segments ⟨way, w, t⟩ = [] := by
  cases way with
  | nil =>
    obtain ⟨rfl, rfl⟩ := (PlaceNode.isSome_node?_empty w t).mp h
    rfl
  | cons c way => cases h

/-- **Filing makes the nodes that the starts of a route lead to**, and no others. -/
theorem isSome_node?_insert (id : ActionId) (words w : Option WordRange)
    (test t : Option IndexedTest) (way v : List (Fragment × Nat)) (n : IndexNode) :
    ((insert id words test way n).node? w t v).isSome ↔
      (n.node? w t v).isSome ∨
        Route.segments ⟨v, w, t⟩ <+: Route.segments ⟨way, words, test⟩ := by
  induction way generalizing v n with
  | nil =>
    cases v with
    | nil =>
      have hself := n.here.isSome_node?_self (w := w) (t := t)
      show ((n.here.insert id words test).node? w t).isSome ↔ (n.here.node? w t).isSome ∨ _
      rw [PlaceNode.isSome_node?_insert, Route.prefix_at_place]
      tauto
    | cons c v => simp [node?, insert, file, Route.not_prefix_of_child]
  | cons c way ih =>
    cases v with
    | nil =>
      have hself := n.here.isSome_node?_self (w := w) (t := t)
      show (n.here.node? w t).isSome ↔ (n.here.node? w t).isSome ∨ _
      rw [Route.prefix_above_child]
      tauto
    | cons c' v =>
      obtain ⟨kind, index⟩ := c
      obtain ⟨k, i⟩ := c'
      rw [insert, node?, node?, RouteNodes.content_slot, RouteNodes.find?_put,
        Route.prefix_below_child]
      by_cases hc : k = kind ∧ i = index
      · obtain ⟨rfl, rfl⟩ := hc
        rw [if_pos ⟨rfl, rfl⟩, Option.bind_some, ih]
        cases n.below.find? k i with
        | none =>
          have hempty : (empty.node? w t v).isSome →
              Route.segments ⟨v, w, t⟩ <+: Route.segments ⟨way, words, test⟩ := fun h =>
            segments_of_isSome_node?_empty h ▸ List.nil_prefix
          simp only [Option.getD_none, Option.bind_none, Option.isSome_none, true_and]
          tauto
        | some m => simp
      · have hne : (k, i) ≠ (kind, index) := by simpa using hc
        simp [hc, hne]

end IndexNode

namespace RouteIndex

/-- The actions at the node that a route leads to, if there is one. -/
def node? (ix : RouteIndex) (r : Route) : Option (List ActionId) :=
  ix.top.node? r.words r.test r.children

theorem ids_eq (ix : RouteIndex) (r : Route) : ix.ids r = (ix.node? r).getD [] :=
  IndexNode.ids_descend r.words r.test r.children ix.top

theorem ids_of_node? {ix : RouteIndex} {r : Route} {ids : List ActionId}
    (h : ix.node? r = some ids) : ix.ids r = ids := by
  rw [ids_eq, h, Option.getD_some]

/-- The node above the root of the tree is always there. -/
theorem isSome_node?_top (ix : RouteIndex) {r : Route} (h : r.segments = []) :
    (ix.node? r).isSome := by
  obtain rfl : r = ⟨[], none, none⟩ := Route.segments_injective h
  rfl

theorem isSome_node?_empty (r : Route) : (empty.node? r).isSome ↔ r.segments = [] :=
  ⟨IndexNode.segments_of_isSome_node?_empty, isSome_node?_top empty⟩

/-- **Filing makes the nodes that the starts of a route lead to**, and no others. -/
theorem isSome_node?_insert (ix : RouteIndex) (id : ActionId) (route r : Route) :
    ((insert id ix route).node? r).isSome ↔
      (ix.node? r).isSome ∨ r.segments <+: route.segments :=
  IndexNode.isSome_node?_insert id route.words r.words route.test r.test route.children r.children
    ix.top

end RouteIndex

/-! ### The listing of all nodes -/

namespace RouteNodes

/-- All nodes, with the routes that lead to them. -/
def nodes : RouteNodes → List (Route × List ActionId)
  | nil => []
  | node kind index here below others =>
    let atPlace := here.nodes.map fun ((w, t), ids) => ((⟨[], w, t⟩ : Route), ids)
    (atPlace ++ nodes below).map (fun (r, ids) => (r.under (kind, index), ids)) ++ nodes others

/-- Whether no two nodes side by side or below are for the same route. -/
def Distinct : RouteNodes → Prop
  | nil => True
  | node kind index here below others =>
    others.find? kind index = none ∧ here.Distinct ∧ below.Distinct ∧ others.Distinct

/-- The actions at the node that a route leads to, if there is one; a route without a child
    leads to none. -/
def node? (ns : RouteNodes) (r : Route) : Option (List ActionId) :=
  if r.children = [] then none else IndexNode.node? r.words r.test r.children ⟨.empty, ns⟩

end RouteNodes

namespace IndexNode

/-- The nodes at a place and below it, with the routes that lead to them from the place. -/
def nodes (n : IndexNode) : List (Route × List ActionId) :=
  n.here.nodes.map (fun ((w, t), ids) => (⟨[], w, t⟩, ids)) ++ n.below.nodes

/-- Whether no two nodes at a place and below it are for the same route. -/
structure Distinct (n : IndexNode) : Prop where
  here : n.here.Distinct
  below : n.below.Distinct

theorem distinct_empty : empty.Distinct := ⟨PlaceNode.distinct_empty, trivial⟩

end IndexNode

namespace RouteNodes

/-- A node that is in order may be put in the place of a child. -/
theorem Distinct.put {ns : RouteNodes} (h : ns.Distinct) (kind : Fragment) (index : Nat)
    {n : IndexNode} (hn : n.Distinct) : ((ns.slot kind index).put n).Distinct := by
  induction ns with
  | nil => exact ⟨rfl, hn.here, hn.below, trivial⟩
  | node k i here below others _ ih =>
    obtain ⟨hnone, hhere, hbelow, hothers⟩ := h
    rw [slot]
    split
    · exact ⟨hnone, hn.here, hn.below, hothers⟩
    · next hne =>
      have hother : ¬(k = kind ∧ i = index) := hne
      refine ⟨?_, hhere, hbelow, ih hothers⟩
      rw [find?_put, if_neg hother, hnone]

theorem Distinct.of_find? {ns : RouteNodes} (h : ns.Distinct) {kind : Fragment} {index : Nat}
    {n : IndexNode} (hn : ns.find? kind index = some n) : n.Distinct := by
  induction ns with
  | nil => cases hn
  | node k i here below others _ ih =>
    obtain ⟨-, hhere, hbelow, hothers⟩ := h
    rw [find?] at hn
    split at hn
    · obtain rfl := Option.some.inj hn
      exact ⟨hhere, hbelow⟩
    · exact ih hothers hn

end RouteNodes

theorem IndexNode.Distinct.insert {n : IndexNode} (h : n.Distinct) (id : ActionId)
    (words : Option WordRange) (test : Option IndexedTest) (way : List (Fragment × Nat)) :
    (n.insert id words test way).Distinct := by
  induction way generalizing n with
  | nil => exact ⟨h.here.insert id words test, h.below⟩
  | cons c way ih =>
    refine ⟨h.here, h.below.put c.1 c.2 (ih ?_)⟩
    rw [RouteNodes.content_slot]
    cases hchild : n.below.find? c.1 c.2 with
    | none => exact distinct_empty
    | some m => exact h.below.of_find? hchild

namespace RouteNodes

theorem nodes_node (kind : Fragment) (index : Nat) (here : PlaceNode)
    (below others : RouteNodes) :
    (node kind index here below others).nodes =
      (IndexNode.nodes ⟨here, below⟩).map (fun (r, ids) => (r.under (kind, index), ids)) ++
        others.nodes := rfl

theorem children_ne_nil_of_node? {ns : RouteNodes} {r : Route} {ids : List ActionId}
    (h : ns.node? r = some ids) : r.children ≠ [] := by
  intro hnil
  rw [node?, if_pos hnil] at h
  cases h

theorem node?_under (kind k : Fragment) (index i : Nat) (here : PlaceNode)
    (below others : RouteNodes) (r : Route) :
    (node kind index here below others).node? (r.under (k, i)) =
      if kind = k ∧ index = i then IndexNode.node? r.words r.test r.children ⟨here, below⟩
      else others.node? (r.under (k, i)) := by
  by_cases h : kind = k ∧ index = i
  · simp [node?, Route.under, IndexNode.node?, find?, h]
  · simp [node?, Route.under, IndexNode.node?, find?, h]

theorem node?_under_eq_none {ns : RouteNodes} {k : Fragment} {i : Nat} (h : ns.find? k i = none)
    (r : Route) : ns.node? (r.under (k, i)) = none := by
  simp [node?, Route.under, IndexNode.node?, h]

theorem mem_map_under {c d : Fragment × Nat} {r : Route} {ids : List ActionId}
    {ns : List (Route × List ActionId)} :
    (r.under c, ids) ∈ ns.map (fun (r, ids) => (r.under d, ids)) ↔ c = d ∧ (r, ids) ∈ ns := by
  rw [List.mem_map]
  constructor
  · rintro ⟨⟨q, ids'⟩, hq, heq⟩
    obtain ⟨hroute, rfl⟩ := Prod.mk.inj heq
    have hchild : d = c := (List.cons.inj (congrArg Route.children hroute)).1
    subst hchild
    exact ⟨rfl, PathStep.under_injective d hroute ▸ hq⟩
  · rintro ⟨rfl, hr⟩
    exact ⟨(r, ids), hr, rfl⟩

end RouteNodes

theorem IndexNode.mem_nodes {n : IndexNode} (hhere : n.here.Distinct)
    (hbelow : ∀ r ids, (r, ids) ∈ n.below.nodes ↔ n.below.node? r = some ids)
    (r : Route) (ids : List ActionId) :
    (r, ids) ∈ n.nodes ↔ n.node? r.words r.test r.children = some ids := by
  obtain ⟨way, w, t⟩ := r
  rw [nodes, List.mem_append, List.mem_map, hbelow]
  cases way with
  | nil =>
    have hplace : n.node? w t [] = some ids ↔ ((w, t), ids) ∈ n.here.nodes :=
      (hhere.mem_nodes w t ids).symm
    simp [RouteNodes.node?, hplace]
  | cons c way => simp [RouteNodes.node?, node?]

theorem IndexNode.nodup_nodes {n : IndexNode} (hhere : n.here.Distinct)
    (hbelow : ∀ r ids, (r, ids) ∈ n.below.nodes → r.children ≠ [])
    (hnodup : (n.below.nodes.map (·.1)).Nodup) : (n.nodes.map (·.1)).Nodup := by
  have hplace := hhere.nodup_nodes.map (f := fun (w, t) => (⟨[], w, t⟩ : Route)) fun _ _ => by
    simp [Prod.ext_iff]
  rw [List.map_map] at hplace
  rw [nodes, List.map_append, List.map_map]
  refine List.Nodup.append hplace hnodup fun r hr hr' => ?_
  -- Below a place are no nodes of the place itself.
  obtain ⟨e, -, rfl⟩ := List.mem_map.mp hr
  obtain ⟨e', he', heq⟩ := List.mem_map.mp hr'
  exact hbelow e'.1 e'.2 he' (heq ▸ rfl)

namespace RouteNodes

/-- **The listing is the map**: it has the nodes that there are, with their actions. -/
theorem Distinct.mem_nodes {ns : RouteNodes} (h : ns.Distinct) (r : Route) (ids : List ActionId) :
    (r, ids) ∈ ns.nodes ↔ ns.node? r = some ids := by
  induction ns generalizing r ids with
  | nil =>
    obtain ⟨way, w, t⟩ := r
    cases way <;> simp [nodes, node?, IndexNode.node?, find?]
  | node k i here below others ihbelow ihothers =>
    obtain ⟨hnone, hhere, hbelow, hothers⟩ := h
    have hfirst := IndexNode.mem_nodes (n := ⟨here, below⟩) hhere (ihbelow hbelow)
    rw [nodes_node, List.mem_append, ihothers hothers]
    obtain ⟨way, w, t⟩ := r
    cases way with
    | nil => simp [node?, Route.under]
    | cons c way =>
      have hroute : (⟨c :: way, w, t⟩ : Route) = Route.under c ⟨way, w, t⟩ := rfl
      rw [hroute, mem_map_under, hfirst, node?_under]
      -- The node is below the first child, or the other children have it.
      by_cases hc : c = (k, i)
      · subst hc
        rw [node?_under_eq_none hnone]
        simp
      · have hne : ¬(k = c.1 ∧ i = c.2) := fun h => hc (Prod.ext h.1.symm h.2.symm)
        rw [if_neg hne]
        simp [hc]

theorem Distinct.children_ne_nil {ns : RouteNodes} (h : ns.Distinct) (r : Route)
    (ids : List ActionId) (hr : (r, ids) ∈ ns.nodes) : r.children ≠ [] :=
  children_ne_nil_of_node? ((h.mem_nodes r ids).mp hr)

theorem Distinct.nodup_nodes {ns : RouteNodes} (h : ns.Distinct) : (ns.nodes.map (·.1)).Nodup := by
  induction ns with
  | nil => exact List.nodup_nil
  | node k i here below others ihbelow ihothers =>
    obtain ⟨hnone, hhere, hbelow, hothers⟩ := h
    have hfirst := IndexNode.nodup_nodes (n := ⟨here, below⟩) hhere hbelow.children_ne_nil
      (ihbelow hbelow)
    have hunder := hfirst.map (PathStep.under_injective (k, i))
    rw [List.map_map] at hunder
    rw [nodes_node, List.map_append, List.map_map]
    refine List.Nodup.append hunder (ihothers hothers) fun r hr hr' => ?_
    obtain ⟨e, -, rfl⟩ := List.mem_map.mp hr
    obtain ⟨e', he', heq⟩ := List.mem_map.mp hr'
    have hnode := (hothers.mem_nodes _ _).mp he'
    rw [heq, Function.comp_apply, node?_under_eq_none hnone] at hnode
    cases hnode

theorem length_nodes (ns : RouteNodes) : ns.nodes.length = ns.nodeCount := by
  induction ns with
  | nil => rfl
  | node k i here below others ihbelow ihothers =>
    rw [nodes, nodeCount, List.length_append, List.length_map, List.length_append,
      List.length_map, PlaceNode.length_nodes, ihbelow, ihothers]

end RouteNodes

theorem PlaceNode.filed_eq (n : PlaceNode) :
    n.filed = (n.nodes.filter (!·.2.isEmpty)).map fun ((w, t), ids) => (w, t, ids) := by
  simp [filed, nodes, parts, List.filter_flatMap, List.map_flatMap, List.filter_map,
    Function.comp_def]

theorem RouteNodes.filedBelow_eq (ns : RouteNodes) (above : List (Fragment × Nat)) :
    filedBelow above ns = (ns.nodes.filter (!·.2.isEmpty)).map fun (r, ids) =>
      ((⟨above ++ r.children, r.words, r.test⟩ : Route), ids) := by
  induction ns generalizing above with
  | nil => rfl
  | node k i here below others ihbelow ihothers =>
    simp [filedBelow, nodes, ihbelow, ihothers, here.filed_eq, List.filter_map, Function.comp_def,
      Route.under]

namespace RouteIndex

/-- All nodes other than that above the root of the tree, with the routes that lead to them. -/
def nodes (ix : RouteIndex) : List (Route × List ActionId) := ix.top.nodes.tail

/-- Whether no two nodes of an index are for the same route. -/
def Distinct (ix : RouteIndex) : Prop := ix.top.Distinct

theorem nodes_top (ix : RouteIndex) :
    ix.top.nodes = (⟨[], none, none⟩, ix.top.here.plain.actions) :: ix.nodes := rfl

theorem Distinct.insert {ix : RouteIndex} (h : ix.Distinct) (id : ActionId) (route : Route) :
    (RouteIndex.insert id ix route).Distinct :=
  IndexNode.Distinct.insert h id route.words route.test route.children

theorem Distinct.mem_nodes_top {ix : RouteIndex} (h : ix.Distinct) (r : Route)
    (ids : List ActionId) : (r, ids) ∈ ix.top.nodes ↔ ix.node? r = some ids :=
  IndexNode.mem_nodes h.here h.below.mem_nodes r ids

theorem Distinct.nodup_nodes_top {ix : RouteIndex} (h : ix.Distinct) :
    (ix.top.nodes.map (·.1)).Nodup :=
  IndexNode.nodup_nodes h.here h.below.children_ne_nil h.below.nodup_nodes

/-- **The listing is the map**: it has the nodes that there are, with their actions. -/
theorem Distinct.mem_nodes {ix : RouteIndex} (h : ix.Distinct) (r : Route) (ids : List ActionId) :
    (r, ids) ∈ ix.nodes ↔ r.segments ≠ [] ∧ ix.node? r = some ids := by
  have hnodup := h.nodup_nodes_top
  rw [nodes_top, List.map_cons, List.nodup_cons] at hnodup
  rw [← h.mem_nodes_top, nodes_top, List.mem_cons]
  have htop : (r, ids) ∈ ix.nodes → r.segments ≠ [] := by
    intro hr hnil
    obtain rfl : r = ⟨[], none, none⟩ := Route.segments_injective hnil
    exact hnodup.1 (List.mem_map.mpr ⟨_, hr, rfl⟩)
  constructor
  · exact fun hr => ⟨htop hr, .inr hr⟩
  · rintro ⟨hne, heq | hr⟩
    · obtain ⟨rfl, -⟩ := Prod.mk.inj heq
      exact absurd rfl hne
    · exact hr

theorem Distinct.nodup_nodes {ix : RouteIndex} (h : ix.Distinct) : (ix.nodes.map (·.1)).Nodup :=
  h.nodup_nodes_top.of_cons

theorem length_nodes (ix : RouteIndex) : ix.nodes.length = ix.nodeCount := by
  rw [nodes, List.length_tail, IndexNode.nodes, List.length_append, List.length_map,
    PlaceNode.length_nodes, RouteNodes.length_nodes, nodeCount]
  omega

/-- The listing of what is filed has the nodes with actions. -/
theorem filed_eq (ix : RouteIndex) : ix.filed = ix.top.nodes.filter (!·.2.isEmpty) := by
  have hbelow : RouteNodes.filedBelow [] ix.top.below =
      ix.top.below.nodes.filter (!·.2.isEmpty) :=
    (RouteNodes.filedBelow_eq _ _).trans (List.map_id _)
  rw [filed, hbelow, IndexNode.nodes, List.filter_append, PlaceNode.filed_eq, List.map_map,
    List.filter_map]
  rfl

end RouteIndex

end AgentRules
