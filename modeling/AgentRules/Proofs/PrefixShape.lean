/-
  The shape of a prefix tree.

  A tree has no node without use: a node that has no value has two children or more, apart from
  the root. Splitting an edge makes a node without a value and with one child, but in the same
  step it gets either the value or the second child. So every call keeps the shape
  (`Edges.branching_alter`).

  In such a tree every point leads to a key (`Edges.exists_key`), and a point without a value to
  keys that go on differently (`Edges.exists_other`). So the label of an edge is the longest start
  that all keys behind it share, and the keys with their values decide on all labels: two trees
  that find the same values are equal (`Edges.eq_of_get?`).

  What is filled node by node is the same tree (`toNode_alter`), which brings both statements to
  the nodes (`shape_canonical`).
-/
import AgentRules.PrefixTree.Node
import AgentRules.Proofs.FiniteMap

namespace AgentRules

namespace Edges

variable {α : Type}

/-! ### Nodes with a use -/

/-- The number of edges out of a point. -/
def width : Edges α → Nat
  | nil => 0
  | cons _ _ _ _ others => others.width + 1

/-- Whether each node has a value or leads two ways. -/
def Branching : Edges α → Prop
  | nil => True
  | cons _ _ value below others =>
    (value = none → 2 ≤ below.width) ∧ Branching below ∧ Branching others

theorem width_fork (c : Char) (cs : List Char) (value : Option α) (below : Edges α) (k : Char)
    (ks : List Char) (new : α) : (fork c cs value below k ks new).width = 2 := by
  unfold fork
  split <;> rfl

theorem branching_fork {c k : Char} {cs ks : List Char} {value : Option α} {below : Edges α}
    {new : α} (hvalue : value = none → 2 ≤ below.width) (hbelow : Branching below) :
    Branching (fork c cs value below k ks new) := by
  have hnew : some new = none → 2 ≤ (nil : Edges α).width := nofun
  unfold fork
  split
  · exact ⟨hnew, trivial, hvalue, hbelow, trivial⟩
  · exact ⟨hvalue, hbelow, hnew, trivial, trivial⟩

/-- No edge is lost. -/
theorem width_le_width_alter (f : Option α → α) (e : Edges α) (k : Char) (ks : List Char) :
    e.width ≤ (e.alter f k ks).width := by
  induction e with
  | nil => exact Nat.zero_le _
  | cons c cs value below others _ iho =>
    rw [alter_cons]
    split
    · split <;> exact Nat.le_refl _
    · split
      · exact Nat.le_succ _
      · exact Nat.succ_le_succ iho

/-- **Altering a value leaves no node without use.** -/
theorem branching_alter (f : Option α → α) {e : Edges α} (h : Branching e) (k : Char)
    (ks : List Char) : Branching (e.alter f k ks) := by
  have hnew : ∀ (v : α) (below : Edges α), some v = none → 2 ≤ below.width := nofun
  induction e generalizing k ks with
  | nil => exact ⟨hnew _ _, trivial, trivial⟩
  | cons c cs value below others ihb iho =>
    obtain ⟨hvalue, hb, ho⟩ := h
    rw [alter_cons]
    split
    · split
      · exact ⟨hnew _ _, hb, ho⟩
      · rename_i r rs _
        have hwidth : below.width ≤ (below.alter f r rs).width := width_le_width_alter f below r rs
        exact ⟨fun hnone => Nat.le_trans (hvalue hnone) hwidth, ihb hb r rs, ho⟩
      · -- The node that is put into the edge gets the value.
        exact ⟨hnew _ _, ⟨hvalue, hb, trivial⟩, ho⟩
      · -- The node that is put into the edge gets a second child.
        exact ⟨fun _ => Nat.le_of_eq (width_fork ..).symm, branching_fork hvalue hb, ho⟩
    · split
      · exact ⟨hnew _ _, trivial, hvalue, hb, ho⟩
      · exact ⟨hvalue, hb, iho ho k ks⟩

/-! ### Keys behind a point -/

/-- A key along the first edge. -/
theorem get?_cons_append (c : Char) (cs : List Char) (value : Option α) (below others : Edges α)
    (rest : List Char) :
    (cons c cs value below others).get? c (cs ++ rest) = point value below rest := by
  rw [get?_cons, if_pos rfl, isPrefixOf?_append_self]
  rfl

/-- Where each node has a use, every edge leads to a key. -/
theorem exists_key {c : Char} {cs : List Char} {value : Option α} {below others : Edges α}
    (h : Branching (cons c cs value below others)) :
    ∃ rest, (point value below rest).isSome := by
  -- By induction on what is below: a node without a value has an edge, which leads to a key.
  induction below generalizing c cs value others with
  | nil =>
    obtain ⟨hvalue, -, -⟩ := h
    cases value with
    | some v => exact ⟨[], rfl⟩
    | none => exact absurd (hvalue rfl) (by simp [width])
  | cons d ds value' below' others' ihb _ =>
    obtain ⟨-, hbelow, -⟩ := h
    obtain ⟨rest, hrest⟩ := ihb hbelow
    refine ⟨d :: (ds ++ rest), ?_⟩
    rwa [point, get?_cons_append]

/-- Where two edges go out of a point, some key goes on with another character than a given
    one. -/
theorem exists_other {e : Edges α} (ho : Ordered e) (hb : Branching e) (hw : 2 ≤ e.width)
    (t : Char) : ∃ k ks, k ≠ t ∧ (e.get? k ks).isSome := by
  rcases e with _ | ⟨c, cs, value, below, _ | ⟨d, ds, value', below', others⟩⟩
  · exact absurd hw (by simp [width])
  · exact absurd hw (by simp [width])
  obtain ⟨⟨hcd, -⟩, -, -⟩ := ho
  by_cases hct : c = t
  · obtain ⟨rest, hrest⟩ := exists_key hb.2.2
    have hdc : d ≠ c := (Char.ne_of_lt hcd).symm
    refine ⟨d, ds ++ rest, hct ▸ hdc, ?_⟩
    rwa [get?_cons, if_neg hdc, get?_cons_append]
  · obtain ⟨rest, hrest⟩ := exists_key hb
    refine ⟨c, cs ++ rest, hct, ?_⟩
    rwa [get?_cons_append]

/-- **A label is the longest start that all keys behind it share.** -/
theorem prefix_of_keys {c : Char} {cs p : List Char} {value : Option α} {below others : Edges α}
    (ho : Ordered below) (hb : Branching (cons c cs value below others))
    (hkeys : ∀ rest, (point value below rest).isSome → p <+: cs ++ rest) : p <+: cs := by
  obtain ⟨rest, hrest⟩ := exists_key hb
  rcases List.prefix_or_prefix_of_prefix (hkeys rest hrest) (List.prefix_append cs rest)
    with hp | ⟨_ | ⟨t, ts⟩, rfl⟩
  · exact hp
  · rw [List.append_nil]
  · -- What all keys share goes on beyond the label.
    cases value with
    | some v =>
      have hshort := hkeys [] rfl
      rwa [List.append_nil] at hshort
    | none =>
      obtain ⟨k, ks, hkt, hk⟩ := exists_other ho hb.2.1 (hb.1 rfl) t
      have hlong : t :: ts <+: k :: ks := (List.prefix_append_right_inj cs).mp (hkeys (k :: ks) hk)
      exact absurd (List.cons_prefix_cons.mp hlong).1.symm hkt

/-! ### Equal trees -/

/-- The first edge is that of the least key. -/
theorem first_le_of_get? {c k : Char} {cs ks : List Char} {value : Option α}
    {below others : Edges α} (h : Ordered (cons c cs value below others))
    (hk : ((cons c cs value below others).get? k ks).isSome) : c ≤ k := by
  rw [get?_cons] at hk
  by_cases hkc : k = c
  · exact hkc ▸ Char.le_refl _
  · rw [if_neg hkc] at hk
    obtain ⟨v, hv⟩ := Option.isSome_iff_exists.mp hk
    exact Char.not_lt.mp (Char.lt_asymm (lt_of_get?_eq_some h.1 hv))

/-- Where the same is found behind two labels, the one whose nodes have a use is not shorter. -/
theorem label_prefix {c : Char} {cs cs' : List Char} {value : Option α} {below others : Edges α}
    {found : List Char → Option α} (ho : Ordered below)
    (hb : Branching (cons c cs value below others))
    (h : ∀ qs, (cs.isPrefixOf? qs).bind (point value below) = (cs'.isPrefixOf? qs).bind found) :
    cs' <+: cs := by
  refine prefix_of_keys ho hb fun rest hrest => ?_
  have hsame := h (cs ++ rest)
  rw [isPrefixOf?_append_self, Option.bind_some] at hsame
  rw [hsame] at hrest
  obtain ⟨v, hv⟩ := Option.isSome_iff_exists.mp hrest
  obtain ⟨rest', hrest', -⟩ := Option.bind_eq_some_iff.mp hv
  exact ⟨rest', List.isPrefixOf?_eq_some_iff_append_eq.mp hrest'⟩

/-- **Edges whose nodes have a use are told apart by what they find.** -/
theorem eq_of_get? {e e' : Edges α} (ho : Ordered e) (hb : Branching e) (ho' : Ordered e')
    (hb' : Branching e') (h : ∀ k ks, e.get? k ks = e'.get? k ks) : e = e' := by
  -- By induction on one of the trees. The keys make the first characters of both the same, then
  -- the labels behind them, and only then what is found below them can be compared.
  induction e generalizing e' with
  | nil =>
    cases e' with
    | nil => rfl
    | cons c' cs' value' below' others' =>
      obtain ⟨rest, hrest⟩ := exists_key hb'
      rw [← get?_cons_append c' cs' value' below' others', ← h, get?_nil] at hrest
      exact absurd hrest Bool.false_ne_true
  | cons c cs value below others ihb iho =>
    obtain ⟨rest, hrest⟩ := exists_key hb
    rw [← get?_cons_append c cs value below others, h] at hrest
    cases e' with
    | nil =>
      rw [get?_nil] at hrest
      exact absurd hrest Bool.false_ne_true
    | cons c' cs' value' below' others' =>
      obtain ⟨rest', hrest'⟩ := exists_key hb'
      rw [← get?_cons_append c' cs' value' below' others', ← h] at hrest'
      obtain rfl : c = c' :=
        Char.le_antisymm (first_le_of_get? ho hrest') (first_le_of_get? ho' hrest)
      have hbehind : ∀ qs, (cs.isPrefixOf? qs).bind (point value below) =
          (cs'.isPrefixOf? qs).bind (point value' below') := by
        intro qs
        have hqs := h c qs
        rwa [get?_cons, get?_cons, if_pos rfl, if_pos rfl] at hqs
      have hshort : cs' <+: cs := label_prefix ho.2.1 hb hbehind
      have hlong : cs <+: cs' := label_prefix ho'.2.1 hb' fun qs => (hbehind qs).symm
      obtain rfl : cs = cs' := hlong.eq_of_length_le hshort.length_le
      have hpoint : ∀ rest, point value below rest = point value' below' rest := by
        intro rest
        have hrest := hbehind (cs ++ rest)
        rwa [isPrefixOf?_append_self] at hrest
      have hvalue : value = value' := hpoint []
      have hbelow : below = below' :=
        ihb ho.2.1 hb.2.1 ho'.2.1 hb'.2.1 fun k ks => hpoint (k :: ks)
      -- The other edges lead to no key that starts like the first.
      have hothers : others = others' := by
        refine iho ho.2.2 hb.2.2 ho'.2.2 hb'.2.2 fun k ks => ?_
        by_cases hk : k = c
        · rw [hk, get?_of_above ks ho.1, get?_of_above ks ho'.1]
        · have hks := h k ks
          rwa [get?_cons, get?_cons, if_neg hk, if_neg hk] at hks
      rw [hvalue, hbelow, hothers]

end Edges

/-! ### Node by node -/

namespace PrefixNode

variable {α : Type}

/-- Nothing is kept under a character that comes before those of all children. -/
theorem lookup_toNodes_of_above {k : Char} {e : Edges α} (h : e.Above k) :
    e.toNodes.lookup k = none := by
  induction e with
  | nil => rfl
  | cons c cs value below others _ iho =>
    obtain ⟨hc, ho⟩ := h
    have hne : (k == c) = false := beq_false_of_ne (Char.ne_of_lt hc)
    rw [Edges.toNodes, List.lookup_cons, hne, iho ho]

/-- A child that is kept under an earlier character stays as it is. -/
theorem fill_cons_of_lt (f : Option α → α) {c k : Char} (hlt : c < k) (ks label : List Char)
    (value : Option α) (n : PrefixNode α) (others : List (Char × PrefixNode α)) :
    (mk label value ((c, n) :: others)).fill f (k :: ks) =
      mk label value ((c, n) :: ((mk label value others).fill f (k :: ks)).children) := by
  have hne : k ≠ c := (Char.ne_of_lt hlt).symm
  have hput : ∀ m : PrefixNode α,
      putChild k m ((c, n) :: others) = (c, n) :: putChild k m others := by
    intro m
    rw [putChild, if_neg hne, if_neg (Char.lt_asymm hlt)]
  have hlookup : ((c, n) :: others).lookup k = others.lookup k := by
    rw [List.lookup_cons, beq_false_of_ne hne]
  cases hchild : others.lookup k with
  | none =>
    rw [fill_of_none (hlookup.trans hchild), fill_of_none hchild, settle, settle, withChild,
      withChild]
    exact congrArg (mk label value) (hput _)
  | some child =>
    rw [fill_of_some (hlookup.trans hchild), fill_of_some hchild, withChild, withChild]
    exact congrArg (mk label value) (hput _)

/-- A fork is a child that is kept beside another. -/
theorem toNodes_fork {c k : Char} (hne : k ≠ c) (cs : List Char) (value : Option α)
    (below : Edges α) (ks : List Char) (new : α) :
    (Edges.fork c cs value below k ks new).toNodes =
      putChild k (mk (k :: ks) (some new) []) [(c, mk (c :: cs) value below.toNodes)] := by
  rw [Edges.fork, putChild, if_neg hne]
  split <;> rfl

/-- Filling along an edge, where filling below it is altering what is below. -/
theorem fill_along (f : Option α → α) (k : Char) (cs : List Char) (value' : Option α)
    {below : Edges α} (others : Edges α)
    (hbelow : ∀ label value r rs, (mk label value below.toNodes).fill f (r :: rs) =
      mk label value (below.alter f r rs).toNodes)
    (label : List Char) (value : Option α) (ks : List Char) :
    (mk label value (Edges.cons k cs value' below others).toNodes).fill f (k :: ks) =
      mk label value ((Edges.cons k cs value' below others).alter f k ks).toNodes := by
  have hchild : (mk label value (Edges.cons k cs value' below others).toNodes).children.lookup k =
      some (mk (k :: cs) value' below.toNodes) := by
    rw [Edges.toNodes, children, List.lookup_cons, beq_self_eq_true]
  have hput : ∀ n : PrefixNode α,
      (mk label value (Edges.cons k cs value' below others).toNodes).withChild k n =
        mk label value ((k, n) :: others.toNodes) := by
    intro n
    rw [withChild, Edges.toNodes, children, putChild, if_pos rfl]
    rfl
  have hsplit : splitCommon (mk (k :: cs) value' below.toNodes).label (k :: ks) =
      (k :: (splitCommon cs ks).1, (splitCommon cs ks).2) := by
    rw [PrefixNode.label, splitCommon, if_pos rfl]
  rw [fill_of_some hchild, hput, hsplit, Edges.alter_cons, if_pos rfl]
  -- The key ends with the label, goes on below, ends within the label, or parts from it.
  rcases hs : splitCommon cs ks with ⟨start, _ | ⟨t, ts⟩, _ | ⟨r, rs⟩⟩ <;> rw [hs] at hsplit
  · dsimp only
    rw [fill]
    rfl
  · dsimp only
    rw [hbelow]
    rfl
  · dsimp only
    rw [fill_cut f hsplit]
    rfl
  · dsimp only
    rw [fill_cut f hsplit, Edges.toNodes, toNodes_fork (Edges.splitCommon_ne cs ks hs)]
    rfl

/-- **Filling the nodes is altering the edges.** -/
theorem fill_toNodes (f : Option α → α) {e : Edges α} (h : e.Ordered) (label : List Char)
    (value : Option α) (k : Char) (ks : List Char) :
    (mk label value e.toNodes).fill f (k :: ks) = mk label value (e.alter f k ks).toNodes := by
  -- The character is that of the first child, comes before it, or belongs among the others.
  induction e generalizing label value k ks with
  | nil => rw [fill_of_none rfl]; rfl
  | cons c cs value' below others ihb iho =>
    obtain ⟨ha, hb, ho⟩ := h
    by_cases hk : k = c
    · subst hk
      exact fill_along f k cs value' others (ihb hb) label value ks
    · rw [Edges.toNodes, Edges.alter_cons, if_neg hk]
      by_cases hlt : k < c
      · have habove : (Edges.cons c cs value' below others).Above k := ⟨hlt, ha.mono hlt⟩
        have hnone := lookup_toNodes_of_above habove
        rw [Edges.toNodes] at hnone
        rw [if_pos hlt, fill_of_none hnone, settle, withChild, children, putChild, if_neg hk,
          if_pos hlt]
        rfl
      · rw [if_neg hlt, fill_cons_of_lt f (Edges.lt_of_ne_of_not_lt hk hlt), iho ho]
        rfl

/-- Children are kept in the order of their characters, each once. -/
theorem pairwise_toNodes {e : Edges α} (h : e.Ordered) :
    (e.toNodes.map (·.1)).Pairwise (· < ·) := by
  have hlater : ∀ {c : Char} {e : Edges α}, e.Above c → ∀ k ∈ e.toNodes.map (·.1), c < k := by
    intro c e hc
    induction e with
    | nil => exact fun k hk => absurd hk List.not_mem_nil
    | cons d ds value below others _ iho =>
      rw [Edges.toNodes, List.map_cons, List.forall_mem_cons]
      exact ⟨hc.1, iho hc.2⟩
  induction e with
  | nil => exact .nil
  | cons c cs value below others _ iho =>
    rw [Edges.toNodes, List.map_cons]
    exact .cons (hlater h.1) (iho h.2.2)

theorem length_toNodes (e : Edges α) : e.toNodes.length = e.width := by
  induction e with
  | nil => rfl
  | cons c cs value below others _ iho => rw [Edges.toNodes, List.length_cons, iho, Edges.width]

/-- What holds of a node below a root: it is kept under the first character of its label, and it
    has a value or leads two ways. -/
structure InShape (k : Char) (n : PrefixNode α) : Prop where
  first : n.label.head? = some k
  use : n.value = none → 2 ≤ n.children.length
  ordered : (n.children.map (·.1)).Pairwise (· < ·)

/-- A child is in shape, and so are the edges that go on from it. -/
theorem inShape_of_mem_toNodes {e : Edges α} (ho : e.Ordered) (hb : e.Branching) {k : Char}
    {n : PrefixNode α} (hn : (k, n) ∈ e.toNodes) :
    InShape k n ∧ ∃ label value below, n = mk label value (Edges.toNodes below) ∧
      below.Ordered ∧ below.Branching := by
  induction e with
  | nil => exact absurd hn List.not_mem_nil
  | cons c cs value below others _ iho =>
    rw [Edges.toNodes] at hn
    rcases List.mem_cons.mp hn with hn | hn
    · obtain ⟨rfl, rfl⟩ := Prod.mk.inj hn
      refine ⟨⟨rfl, fun hvalue => ?_, pairwise_toNodes ho.2.1⟩,
        _, _, _, rfl, ho.2.1, hb.2.1⟩
      rw [children, length_toNodes]
      exact hb.1 hvalue
    · exact iho ho.2.2 hb.2.2 hn

/-- **All nodes below a root are in shape.** -/
theorem inShape_of_below {e : Edges α} (ho : e.Ordered) (hb : e.Branching) {label : List Char}
    {value : Option α} {k : Char} {n : PrefixNode α}
    (h : (mk label value e.toNodes).Below k n) : InShape k n := by
  generalize htop : mk label value e.toNodes = top at h
  induction h generalizing e label value with
  | child hn =>
    subst htop
    exact (inShape_of_mem_toNodes ho hb hn).1
  | deeper hp _ ih =>
    subst htop
    obtain ⟨-, label', value', below, rfl, ho', hb'⟩ := inShape_of_mem_toNodes ho hb hp
    exact ih ho' hb' rfl

end PrefixNode

/-! ### Trees -/

theorem Edges.toNodes_injective {α : Type} : Function.Injective (toNodes (α := α)) := by
  intro e
  induction e with
  | nil =>
    intro e' h
    cases e' with
    | nil => rfl
    | cons => exact absurd h (by simp [toNodes])
  | cons c cs value below others ihb iho =>
    intro e' h
    cases e' with
    | nil => exact absurd h (by simp [toNodes])
    | cons c' cs' value' below' others' =>
      simp only [toNodes, List.cons.injEq, Prod.mk.injEq, PrefixNode.mk.injEq] at h
      obtain ⟨⟨rfl, ⟨-, rfl⟩, rfl, hbelow⟩, hothers⟩ := h
      rw [ihb hbelow, iho hothers]

/-- A call on the root of a tree. -/
def MapCall.onNode {α : Type} (n : PrefixNode α) : MapCall α → PrefixNode α
  | insert key value => n.fill (fun _ => value) key
  | insertNew key value => n.fill (fun old => old.getD value) key

namespace PrefixTree

variable {α : Type}

theorem toNode_injective : Function.Injective (toNode (α := α)) := by
  rintro ⟨value, edges, size, ho, rfl⟩ ⟨value', edges', size', ho', rfl⟩ h
  simp only [toNode, PrefixNode.mk.injEq, true_and] at h
  obtain ⟨rfl, hedges⟩ := h
  obtain rfl : edges = edges' := Edges.toNodes_injective hedges
  rfl

/-- **A tree that is filled node by node is the same tree.** -/
theorem toNode_alter (f : Option α → α) (t : PrefixTree α) (key : List Char) :
    (t.alter f key).toNode = t.toNode.fill f key := by
  cases key with
  | nil =>
    rw [PrefixNode.fill]
    rfl
  | cons k ks => exact (PrefixNode.fill_toNodes f t.ordered [] t.value k ks).symm

theorem foldl_onNode (calls : List (MapCall α)) (t : PrefixTree α) :
    calls.foldl MapCall.onNode t.toNode = (callAll MapCall.onTree t calls).2.toNode := by
  induction calls generalizing t with
  | nil => rfl
  | cons c calls ih =>
    have hcall : c.onNode t.toNode = (c.onTree t).2.toNode := by
      cases c with
      | insert key value => exact (toNode_alter _ t key).symm
      | insertNew key value => exact (toNode_alter _ t key).symm
    rw [List.foldl_cons, show MapCall.onNode t.toNode c = _ from hcall, ih]
    rfl

theorem branching_alter (f : Option α → α) {t : PrefixTree α} (h : t.edges.Branching)
    (key : List Char) : (t.alter f key).edges.Branching := by
  cases key with
  | nil => exact h
  | cons k ks => exact Edges.branching_alter f h k ks

/-- **Calls leave no node without use.** -/
theorem branching_callAll (calls : List (MapCall α)) {t : PrefixTree α}
    (h : t.edges.Branching) : (callAll MapCall.onTree t calls).2.edges.Branching := by
  induction calls generalizing t with
  | nil => exact h
  | cons c calls ih =>
    refine ih ?_
    cases c with
    | insert key value => exact branching_alter (fun _ => value) h key
    | insertNew key value => exact branching_alter (fun old => old.getD value) h key

/-- Trees whose nodes have a use are told apart by what they find. -/
theorem eq_of_get? {t t' : PrefixTree α} (hb : t.edges.Branching) (hb' : t'.edges.Branching)
    (h : ∀ key, t.get? key = t'.get? key) : t = t' := by
  obtain ⟨value, edges, size, ho, rfl⟩ := t
  obtain ⟨value', edges', size', ho', rfl⟩ := t'
  obtain rfl : value = value' := h []
  obtain rfl : edges = edges' := Edges.eq_of_get? ho hb ho' hb' fun k ks => h (k :: ks)
  rfl

/-- **The shape of a tree depends on its keys and values alone.** After any calls on an empty
    tree, its nodes are those of the prefix tree that the calls make. The label of the root is
    empty. Every node below it is kept under the first character of its label, and has at least
    two children unless it has a value; no node keeps two children under one character. And two
    rows of calls make the same nodes exactly when a plain map ends up the same after them. -/
theorem shape_canonical (calls : List (MapCall α)) :
    let n := calls.foldl MapCall.onNode .root
    n = (callAll MapCall.onTree empty calls).2.toNode ∧
      n.label = [] ∧
      (∀ k m, n.Below k m →
        m.label.head? = some k ∧ (m.value = none → 2 ≤ m.children.length)) ∧
      (∀ m, m = n ∨ (∃ k, n.Below k m) → (m.children.map (·.1)).Pairwise (· < ·)) ∧
      ∀ calls' : List (MapCall α),
        (callAll MapCall.onMap (∅ : Finmap fun _ : List Char => α) calls).2 =
            (callAll MapCall.onMap ∅ calls').2 ↔
          n = calls'.foldl MapCall.onNode .root := by
  have hnodes : ∀ calls : List (MapCall α), calls.foldl MapCall.onNode .root =
      (callAll MapCall.onTree empty calls).2.toNode := fun calls => foldl_onNode calls empty
  have hbranching : ∀ calls : List (MapCall α),
      (callAll MapCall.onTree (empty : PrefixTree α) calls).2.edges.Branching := fun calls =>
    branching_callAll calls trivial
  have hempty : (empty : PrefixTree α).Represents ∅ := fun key => by
    rw [get?_empty, Finmap.lookup_empty]
  intro n
  rw [show n = _ from hnodes calls]
  have hordered := (callAll MapCall.onTree (empty : PrefixTree α) calls).2.ordered
  refine ⟨rfl, rfl, fun k m hm => ?_, fun m hm => ?_, fun calls' => ?_⟩
  · have hshape := PrefixNode.inShape_of_below hordered (hbranching calls) hm
    exact ⟨hshape.first, hshape.use⟩
  · rcases hm with rfl | ⟨k, hm⟩
    · exact PrefixNode.pairwise_toNodes hordered
    · exact (PrefixNode.inShape_of_below hordered (hbranching calls) hm).ordered
  · obtain ⟨-, hmap⟩ := hempty.callAll calls
    obtain ⟨-, hmap'⟩ := hempty.callAll calls'
    rw [hnodes calls', toNode_injective.eq_iff]
    constructor
    · intro hsame
      refine eq_of_get? (hbranching calls) (hbranching calls') fun key => ?_
      rw [hmap key, hmap' key, hsame]
    · intro hsame
      refine Finmap.ext_lookup fun key => ?_
      rw [← hmap key, ← hmap' key, hsame]

end PrefixTree

end AgentRules
