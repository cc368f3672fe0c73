/-
  The written forms of routes identify nodes.

  Each segment shows in its written form where it ends: a kind before the first character
  that is no part of a name, a number before its bracket, a word range before its bracket,
  and a text in quotes before the last of them. What comes behind a segment is another one,
  and these start with signs. So segments in a row can be told from their written form, whatever
  the literals in them are (`Segment.renderAll_inj`), and no two nodes of an index are written
  alike. Therefore the listing of an index is in strictly ascending order, and no other order of
  what it lists is ascending (`RouteIndex.enterAll_keys`).
-/
import AgentRules.Proofs.Grammar
import AgentRules.Proofs.Quoted
import AgentRules.Proofs.Sharing
import AgentRules.Proofs.Writing

namespace AgentRules

open Text

theorem Fragment.ofLabel?_label (kind : Fragment) : ofLabel? kind.label = some kind := by
  cases kind <;> rfl

/-! ### Segments -/

namespace Segment

/-- Whether a word range, if the segment is one, has a written form. -/
def Writable : Segment → Prop
  | child _ _ | test _ => True
  | words range => range.Parseable

theorem render_child (kind : Fragment) (index : Nat) : (child kind index).render.toList =
    '.' :: '(' :: (Nat.toDigits 10 index ++ ')' :: kind.label.toList) := by
  have hopen : (toString ".(").toList = ['.', '('] := rfl
  have hclose : (toString ")").toList = [')'] := rfl
  have hindex : (toString index).toList = Nat.toDigits 10 index := Nat.toList_repr
  have hlabel : (toString kind.label).toList = kind.label.toList := rfl
  simp only [render, String.toList_append, hopen, hclose, hindex, hlabel]
  simp

theorem render_words (range : WordRange) :
    (words range).render.toList = '[' :: (range.render.toList ++ [']']) := by
  have hopen : (toString "[").toList = ['['] := rfl
  have hclose : (toString "]").toList = [']'] := rfl
  have hrange : (toString range.render).toList = range.render.toList := rfl
  simp only [render, String.toList_append, hopen, hclose, hrange]
  simp

theorem render_equals (text : String) :
    (test (.equals text)).render.toList = '=' :: quote text.toList := by
  have hsign : (toString "=").toList = ['='] := rfl
  have htext : (toString (quoted text)).toList = quote text.toList := String.toList_ofList
  simp only [render, IndexedTest.render, String.toList_append, hsign, htext]
  simp

theorem render_startsWith (text : String) :
    (test (.startsWith text)).render.toList = '\x7b' :: quote text.toList := by
  have hsign : (toString "\x7b").toList = ['\x7b'] := rfl
  have htext : (toString (quoted text)).toList = quote text.toList := String.toList_ofList
  simp only [render, IndexedTest.render, String.toList_append, hsign, htext]
  simp

/-- A segment is written with a sign in front, and no name goes on with it. -/
theorem render_eq_cons (s : Segment) :
    ∃ c cs, s.render.toList = c :: cs ∧ isNameChar c = false := by
  rcases s with ⟨kind, index⟩ | range | (text | text)
  · exact ⟨_, _, render_child kind index, by decide⟩
  · exact ⟨_, _, render_words range, by decide⟩
  · exact ⟨_, _, render_equals text, by decide⟩
  · exact ⟨_, _, render_startsWith text, by decide⟩

/-- Kinds in front of what does not go on with a name are told apart. -/
theorem label_append_inj {k l : Fragment} {x y : List Char} (hx : Breaks x) (hy : Breaks y)
    (h : k.label.toList ++ x = l.label.toList ++ y) : k = l ∧ x = y := by
  have hread := Reading.name_append (Reading.isName_label k) hx
  rw [h, Reading.name_append (Reading.isName_label l) hy] at hread
  obtain ⟨hlabel, hrest⟩ := Prod.mk.inj (Except.ok.inj hread)
  have hkind := Fragment.ofLabel?_label k
  rw [← hlabel, Fragment.ofLabel?_label l] at hkind
  exact ⟨(Option.some.inj hkind).symm, hrest.symm⟩

/-- **A segment shows where it ends.** -/
theorem render_append_inj {s t : Segment} (hs : s.Writable) (ht : t.Writable) {x y : List Char}
    (hx : Breaks x) (hy : Breaks y) (h : s.render.toList ++ x = t.render.toList ++ y) :
    s = t ∧ x = y := by
  rcases s with ⟨k, i⟩ | r | (a | a) <;> rcases t with ⟨l, j⟩ | r' | (b | b) <;>
    simp only [render_child, render_words, render_equals, render_startsWith, List.cons_append,
      List.cons.injEq, List.append_assoc, Char.reduceEq, false_and, true_and] at h
  · -- The digits end at the bracket behind them.
    have hdigits : ∀ n, ')' ∉ Nat.toDigits 10 n := fun n => (Numeral.toDigits n).notMem (by decide)
    obtain ⟨hindex, hrest⟩ := append_mark_inj (hdigits i) (hdigits j) h
    obtain ⟨rfl, hxy⟩ := label_append_inj hx hy hrest
    exact ⟨toDigits_injective hindex ▸ rfl, hxy⟩
  · have hrange : r.Parseable := hs
    have hrange' : r'.Parseable := ht
    obtain ⟨htext, hxy⟩ := append_mark_inj hrange.bracket_notMem hrange'.bracket_notMem h
    exact ⟨hrange.render_inj hrange' htext ▸ rfl, hxy⟩
  · obtain ⟨htext, hxy⟩ := quote_append_inj h
    exact ⟨String.toList_inj.mp htext ▸ rfl, hxy⟩
  · obtain ⟨htext, hxy⟩ := quote_append_inj h
    exact ⟨String.toList_inj.mp htext ▸ rfl, hxy⟩

/-- No name goes on with segments in a row. -/
theorem breaks_flatMap (segs : List Segment) : Breaks (segs.flatMap (·.render.toList)) := by
  cases segs with
  | nil => exact fun c hc => nomatch hc
  | cons s segs =>
    obtain ⟨c, cs, hrender, hc⟩ := s.render_eq_cons
    intro d hd
    rw [List.flatMap_cons, hrender] at hd
    obtain rfl : c = d := Option.some.inj hd
    exact hc

theorem flatMap_render_inj {segs segs' : List Segment} (h : ∀ s ∈ segs, s.Writable)
    (h' : ∀ s ∈ segs', s.Writable)
    (heq : segs.flatMap (·.render.toList) = segs'.flatMap (·.render.toList)) : segs = segs' := by
  induction segs generalizing segs' with
  | nil =>
    cases segs' with
    | nil => rfl
    | cons s segs' =>
      obtain ⟨c, cs, hrender, -⟩ := s.render_eq_cons
      rw [List.flatMap_cons, hrender] at heq
      cases heq
  | cons s segs ih =>
    cases segs' with
    | nil =>
      obtain ⟨c, cs, hrender, -⟩ := s.render_eq_cons
      rw [List.flatMap_cons, hrender] at heq
      cases heq
    | cons t segs' =>
      obtain ⟨hs, hsegs⟩ := List.forall_mem_cons.mp h
      obtain ⟨ht, hsegs'⟩ := List.forall_mem_cons.mp h'
      rw [List.flatMap_cons, List.flatMap_cons] at heq
      obtain ⟨rfl, hrest⟩ :=
        render_append_inj hs ht (breaks_flatMap segs) (breaks_flatMap segs') heq
      rw [ih hsegs hsegs' hrest]

/-- **The written form of segments in a row tells them.** The index of the root is not written,
    so it has to be the same. -/
theorem renderAll_inj {k l : Fragment} {i : Nat} {segs segs' : List Segment}
    (h : ∀ s ∈ segs, s.Writable) (h' : ∀ s ∈ segs', s.Writable)
    (heq : renderAll (.child k i :: segs) = renderAll (.child l i :: segs')) :
    Segment.child k i :: segs = .child l i :: segs' := by
  have hchars := congrArg String.toList heq
  rw [renderAll, renderAll, String.toList_append, String.toList_append, String.toList_join,
    String.toList_join, List.flatMap_map, List.flatMap_map] at hchars
  obtain ⟨rfl, hrest⟩ := label_append_inj (breaks_flatMap segs) (breaks_flatMap segs') hchars
  rw [flatMap_render_inj h h' hrest]

theorem Rooted.renderAll_inj {segs segs' : List Segment} (h : Rooted segs) (h' : Rooted segs')
    (heq : renderAll segs = renderAll segs') : segs = segs' := by
  have hwritable : ∀ rest : List Segment, (∀ range, .words range ∈ rest → range.Parseable) →
      ∀ s ∈ rest, s.Writable := by
    intro rest hrest s hs
    cases s with
    | child k i => trivial
    | test t => trivial
    | words range => exact hrest range hs
  obtain ⟨rest, rfl, hrest⟩ := h
  obtain ⟨rest', rfl, hrest'⟩ := h'
  exact Segment.renderAll_inj (hwritable rest hrest) (hwritable rest' hrest') heq

end Segment

/-! ### Keys of an index -/

namespace RouteIndex

variable {entries : List (ActionId × Path)}

/-- The written form of a node's route. -/
def keys (ix : RouteIndex) : List String := ix.nodes.map (·.1.render)

theorem rooted_of_mem_expansions (h : ∀ e ∈ entries, e.2.WellFormed) {segs : List Segment}
    (hsegs : segs ∈ expansions entries) : Segment.Rooted segs := by
  obtain ⟨e, he, hmem⟩ := List.mem_flatMap.mp hsegs
  obtain ⟨q, hq, rfl⟩ := Path.mem_expansions.mp hmem
  exact (h e he).rooted hq

theorem rooted_of_mem_nodes (h : ∀ e ∈ entries, e.2.WellFormed) {n : Route × List ActionId}
    (hn : n ∈ (registerAll entries).nodes) : Segment.Rooted n.1.segments := by
  obtain ⟨full, hfull, hstart⟩ :=
    List.mem_flatMap.mp ((mem_nodes_registerAll h n.1 n.2).mp hn).1
  obtain ⟨hne, hprefix⟩ := mem_starts.mp hstart
  exact (rooted_of_mem_expansions h hfull).of_start hprefix hne

/-- Routes from the root are written differently if their segments differ. -/
theorem nodup_render {ns : List (Route × List ActionId)}
    (hrooted : ∀ n ∈ ns, Segment.Rooted n.1.segments) (hnodup : (ns.map (·.1.segments)).Nodup) :
    (ns.map (·.1.render)).Nodup := by
  refine List.pairwise_map.mpr ((List.pairwise_map.mp hnodup).imp_of_mem ?_)
  intro m n hm hn hne heq
  rw [Route.render_eq, Route.render_eq] at heq
  exact hne ((hrooted m hm).renderAll_inj (hrooted n hn) heq)

/-- **No two nodes are written alike.** -/
theorem nodup_keys (h : ∀ e ∈ entries, e.2.WellFormed) : (registerAll entries).keys.Nodup :=
  nodup_render (fun _ hn => rooted_of_mem_nodes h hn) (nodup_segments_nodes h)

theorem key_ne_variable (h : ∀ e ∈ entries, e.2.WellFormed) {key : String}
    (hkey : key ∈ (registerAll entries).keys) (name : String) :
    key ≠ (Origin.ofVariable name).render := by
  obtain ⟨n, hn, rfl⟩ := List.mem_map.mp hkey
  obtain ⟨rest, hrest, -⟩ := rooted_of_mem_nodes h hn
  rw [Route.render_eq, hrest]
  -- One starts with the letter of the root, the other with the mark of variables.
  intro heq
  have hchars := congrArg (fun s => s.toList.head?) heq
  have hroot : (Segment.renderAll (.child .agent 0 :: rest)).toList.head? = some 'a' := by
    rw [Segment.renderAll, String.toList_append]
    rfl
  have hvariable : (Origin.ofVariable name).render.toList.head? = some '@' := by
    rw [Origin.render, String.toList_append]
    rfl
  simp only [hroot, hvariable] at hchars
  exact absurd hchars (by decide)

theorem nodup_listing (h : ∀ e ∈ entries, e.2.WellFormed) :
    ((registerAll entries).listing.map (·.1)).Nodup := by
  rw [listing, List.map_map]
  refine nodup_render (fun n hn => ?_) (nodup_segments_filed h)
  exact rooted_of_mem_expansions h ((mem_filed_registerAll h n.1 n.2).mp hn).1

theorem ordered_filedRoutes (ix : RouteIndex) :
    ix.filedRoutes.Pairwise fun p q => p.1 ≤ q.1 := by
  have hle : ∀ p q : String × List ActionId, (!decide (q.1 < p.1)) = true ↔ p.1 ≤ q.1 := by
    intro p q
    rw [Bool.not_eq_true', decide_eq_false_iff_not, String.not_lt]
  have hsorted : ix.filedRoutes.Pairwise fun p q => (!decide (q.1 < p.1)) = true := by
    refine List.pairwise_mergeSort (fun p q r hpq hqr => ?_) (fun p q => ?_) _
    · rw [hle] at hpq hqr ⊢
      exact String.le_trans hpq hqr
    · rw [Bool.or_eq_true, hle, hle]
      exact String.le_total p.1 q.1
  exact hsorted.imp fun {p q} => (hle p q).mp

/-- **The listing is in strictly ascending order.** -/
theorem strict_filedRoutes (h : ∀ e ∈ entries, e.2.WellFormed) :
    (registerAll entries).filedRoutes.Pairwise fun p q => p.1 < q.1 := by
  have hkeys := ((filedRoutes_perm (registerAll entries)).map (·.1)).nodup_iff.mpr (nodup_listing h)
  have hdifferent : (registerAll entries).filedRoutes.Pairwise fun p q => p.1 ≠ q.1 :=
    List.pairwise_map.mp hkeys
  exact ((ordered_filedRoutes _).and hdifferent).imp fun {p q} hpq =>
    Std.lt_of_le_of_ne hpq.1 hpq.2

/-- **Only one order of what is listed is ascending**, wherever the listing started from. -/
theorem eq_filedRoutes (h : ∀ e ∈ entries, e.2.WellFormed) {listed : List (String × List ActionId)}
    (hperm : listed.Perm (registerAll entries).listing)
    (hordered : listed.Pairwise fun p q => p.1 ≤ q.1) :
    listed = (registerAll entries).filedRoutes := by
  refine List.Perm.eq_of_pairwise (fun p q hp hq hpq hqp => ?_) hordered (ordered_filedRoutes _)
    (hperm.trans (filedRoutes_perm _).symm)
  have hp : p ∈ (registerAll entries).listing := hperm.mem_iff.mp hp
  have hq : q ∈ (registerAll entries).listing := (filedRoutes_perm _).mem_iff.mp hq
  exact List.inj_on_of_nodup_map (nodup_listing h) hp hq (String.le_antisymm hpq hqp)

/-- **The written forms of routes are keys.** Segments in a row can be told from their written
    form, whatever the literals in them are. So the nodes of an index have different keys, none
    of which is that of a variable. The listing is strictly ascending, and it is what any order
    of the filings comes to when it is sorted. -/
theorem enterAll_keys {entries : List (ActionId × Expression)}
    (hread : ∀ e ∈ entries, Expression.parse e.2.text = .ok e.2) :
    let index := (enterAll entries).2
    (∀ (kind kind' : Fragment) (i : Nat) (segs segs' : List Segment),
        (∀ s ∈ segs, s.Writable) → (∀ s ∈ segs', s.Writable) →
          Segment.renderAll (.child kind i :: segs) = Segment.renderAll (.child kind' i :: segs') →
            Segment.child kind i :: segs = .child kind' i :: segs') ∧
      index.keys.length = index.nodeCount ∧
      index.keys.Nodup ∧
      (∀ key ∈ index.keys, ∀ name, key ≠ (Origin.ofVariable name).render) ∧
      (index.filedRoutes.Pairwise fun p q => p.1 < q.1) ∧
      ∀ listed : List (String × List ActionId), listed.Perm index.listing →
        (listed.Pairwise fun p q => p.1 ≤ q.1) → listed = index.filedRoutes := by
  have hpaths := wellFormed_paths hread
  rw [enterAll_eq]
  refine ⟨fun _ _ _ _ _ h h' => Segment.renderAll_inj h h', ?_, nodup_keys hpaths,
    fun key hkey name => key_ne_variable hpaths hkey name, strict_filedRoutes hpaths,
    fun listed hperm hordered => eq_filedRoutes hpaths hperm hordered⟩
  rw [keys, List.length_map, length_nodes]

/-- Two literals, one of them a double quote, and two products. -/
def quotedLiterals : List (ActionId × Expression) :=
  [(0, ⟨"agent=\"a\"", ⟨[], .fromRoot [.down .agent (.single 0), .test .equals "a"]⟩⟩),
    (1, ⟨"agent.(0-1)product", ⟨[], .fromRoot
      [.down .agent (.single 0), .down .product ⟨0, 1⟩]⟩⟩),
    (2, ⟨"agent=\"\\\"\"", ⟨[], .fromRoot [.down .agent (.single 0), .test .equals "\""]⟩⟩)]

theorem enterAll_keys_on_quotedLiterals :
    (∀ e ∈ quotedLiterals, Expression.parse e.2.text = .ok e.2) ∧
      (enterAll quotedLiterals).2.filedRoutes =
        [("agent.(0)product", [1]), ("agent.(1)product", [1]), ("agent=\"\\\"\"", [2]),
          ("agent=\"a\"", [0])] := by
  have hread : ∀ e ∈ quotedLiterals, Expression.parse e.2.text = .ok e.2 := by decide +kernel
  obtain ⟨-, -, -, -, -, hsorted⟩ := enterAll_keys hread
  refine ⟨hread, (hsorted _ ?_ ?_).symm⟩
  · decide +kernel
  · decide +kernel

end RouteIndex

end AgentRules
