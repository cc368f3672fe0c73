/-
  The cursor over a text.

  Where a cursor stands is told by what remains of the text behind it (`Remains`). A reader at a
  cursor answers as a reader of the remaining characters does when it gives the same, leaves the
  cursor where the same characters remain, and reports the same faults at the offsets where the
  text that a fault carries remains (`Answers`). Such a reader never stops for any other reason.
  Readers in a row answer as the readers that they answer as do in a row (`Answers.bind`), so
  each reader is compared once and by its parts.

  Here this is shown for the loop and for the smallest parts. A loop goes on only when its round
  has left less of the text, which is the same as to say that its cursor has moved on
  (`Remains.lt`).
-/
import AgentRules.Expr.Cursor
import AgentRules.Proofs.Lexeme

namespace AgentRules

namespace Text

/-! ### Offsets in bytes -/

theorem byteLength_eq_zero_iff {cs : List Char} : byteLength cs = 0 ↔ cs = [] := by
  cases cs with
  | nil => simp
  | cons c cs =>
    have hpos := c.utf8Size_pos
    simp only [byteLength_cons, reduceCtorEq, iff_false]
    omega

theorem splitBytes_append (front back : List Char) :
    splitBytes (byteLength front) (front ++ back) = some (front, back) := by
  induction front with
  | nil => simp [splitBytes]
  | cons c cs ih =>
    obtain ⟨n, hn⟩ : ∃ n, byteLength (c :: cs) = n + 1 := by
      have hpos := c.utf8Size_pos
      exact ⟨byteLength (c :: cs) - 1, by rw [byteLength_cons]; omega⟩
    have hrest : n + 1 - c.utf8Size = byteLength cs := by
      rw [byteLength_cons] at hn
      omega
    have hle : c.utf8Size ≤ n + 1 := by
      rw [byteLength_cons] at hn
      omega
    rw [hn, List.cons_append, splitBytes, if_pos hle, hrest, ih]
    rfl

/-- A text is split at the offsets in bytes of its characters, and nowhere else. -/
theorem splitBytes_eq_some_iff {n : Nat} {cs front back : List Char} :
    splitBytes n cs = some (front, back) ↔ front ++ back = cs ∧ byteLength front = n := by
  constructor
  · intro h
    fun_induction splitBytes n cs generalizing front back with
    | case1 cs =>
      cases h
      exact ⟨rfl, rfl⟩
    | case2 => cases h
    | case3 n c cs hle ih =>
      obtain ⟨⟨front', back'⟩, hsplit, heq⟩ := Option.map_eq_some_iff.mp h
      cases heq
      obtain ⟨rfl, hlength⟩ := ih hsplit
      refine ⟨rfl, ?_⟩
      rw [byteLength_cons]
      omega
    | case4 => cases h
  · rintro ⟨rfl, rfl⟩
    exact splitBytes_append front back

example : splitBytes 1 ['é', 'x'] = none := by decide

/-- From an offset on, these characters of the text remain. -/
def Remains (text : List Char) (pos : Nat) (rest : List Char) : Prop :=
  ∃ front, front ++ rest = text ∧ byteLength front = pos

namespace Remains

variable {text part rest rest' : List Char} {pos pos' : Nat}

theorem start (text : List Char) : Remains text 0 text := ⟨[], rfl, rfl⟩

/-- What has been read is behind the cursor. -/
theorem advance (h : Remains text pos (part ++ rest)) :
    Remains text (pos + byteLength part) rest := by
  obtain ⟨front, htext, hpos⟩ := h
  exact ⟨front ++ part, by rw [List.append_assoc, htext], by rw [byteLength_append, hpos]⟩

theorem add_eq (h : Remains text pos rest) : pos + byteLength rest = byteLength text := by
  obtain ⟨front, htext, hpos⟩ := h
  rw [← hpos, ← byteLength_append, htext]

theorem le (h : Remains text pos rest) : pos ≤ byteLength text := by
  have hadd := h.add_eq
  omega

/-- An offset is the larger the less remains. -/
theorem lt (h : Remains text pos rest) (h' : Remains text pos' rest')
    (hlength : rest'.length < rest.length) : pos < pos' := by
  have hadd := h.add_eq
  have hadd' := h'.add_eq
  obtain ⟨front, htext, -⟩ := h
  obtain ⟨front', htext', -⟩ := h'
  obtain ⟨part, hpart⟩ : rest' <:+ rest :=
    List.suffix_of_suffix_length_le ⟨front', htext'⟩ ⟨front, htext⟩ (Nat.le_of_lt hlength)
  have hne : byteLength part ≠ 0 := by
    rw [Ne, byteLength_eq_zero_iff]
    rintro rfl
    rw [← hpart] at hlength
    exact Nat.lt_irrefl _ hlength
  rw [← hpart, byteLength_append] at hadd
  omega

/-- **Characters remain only from the start of one of them on**, or from the end of the text. -/
theorem isValid {s : String} (h : Remains s.toList pos rest) : String.Pos.Raw.IsValid s ⟨pos⟩ := by
  obtain ⟨front, htext, hpos⟩ := h
  refine String.Pos.Raw.isValid_iff_exists_append.mpr ⟨.ofList front, .ofList rest, ?_, ?_⟩
  · rw [← String.ofList_append, htext, String.ofList_toList]
  · rw [← hpos, ← String.toList_ofList (l := front), byteLength_toList, String.toList_ofList]
    rfl

end Remains

end Text

open Text

/-! ### Cursors -/

/-- A cursor that has only moved forward, and has always stood where a character starts or the
    text ends. -/
structure Cursor.Safe (text : List Char) (c : Cursor) : Prop where
  forward : c.visited.Pairwise (· ≥ ·)
  remains : ∀ pos ∈ c.visited, ∃ rest, Remains text pos rest

/-- A cursor with these characters of the text behind it, and a number of terms that have not
    ended. -/
structure Stands (text : List Char) (depth : Nat) (c : Cursor) (cs : List Char) : Prop where
  safe : c.Safe text
  remains : Remains text c.pos cs
  depth_eq : c.depth = depth

namespace Stands

variable {text part cs : List Char} {depth : Nat} {c : Cursor}

theorem start (text : List Char) : Stands text 0 .start text where
  safe := {
    forward := List.pairwise_singleton _ _
    remains := by simpa [Cursor.visited, Cursor.start] using ⟨text, Remains.start text⟩ }
  remains := .start text
  depth_eq := rfl

/-- **A cursor stays safe** when it is moved behind what has been read. -/
theorem moveTo (h : Stands text depth c (part ++ cs)) :
    Stands text depth (c.moveTo (c.pos + byteLength part)) cs where
  safe := {
    forward := by
      refine List.pairwise_cons.mpr ⟨fun pos hpos => ?_, h.safe.forward⟩
      obtain rfl | hpast := List.mem_cons.mp hpos
      · exact Nat.le_add_right ..
      · exact Nat.le_add_right_of_le ((List.pairwise_cons.mp h.safe.forward).1 pos hpast)
    remains := List.forall_mem_cons.mpr ⟨⟨cs, h.remains.advance⟩, h.safe.remains⟩ }
  remains := h.remains.advance
  depth_eq := h.depth_eq

theorem next {x : Char} (h : Stands text depth c (x :: cs)) :
    Stands text depth (c.moveTo (c.pos + x.utf8Size)) cs := by
  have hread : Stands text depth c ([x] ++ cs) := h
  exact hread.moveTo

/-- A cursor has moved by the bytes of what has been read. -/
theorem pos_eq {depth' : Nat} {c' : Cursor} (h : Stands text depth c (part ++ cs))
    (h' : Stands text depth' c' cs) : c'.pos = c.pos + byteLength part := by
  have hadd := h.remains.advance.add_eq
  have hadd' := h'.remains.add_eq
  omega

/-- The number of open terms is no matter of where a cursor stands. -/
theorem withDepth (h : Stands text depth c cs) (depth' : Nat) :
    Stands text depth' { c with depth := depth' } cs :=
  ⟨⟨h.safe.forward, h.safe.remains⟩, h.remains, rfl⟩

end Stands

/-! ### Answers -/

/-- What a reader at a cursor answers, compared with the answer of a reader of the remaining
    characters. Both give the same, as `R` says, and leave the same text, as `P` says; or both
    report the same fault at the same place. -/
inductive Answers {α β : Type} (text : List Char) (P : Cursor → List Char → Prop)
    (R : α → β → Prop) : EStateM.Result Stop Cursor α → Reading (β × List Char) → Prop
  | ok {a : α} {b : β} {c : Cursor} {rest : List Char} (hab : R a b) (hrest : P c rest) :
    Answers text P R (.ok a c) (.ok (b, rest))
  | error {f : ReadFault} {offset : Nat} {c : Cursor} {rest : List Char} (hsafe : c.Safe text)
      (hplace : Remains text offset rest) :
    Answers text P R (.error (.refused (.fault f offset)) c) (.error ⟨f, rest⟩)

section

variable {text : List Char} {α β γ δ : Type} {P Q : Cursor → List Char → Prop}
  {R : α → β → Prop} {S : γ → δ → Prop}

/-- **Readers in a row.** -/
theorem Answers.bind {m : CursorReader α} {f : α → CursorReader γ} {c : Cursor}
    {x : Reading (β × List Char)} {g : β × List Char → Reading (δ × List Char)}
    (hm : Answers text P R (m c) x)
    (hf : ∀ a b c' rest, R a b → P c' rest → Answers text Q S (f a c') (g (b, rest))) :
    Answers text Q S ((m >>= f) c) (x >>= g) := by
  change Answers text Q S (EStateM.bind m f c) (x >>= g)
  unfold EStateM.bind
  generalize m c = r at hm
  cases hm with
  | ok hab hrest => exact hf _ _ _ _ hab hrest
  | error hsafe hplace => exact .error hsafe hplace

theorem Answers.imp {r : EStateM.Result Stop Cursor α} {x : Reading (β × List Char)}
    (h : Answers text P R r x) (hPQ : ∀ c rest, P c rest → Q c rest) : Answers text Q R r x := by
  cases h with
  | ok hab hrest => exact .ok hab (hPQ _ _ hrest)
  | error hsafe hplace => exact .error hsafe hplace

theorem Answers.of_ok {r : EStateM.Result Stop Cursor α} {b : β} {rest : List Char}
    (h : Answers text P R r (.ok (b, rest))) : ∃ a c, r = .ok a c ∧ R a b ∧ P c rest := by
  cases h with
  | ok hab hrest => exact ⟨_, _, rfl, hab, hrest⟩

theorem Answers.of_error {r : EStateM.Result Stop Cursor α} {f : ReadFault} {rest : List Char}
    (h : Answers text P R r (.error ⟨f, rest⟩)) :
    ∃ offset c, r = .error (.refused (.fault f offset)) c ∧ c.Safe text ∧
      Remains text offset rest := by
  cases h with
  | error hsafe hplace => exact ⟨_, _, rfl, hsafe, hplace⟩

end

namespace CursorReader

variable {text part cs rest : List Char} {depth : Nat} {c c' : Cursor} {α β : Type}
  {P : Cursor → List Char → Prop} {R : α → β → Prop}

theorem head?_ne {x : Char} (h : ∀ rest, cs = x :: rest → False) : cs.head? ≠ some x := by
  intro hhead
  obtain ⟨rest, rfl⟩ := List.head?_eq_some_iff.mp hhead
  exact h rest rfl

/-- A reader that succeeds is followed by the next from where it leaves the cursor. -/
theorem bind_eq {m : CursorReader α} {a : α} (h : m c = .ok a c') (f : α → CursorReader β) :
    (m >>= f) c = f a c' := by
  change EStateM.bind m f c = _
  rw [EStateM.bind, h]

theorem bind_error {m : CursorReader α} {e : Stop} (h : m c = .error e c')
    (f : α → CursorReader β) : (m >>= f) c = .error e c' := by
  change EStateM.bind m f c = _
  rw [EStateM.bind, h]

theorem here_eq (c : Cursor) : here c = .ok c.pos c := rfl

theorem depth_eq (c : Cursor) : CursorReader.depth c = .ok c.depth c := rfl

theorem enter_eq (c : Cursor) : enter c = .ok () { c with depth := c.depth + 1 } := rfl

theorem leave_eq (c : Cursor) : leave c = .ok () { c with depth := c.depth - 1 } := rfl

/-! ### Slices -/

theorem slice_eq {start : Nat} (h : Remains text start (part ++ rest)) :
    slice text start (start + byteLength part) c = .ok part c := by
  obtain ⟨front, htext, rfl⟩ := h
  rw [← List.append_assoc] at htext
  have hstop := splitBytes_eq_some_iff.mpr ⟨htext, rfl⟩
  have hstart := splitBytes_append front part
  rw [slice, ← byteLength_append, hstop]
  dsimp only
  rw [hstart]
  rfl

theorem remaining_eq (h : Stands text depth c cs) : remaining text c = .ok cs c := by
  have hall : Remains text c.pos (cs ++ []) := by
    rw [List.append_nil]
    exact h.remains
  have hslice := slice_eq (c := c) hall
  rw [h.remains.add_eq] at hslice
  exact hslice

theorem peek_eq (h : Stands text depth c cs) : peek text c = .ok cs.head? c := by
  rw [peek, bind_eq (remaining_eq h)]
  rfl

theorem bump_nil (h : Stands text depth c []) : bump text c = .ok none c := by
  rw [bump, bind_eq (peek_eq h)]
  rfl

theorem bump_cons {x : Char} (h : Stands text depth c (x :: cs)) :
    bump text c = .ok (some x) (c.moveTo (c.pos + x.utf8Size)) := by
  rw [bump, bind_eq (peek_eq h)]
  rfl

/-- A character that has been looked at is read before anything else. -/
theorem bump_bind {x : Char} {f : Option Char → CursorReader α} {y : Reading (β × List Char)}
    (h : Stands text depth c (x :: cs))
    (hf : Answers text P R (f (some x) (c.moveTo (c.pos + x.utf8Size))) y) :
    Answers text P R ((bump text >>= f) c) y := by
  rwa [bind_eq (bump_cons h)]

/-! ### The loop -/

section

variable {round : CursorReader (Option α)}

theorem loop_done (h : round c = .ok none c') : loop text round c = .ok [] c' := by
  rw [loop, h]

theorem loop_error {e : Stop} (h : round c = .error e c') : loop text round c = .error e c' := by
  rw [loop, h]

/-- **A loop goes on** after a round that leaves less of the text. -/
theorem loop_again {a : α} (h : round c = .ok (some a) c') (hcs : Stands text depth c cs)
    (hrest : Stands text depth c' rest) (hlength : rest.length < cs.length) :
    loop text round c = (do return a :: (← loop text round) : CursorReader (List α)) c' := by
  rw [loop, h]
  dsimp only
  rw [if_pos ⟨hcs.remains.lt hrest.remains hlength, hrest.remains.le⟩]
  change _ = EStateM.bind _ _ c'
  unfold EStateM.bind
  cases loop text round c' <;> rfl

end

/-! ### The smallest parts -/

theorem skipOne_cons {p : Char → Bool} {x : Char} (h : Stands text depth c (x :: cs)) (hx : p x) :
    skipOne text p c = .ok (some ()) (c.moveTo (c.pos + x.utf8Size)) := by
  rw [skipOne, bind_eq (peek_eq h)]
  simp only [List.head?_cons, Option.any_some, hx, if_true]
  rw [bind_eq (bump_cons h)]
  rfl

theorem skipOne_stop {p : Char → Bool} (h : Stands text depth c cs)
    (hstop : cs.head?.any p = false) : skipOne text p c = .ok none c := by
  rw [skipOne, bind_eq (peek_eq h), hstop]
  rfl

theorem loop_skipOne (p : Char → Bool) (h : Stands text depth c cs) :
    ∃ us c', loop text (skipOne text p) c = .ok us c' ∧
      Stands text depth c' (cs.dropWhile p) := by
  induction cs generalizing c with
  | nil => exact ⟨[], c, loop_done (skipOne_stop h rfl), h⟩
  | cons x cs ih =>
    cases hx : p x with
    | false =>
      rw [List.dropWhile_cons_of_neg (by rw [hx]; exact Bool.false_ne_true)]
      exact ⟨[], c, loop_done (skipOne_stop h hx), h⟩
    | true =>
      obtain ⟨us, c', hloop, hc'⟩ := ih h.next
      refine ⟨() :: us, c', ?_, by rwa [List.dropWhile_cons_of_pos hx]⟩
      rw [loop_again (skipOne_cons h hx) h h.next (Nat.lt_succ_self _), bind_eq hloop]
      rfl

theorem skipWhile_stands (p : Char → Bool) (h : Stands text depth c cs) :
    ∃ c', skipWhile text p c = .ok () c' ∧ Stands text depth c' (cs.dropWhile p) := by
  obtain ⟨us, c', hloop, hc'⟩ := loop_skipOne p h
  refine ⟨c', ?_, hc'⟩
  rw [skipWhile, bind_eq hloop]
  rfl

theorem skipBlanks_bind {f : Unit → CursorReader α} {y : Reading (β × List Char)}
    (h : Stands text depth c cs)
    (hf : ∀ c', Stands text depth c' (Text.skipBlanks cs) → Answers text P R (f () c') y) :
    Answers text P R ((skipBlanks text >>= f) c) y := by
  obtain ⟨c', hskip, hc'⟩ := skipWhile_stands isBlank h
  rw [skipBlanks, bind_eq hskip]
  exact hf c' hc'

theorem eat_cons {x : Char} (h : Stands text depth c (x :: cs)) :
    eat text x c = .ok true (c.moveTo (c.pos + x.utf8Size)) := by
  rw [eat, bind_eq (peek_eq h), if_pos (List.head?_cons ..), bind_eq (bump_cons h)]
  rfl

theorem eat_ne {x : Char} (h : Stands text depth c cs) (hx : cs.head? ≠ some x) :
    eat text x c = .ok false c := by
  rw [eat, bind_eq (peek_eq h), if_neg hx]
  rfl

theorem sign_ne {x : Char} (h : Stands text depth c cs) (hx : cs.head? ≠ some x) :
    sign text x c = .error (.refused (.fault (.expected x) c.pos)) c := by
  rw [sign, bind_eq (eat_ne h hx)]
  rfl

theorem sign_cons {x : Char} (h : Stands text depth c (x :: cs)) :
    sign text x c = .ok () (c.moveTo (c.pos + x.utf8Size)) := by
  rw [sign, bind_eq (eat_cons h)]
  rfl

/-- One given character is read at a cursor as it is read from what remains. -/
theorem sign_bind {x : Char} {f : Unit → CursorReader α} {g : List Char → Reading (β × List Char)}
    (h : Stands text depth c cs)
    (hf : ∀ c' rest, Stands text depth c' rest → Answers text P R (f () c') (g rest)) :
    Answers text P R ((sign text x >>= f) c) (Reading.sign x cs >>= g) := by
  cases cs with
  | nil =>
    rw [bind_error (sign_ne h (by simp))]
    exact .error h.safe h.remains
  | cons y cs =>
    rw [Reading.sign]
    by_cases hy : y = x
    · subst hy
      rw [if_pos rfl, bind_eq (sign_cons h)]
      exact hf _ _ h.next
    · rw [if_neg hy, bind_error (sign_ne h (by simpa using hy))]
      exact .error h.safe h.remains

theorem name_answers (h : Stands text depth c cs) :
    Answers text (Stands text depth) Eq (name text c) (Reading.name cs) := by
  obtain ⟨c', hskip, hc'⟩ := skipWhile_stands isNameChar h
  have hword : Stands text depth c (cs.takeWhile isNameChar ++ cs.dropWhile isNameChar) := by
    rwa [List.takeWhile_append_dropWhile]
  have hpos := hword.pos_eq hc'
  rw [name, bind_eq (here_eq c), bind_eq hskip, bind_eq (here_eq c')]
  unfold Reading.name
  cases htake : cs.takeWhile isNameChar with
  | nil =>
    rw [htake, byteLength_nil, Nat.add_zero] at hpos
    rw [if_pos hpos]
    exact .error hc'.safe (hpos ▸ h.remains)
  | cons x word =>
    rw [htake] at hpos hword
    have hne : c'.pos ≠ c.pos := by
      have hx := x.utf8Size_pos
      rw [hpos, byteLength_cons]
      omega
    rw [if_neg hne, bind_eq (here_eq c'), hpos, bind_eq (slice_eq hword.remains)]
    exact .ok rfl hc'

/-! ### Literals -/

/-- The quotes of a literal are where its token ends, and the escapes between them are undone
    there too. -/
theorem unquote_eq {body t : List Char} (h : Reading.literalBody body = some (t, rest)) :
    ∃ token, '"' :: body = token ++ rest ∧ unquote token = t := by
  have hbody : ∃ inner, body = inner ++ '"' :: rest ∧ undoEscapes inner = t := by
    fun_induction Reading.literalBody body generalizing t rest with
    | case1 => cases h
    | case2 cs =>
      cases h
      exact ⟨[], rfl, rfl⟩
    | case3 x cs ih =>
      obtain ⟨⟨t', rest'⟩, ht, heq⟩ := Option.map_eq_some_iff.mp h
      cases heq
      obtain ⟨inner, rfl, rfl⟩ := ih ht
      exact ⟨'\\' :: x :: inner, rfl, by rw [undoEscapes]⟩
    | case4 x cs hquote hescape ih =>
      obtain ⟨⟨t', rest'⟩, ht, heq⟩ := Option.map_eq_some_iff.mp h
      cases heq
      obtain ⟨inner, rfl, rfl⟩ := ih ht
      -- Something stands behind this character, so it starts no escape.
      have hx : x ≠ '\\' := by
        rintro rfl
        cases inner with
        | nil => exact hescape _ _ rfl rfl
        | cons y inner => exact hescape _ _ rfl rfl
      exact ⟨x :: inner, rfl, undoEscapes.eq_3 _ _ fun _ _ h _ => hx h⟩
  obtain ⟨inner, rfl, rfl⟩ := hbody
  refine ⟨'"' :: (inner ++ ['"']), by simp, ?_⟩
  simp [unquote, insideQuotes?]

theorem literalChar_other {start : Nat} {x : Char} (h : Stands text depth c (x :: cs))
    (hquote : x ≠ '"') (hescape : ∀ y rest, x = '\\' → cs = y :: rest → False) :
    literalChar text start c = .ok (some ()) (c.moveTo (c.pos + x.utf8Size)) := by
  rw [literalChar, bind_eq (bump_cons h)]
  dsimp only
  by_cases hx : x = '\\'
  · have hcs : cs = [] := List.eq_nil_iff_forall_not_mem.mpr fun y hy => by
      obtain ⟨z, rest, hrest⟩ := List.exists_cons_of_ne_nil (List.ne_nil_of_mem hy)
      exact hescape z rest hx hrest
    subst hcs
    rw [if_pos hx, bind_eq (bump_nil h.next)]
    rfl
  · rw [if_neg hx, if_neg hquote]
    rfl

/-- The loop over a literal ends behind the quote that ends it, or at the end of the text. -/
theorem loop_literalChar {start : Nat} {place body : List Char} (hplace : Remains text start place)
    (h : Stands text depth c body) :
    Answers text (Stands text depth) (fun _ _ => True) (loop text (literalChar text start) c)
      ((Reading.literalBody body).elim (.error ⟨.openLiteral, place⟩) .ok) := by
  have helim : ∀ (o : Option (List Char × List Char))
      (f : List Char × List Char → List Char × List Char),
      (o.map f).elim (.error ⟨.openLiteral, place⟩) Except.ok =
        (o.elim (.error ⟨.openLiteral, place⟩) .ok >>= fun p => .ok (f p) : Reading _) := by
    intro o f
    cases o <;> rfl
  fun_induction Reading.literalBody body generalizing c with
  | case1 =>
    have hround : literalChar text start c = .error (.refused (.fault .openLiteral start)) c := by
      rw [literalChar, bind_eq (bump_nil h)]
      rfl
    rw [loop_error hround]
    exact .error h.safe hplace
  | case2 cs =>
    have hround : literalChar text start c = .ok none (c.moveTo (c.pos + '"'.utf8Size)) := by
      rw [literalChar, bind_eq (bump_cons h)]
      rfl
    rw [loop_done hround]
    exact .ok trivial h.next
  | case3 x cs ih =>
    obtain ⟨c', hround, hc'⟩ : ∃ c', literalChar text start c = .ok (some ()) c' ∧
        Stands text depth c' cs := by
      refine ⟨_, ?_, h.next.next⟩
      rw [literalChar, bind_eq (bump_cons h)]
      dsimp only
      rw [if_pos rfl, bind_eq (bump_cons h.next)]
      rfl
    rw [loop_again hround h hc' (by simp only [List.length_cons]; omega), helim]
    exact (ih hc').bind fun _ _ _ _ _ hrest => .ok trivial hrest
  | case4 x cs hquote hescape ih =>
    have hround : literalChar text start c = _ := literalChar_other h hquote hescape
    rw [loop_again hround h h.next (Nat.lt_succ_self _), helim]
    exact (ih h.next).bind fun _ _ _ _ _ hrest => .ok trivial hrest

/-- A literal is read as it is written, and stands for what is read from the characters. -/
theorem literal_answers (h : Stands text depth c cs) :
    Answers text (Stands text depth) (fun token t => unquoted token = t) (literal text c)
      (Reading.literal cs) := by
  rw [literal, bind_eq (here_eq c)]
  unfold Reading.literal
  split
  · next body =>
    rw [bind_eq (sign_cons h)]
    have hloop := loop_literalChar h.remains h.next
    cases hbody : Reading.literalBody body with
    | none =>
      rw [hbody] at hloop
      obtain ⟨offset, c', heq, hsafe, hplace⟩ := hloop.of_error
      rw [bind_error heq]
      exact .error hsafe hplace
    | some p =>
      obtain ⟨t, rest⟩ := p
      rw [hbody] at hloop
      obtain ⟨us, c', heq, -, hc'⟩ := hloop.of_ok
      obtain ⟨token, htoken, hunquote⟩ := unquote_eq hbody
      rw [htoken] at h
      rw [bind_eq heq, bind_eq (here_eq c'), h.pos_eq hc', bind_eq (slice_eq h.remains)]
      exact .ok (by rw [unquoted, String.toList_ofList, hunquote]) hc'
  · next hquote =>
    rw [bind_error (sign_ne h (head?_ne hquote))]
    exact .error h.safe h.remains

/-- What stands before a closing character is read together with its place. -/
theorem upTo_answers (close : Char) (h : Stands text depth c cs) :
    Answers text (Stands text depth) (fun p part => p.1 = part ∧ p.2 = c.pos) (upTo text close c)
      (Reading.upTo close cs) := by
  rw [upTo, bind_eq (here_eq c), bind_eq (remaining_eq h), Reading.upTo]
  cases hsplit : splitAtMark close cs with
  | none => exact .error h.safe h.remains
  | some p =>
    obtain ⟨part, rest⟩ := p
    obtain rfl := splitAtMark_eq_some hsplit
    have hclose : Stands text depth (c.moveTo (c.pos + byteLength part + close.utf8Size)) rest := by
      have hread : Stands text depth c (part ++ [close] ++ rest) := by simpa using h
      simpa [Nat.add_assoc] using hread.moveTo
    dsimp only
    rw [bind_eq (m := moveTo _) (a := ()) rfl, bind_eq (slice_eq h.remains)]
    exact .ok ⟨rfl, rfl⟩ hclose

end CursorReader

end AgentRules
