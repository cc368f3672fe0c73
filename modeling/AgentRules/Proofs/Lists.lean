/-
  Lists in which few elements matter.

  Actions are told apart by their numbers, word ranges and variables by themselves, places by
  their addresses. So most lists here have different keys, and of a list at most one element
  matters for one key (`ne_of_nodup_map`).

  Where two things are followed side by side, the lists on both sides are related element by
  element. What is looked for in such lists is found in both, and related, or in neither
  (`rel_findSome?`).
-/
import Mathlib.Data.List.Forall2
import Mathlib.Data.List.Infix
import Mathlib.Data.List.Nodup

namespace AgentRules

variable {α β : Type}

/-! ### Different keys -/

/-- Where keys are different, all elements beside one have other keys. -/
theorem ne_of_nodup_map {f : α → β} {before after : List α} {a : α}
    (h : ((before ++ a :: after).map f).Nodup) : ∀ b ∈ before ++ after, f b ≠ f a := by
  intro b hb hba
  rw [List.map_append, List.map_cons, List.nodup_middle, List.nodup_cons, ← List.map_append] at h
  have hmem := List.mem_map_of_mem (f := f) hb
  exact h.1 (hba ▸ hmem)

/-- Where keys are different, each key finds its element. -/
theorem find?_of_nodup_map [DecidableEq β] {f : α → β} {as : List α} (hnd : (as.map f).Nodup)
    {a : α} (ha : a ∈ as) : as.find? (f · = f a) = some a := by
  obtain ⟨before, after, rfl⟩ := List.append_of_mem ha
  have hbefore : ∀ b ∈ before, f b ≠ f a := fun b hb =>
    ne_of_nodup_map hnd b (List.mem_append_left _ hb)
  rw [List.find?_append, List.find?_eq_none.mpr fun b hb => by simp [hbefore b hb]]
  simp

/-- Where the keys count up from a number, in order, an element stands as far in as its key is
    above that number. -/
theorem getElem?_eq_some_iff_of_map_eq_range' {f : α → Nat} {as : List α} {n : Nat}
    (h : as.map f = List.range' n as.length) {k : Nat} {a : α} :
    as[k]? = some a ↔ a ∈ as ∧ f a = n + k := by
  have hkey : ∀ (k : Nat) (a : α), as[k]? = some a → f a = n + k := by
    intro k a hk
    have hmap : (as.map f)[k]? = some (f a) := by rw [List.getElem?_map, hk]; rfl
    rw [h, List.getElem?_range' (List.getElem?_eq_some_iff.mp hk).1] at hmap
    simpa using (Option.some.inj hmap).symm
  constructor
  · intro hk
    exact ⟨List.mem_of_getElem? hk, hkey k a hk⟩
  · rintro ⟨ha, hak⟩
    obtain ⟨j, hj⟩ := List.getElem?_of_mem ha
    have haj : f a = n + j := hkey j a hj
    obtain rfl : j = k := by omega
    exact hj

/-- Where the keys are the numbers from zero on, in order, a key finds what stands at its place. -/
theorem find?_eq_getElem? {f : α → Nat} {as : List α} (h : as.map f = List.range as.length)
    (i : Nat) : as.find? (f · = i) = as[i]? := by
  have hnd : (as.map f).Nodup := h ▸ List.nodup_range
  rw [List.range_eq_range'] at h
  refine Option.ext fun a => ?_
  rw [getElem?_eq_some_iff_of_map_eq_range' h, Nat.zero_add]
  constructor
  · intro hfound
    exact ⟨List.mem_of_find?_eq_some hfound, by simpa using List.find?_some hfound⟩
  · rintro ⟨ha, rfl⟩
    exact find?_of_nodup_map hnd ha

theorem lookup_of_mem [DecidableEq α] {ps : List (α × β)} (hnd : (ps.map (·.1)).Nodup)
    {p : α × β} (hp : p ∈ ps) : ps.lookup p.1 = some p.2 := by
  obtain ⟨before, after, rfl⟩ := List.append_of_mem hp
  refine List.lookup_eq_some_iff.mpr ⟨before, after, rfl, fun q hq => ?_⟩
  have hne : q.1 ≠ p.1 := ne_of_nodup_map hnd q (List.mem_append_left _ hq)
  simpa using hne.symm

/-- Keys stay different where a new one comes after the others. -/
theorem nodup_add_key [DecidableEq α] {key : α} {keys : List α} (h : keys.Nodup) :
    (if key ∈ keys then keys else keys ++ [key]).Nodup := by
  split
  · exact h
  · next hkey => exact h.append (List.nodup_singleton key) (by simpa using hkey)

theorem nodup_inits (as : List α) : as.inits.Nodup := by
  induction as with
  | nil => exact List.nodup_singleton _
  | cons a as ih =>
    rw [List.inits_cons, List.nodup_cons]
    exact ⟨by simp, ih.map (List.cons_injective)⟩

/-! ### One contribution -/

/-- Where only one element of a list contributes, and the list has it once at most. -/
theorem flatMap_eq_of_forall_ne [DecidableEq α] {as : List α} (hnd : as.Nodup) {a : α}
    {f : α → List β} (h : ∀ b, b ≠ a → f b = []) :
    as.flatMap f = if a ∈ as then f a else [] := by
  induction as with
  | nil => rfl
  | cons b as ih =>
    obtain ⟨hb, hnd⟩ := List.nodup_cons.mp hnd
    rw [List.flatMap_cons, ih hnd]
    by_cases hba : b = a
    · subst hba
      rw [if_neg hb, if_pos List.mem_cons_self, List.append_nil]
    · rw [h b hba, List.nil_append]
      simp [Ne.symm hba]

/-- A list to which at most one element contributes, and this one element at most. -/
theorem length_flatMap_le_one {f : α → List β} {as : List α}
    (hone : ∀ a ∈ as, (f a).length ≤ 1)
    (hunique : as.Pairwise fun a b => f a = [] ∨ f b = []) : (as.flatMap f).length ≤ 1 := by
  induction as with
  | nil => exact Nat.zero_le 1
  | cons a as ih =>
    obtain ⟨ha, hunique⟩ := List.pairwise_cons.mp hunique
    obtain ⟨hone, hrest⟩ := List.forall_mem_cons.mp hone
    rw [List.flatMap_cons]
    by_cases hnil : f a = []
    · rw [hnil, List.nil_append]
      exact ih hrest hunique
    · have hothers : as.flatMap f = [] :=
        List.flatMap_eq_nil_iff.mpr fun b hb => (ha b hb).resolve_left hnil
      rwa [hothers, List.append_nil]

/-! ### The first of several -/

theorem findSome?_flatMap {γ : Type} (f : α → List β) (g : β → Option γ) (as : List α) :
    (as.flatMap f).findSome? g = as.findSome? fun a => (f a).findSome? g := by
  induction as with
  | nil => rfl
  | cons a as ih =>
    rw [List.flatMap_cons, List.findSome?_append, ih, List.findSome?_cons]
    cases (f a).findSome? g <;> rfl

/-- What the first element gives is the first that the elements give. -/
theorem findSome?_of_head? {g : α → Option β} {as : List α} {b : β}
    (h : as.head?.bind g = some b) : as.findSome? g = some b := by
  cases as with
  | nil => exact absurd h (by simp)
  | cons a as =>
    rw [List.head?_cons, Option.bind_some] at h
    rw [List.findSome?_cons, h]

/-- The first that the elements give is what the first element gives, if there is no other
    element or if each gives something. -/
theorem findSome?_eq_head? {g : α → Option β} {as : List α}
    (h : as.length ≤ 1 ∨ ∀ a, (g a).isSome) : as.findSome? g = as.head?.bind g := by
  cases as with
  | nil => rfl
  | cons a as =>
    rw [List.head?_cons, Option.bind_some, List.findSome?_cons]
    rcases h with hlen | hsome
    · have hnil : as = [] := List.eq_nil_of_length_eq_zero (by simpa using hlen)
      rw [hnil]
      cases g a <;> rfl
    · obtain ⟨b, hb⟩ := Option.isSome_iff_exists.mp (hsome a)
      rw [hb]

theorem flatMap_filter (p : α → Bool) (f : α → List β) (as : List α) :
    (as.filter p).flatMap f = as.flatMap fun a => if p a then f a else [] := by
  induction as with
  | nil => rfl
  | cons a as ih =>
    rw [List.flatMap_cons, ← ih]
    by_cases ha : p a
    · simp [ha]
    · simp [ha]

theorem findSome?_filter (p : α → Bool) (f : α → Option β) (as : List α) :
    (as.filter p).findSome? f = as.findSome? fun a => if p a then f a else none := by
  rw [← List.head?_filterMap, List.filterMap_filter, List.head?_filterMap]

/-! ### Related lists and options -/

theorem exists_of_mem_right {R : α → β → Prop} {as : List α} {bs : List β}
    (h : List.Forall₂ R as bs) {b : β} (hb : b ∈ bs) : ∃ a ∈ as, R a b := by
  induction h with
  | nil => exact absurd hb List.not_mem_nil
  | cons hab _ ih =>
    rcases List.mem_cons.mp hb with rfl | hb
    · exact ⟨_, List.mem_cons_self, hab⟩
    · obtain ⟨a, ha, hab⟩ := ih hb
      exact ⟨a, List.mem_cons_of_mem _ ha, hab⟩

theorem rel_head? {R : α → β → Prop} {as : List α} {bs : List β} (h : List.Forall₂ R as bs) :
    Option.Rel R as.head? bs.head? := by
  cases h with
  | nil => exact .none
  | cons hab _ => exact .some hab

theorem rel_findSome? {γ δ : Type} {R : α → β → Prop} {S : γ → δ → Prop} {f : α → Option γ}
    {g : β → Option δ} {as : List α} {bs : List β} (h : List.Forall₂ R as bs)
    (hfg : ∀ a b, R a b → Option.Rel S (f a) (g b)) :
    Option.Rel S (as.findSome? f) (bs.findSome? g) := by
  rw [← List.head?_filterMap, ← List.head?_filterMap]
  exact rel_head? (List.rel_filterMap (fun a b => hfg a b) h)

theorem rel_isSome {R : α → β → Prop} {x : Option α} {y : Option β} (h : Option.Rel R x y) :
    y.isSome = x.isSome := by
  cases h <;> rfl

theorem rel_bind {γ δ : Type} {R : α → β → Prop} {S : γ → δ → Prop} {f : α → Option γ}
    {g : β → Option δ} {x : Option α} {y : Option β} (h : Option.Rel R x y)
    (hfg : ∀ a b, R a b → Option.Rel S (f a) (g b)) : Option.Rel S (x.bind f) (y.bind g) := by
  cases h with
  | some hab => exact hfg _ _ hab
  | none => exact .none

theorem rel_of_rel_map {γ δ : Type} {R : γ → δ → Prop} {f : α → γ} {g : β → δ} {x : Option α}
    {y : Option β} (h : Option.Rel R (x.map f) (y.map g)) :
    Option.Rel (fun a b => R (f a) (g b)) x y := by
  cases x <;> cases y <;> cases h
  · exact .none
  · exact .some ‹_›

/-- Where lists are related, what holds of the elements of one at their positions holds of the
    elements of the other. -/
theorem forall_getElem?_congr {R : α → β → Prop} {as : List α} {bs : List β}
    (h : List.Forall₂ R as bs) {p : Nat → α → Prop} {q : Nat → β → Prop}
    (hpq : ∀ i a b, R a b → (p i a ↔ q i b)) :
    (∀ (i : Nat) (a : α), as[i]? = some a → p i a) ↔
      ∀ (i : Nat) (b : β), bs[i]? = some b → q i b := by
  induction h generalizing p q with
  | nil => simp
  | @cons a b as bs hab _ ih =>
    have hrest := ih (p := fun i => p (i + 1)) (q := fun i => q (i + 1))
      fun i a b hab => hpq (i + 1) a b hab
    constructor
    · intro hp i c hc
      cases i with
      | zero => exact Option.some.inj hc ▸ (hpq 0 a b hab).mp (hp 0 a rfl)
      | succ i => exact hrest.mp (fun i a ha => hp (i + 1) a ha) i c hc
    · intro hq i c hc
      cases i with
      | zero => exact Option.some.inj hc ▸ (hpq 0 a b hab).mpr (hq 0 b rfl)
      | succ i => exact hrest.mpr (fun i b hb => hq (i + 1) b hb) i c hc

/-! ### Counting -/

theorem countP_take_lt {p : α → Bool} {as : List α} {i j : Nat} {a : α} (ha : as[i]? = some a)
    (hp : p a) (hij : i < j) : (as.take i).countP p < (as.take j).countP p := by
  have htake : (as.take j).take (i + 1) = as.take i ++ [a] := by
    rw [List.take_take, Nat.min_eq_left hij, List.take_add_one, ha]
    rfl
  have hle := (List.take_sublist (i + 1) (as.take j)).countP_le (p := p)
  rw [htake, List.countP_append, List.countP_singleton, if_pos hp] at hle
  exact hle

theorem countP_le_countP_and_iff (p q : α → Bool) (as : List α) :
    as.countP p ≤ as.countP (fun a => p a && q a) ↔ ∀ a ∈ as, p a → q a := by
  induction as with
  | nil => simp
  | cons a as ih =>
    have hle : as.countP (fun a => p a && q a) ≤ as.countP p :=
      List.countP_mono_left fun b _ hb => (Bool.and_eq_true_iff.mp hb).1
    rw [List.countP_cons, List.countP_cons, List.forall_mem_cons, ← ih]
    by_cases hp : p a
    · by_cases hq : q a
      · simp [hp, hq]
      · simp only [hp, hq, Bool.and_false, if_true]
        constructor
        · intro hlt
          exact absurd hlt (by simp; omega)
        · exact fun hboth => absurd (hboth.1 trivial) (by simp)
    · simp [hp]

end AgentRules
