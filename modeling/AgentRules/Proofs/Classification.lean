/-
  What is kept of several offers.

  A classification is read as the function from fields to emissions that `get?` is. An offer
  changes it at the field of the offer only, and only if it is admitted (`get?_offer`). Of
  several offers for a field the first of those with the highest confidence is kept
  (`isFirstBest_get?`).
-/
import AgentRules.Classification
import Mathlib.Data.List.Induction

namespace AgentRules.Classification

@[simp] theorem get?_empty (field : String) : empty.get? field = none := rfl

theorem find?_place (e : Emission) (field : String) (ds : List Emission) :
    (place e ds).find? (·.field == field) =
      if e.field = field then some e else ds.find? (·.field == field) := by
  induction ds with
  | nil => by_cases h : e.field = field <;> simp [place, h]
  | cons d ds ih =>
    -- The emission goes in front, takes the place of an earlier one, or goes further back.
    rw [place]
    by_cases hbefore : e.field < d.field
    · rw [if_pos hbefore]
      by_cases h : e.field = field <;> simp [h]
    · rw [if_neg hbefore]
      by_cases hsame : e.field = d.field
      · rw [if_pos hsame]
        by_cases h : e.field = field
        · simp [h]
        · have hd : d.field ≠ field := hsame ▸ h
          simp [h, hd]
      · rw [if_neg hsame, List.find?_cons, ih, List.find?_cons]
        by_cases h : e.field = field
        · have hd : (d.field == field) = false := by simpa using fun hd => hsame (h.trans hd.symm)
          rw [hd]
        · rw [if_neg h, if_neg h]

/-- **An offer that is admitted is kept for its field**, and no other field changes. -/
theorem get?_offer (c : Classification) (e : Emission) (field : String) :
    (c.offer e).get? field =
      if e.field = field ∧ c.admits e then some e else c.get? field := by
  rw [offer]
  by_cases hadmits : c.admits e
  · rw [if_pos hadmits]
    simp only [get?, find?_place, hadmits, and_true]
  · rw [if_neg hadmits, if_neg fun h => hadmits h.2]

/-! ### The first best of several offers -/

/-- Whether, of the offers that the elements of a list make, an offer is the first of those with
    the highest confidence; or there are none. -/
def IsFirstBest {α : Type} (offered : α → Option Emission) (as : List α) :
    Option Emission → Prop
  | none => ∀ a ∈ as, offered a = none
  | some e => ∃ before a after, as = before ++ a :: after ∧ offered a = some e ∧
      (∀ b ∈ before, ∀ d, offered b = some d → d.confidence < e.confidence) ∧
      ∀ b ∈ after, ∀ d, offered b = some d → d.confidence ≤ e.confidence

/-- The better of what is kept and one more offer; of equal ones what is kept. -/
def better : Option Emission → Option Emission → Option Emission
  | kept, none => kept
  | none, some d => some d
  | some e, some d => if e.confidence < d.confidence then some d else some e

namespace IsFirstBest

variable {α : Type} {offered : α → Option Emission} {as : List α}

/-- Elements that make the same offers have the same first best offer. -/
theorem map {β : Type} {offered' : β → Option Emission} {g : α → β}
    (hoffered : ∀ a ∈ as, offered' (g a) = offered a) {kept : Option Emission}
    (h : IsFirstBest offered as kept) : IsFirstBest offered' (as.map g) kept := by
  cases kept with
  | none =>
    intro b hb
    obtain ⟨a, ha, rfl⟩ := List.mem_map.mp hb
    exact (hoffered a ha).trans (h a ha)
  | some e =>
    obtain ⟨before, a, after, rfl, ha, hbefore, hafter⟩ := h
    refine ⟨before.map g, g a, after.map g, by simp, ?_, ?_, ?_⟩
    · exact (hoffered a (by simp)).trans ha
    · intro b hb d hd
      obtain ⟨c, hc, rfl⟩ := List.mem_map.mp hb
      exact hbefore c hc d ((hoffered c (by simp [hc])).symm.trans hd)
    · intro b hb d hd
      obtain ⟨c, hc, rfl⟩ := List.mem_map.mp hb
      exact hafter c hc d ((hoffered c (by simp [hc])).symm.trans hd)

/-- Something is kept when some element makes an offer. -/
theorem isSome_iff {kept : Option Emission} (h : IsFirstBest offered as kept) :
    kept.isSome ↔ ∃ a ∈ as, (offered a).isSome := by
  cases kept with
  | none => simpa [IsFirstBest] using h
  | some e =>
    obtain ⟨before, a, after, rfl, ha, -, -⟩ := h
    simp only [Option.isSome_some, true_iff]
    exact ⟨a, by simp, by rw [ha]; rfl⟩

theorem confidence_le {e : Emission} (h : IsFirstBest offered as (some e)) {a : α} (ha : a ∈ as)
    {d : Emission} (hd : offered a = some d) : d.confidence ≤ e.confidence := by
  obtain ⟨before, b, after, rfl, hb, hbefore, hafter⟩ := h
  rcases List.mem_append.mp ha with ha | ha
  · exact Int.le_of_lt (hbefore a ha d hd)
  · rcases List.mem_cons.mp ha with rfl | ha
    · rw [hb] at hd
      exact Option.some.inj hd ▸ Int.le_refl _
    · exact hafter a ha d hd

/-- One more element that offers no more leaves the first best offer. -/
theorem concat_of_le {e : Emission} (h : IsFirstBest offered as (some e)) {a : α}
    (ha : ∀ d, offered a = some d → d.confidence ≤ e.confidence) :
    IsFirstBest offered (as ++ [a]) (some e) := by
  obtain ⟨before, b, after, rfl, hb, hbefore, hafter⟩ := h
  refine ⟨before, b, after ++ [a], by simp, hb, hbefore, fun c hc => ?_⟩
  rcases List.mem_append.mp hc with hc | hc
  · exact hafter c hc
  · exact List.mem_singleton.mp hc ▸ ha

/-- **The better of the first best and one more offer is the first best of all.** -/
theorem concat {kept : Option Emission} (h : IsFirstBest offered as kept) (a : α) :
    IsFirstBest offered (as ++ [a]) (better kept (offered a)) := by
  cases ha : offered a with
  | none =>
    cases kept with
    | none =>
      intro b hb
      rcases List.mem_append.mp hb with hb | hb
      · exact h b hb
      · exact List.mem_singleton.mp hb ▸ ha
    | some e => exact h.concat_of_le fun d hd => absurd (ha.symm.trans hd) (by simp)
  | some d =>
    cases kept with
    | none => exact ⟨as, a, [], rfl, ha, fun b hb d' hd' => by simp [h b hb] at hd', by simp⟩
    | some e =>
      -- A new offer wins only if it is strictly better, and then it beats all before it.
      rw [better]
      split
      · rename_i hlt
        exact ⟨as, a, [], rfl, ha,
          fun b hb d' hd' => Int.lt_of_le_of_lt (h.confidence_le hb hd') hlt, by simp⟩
      · rename_i hle
        refine h.concat_of_le fun d' hd' => ?_
        obtain rfl := Option.some.inj (ha.symm.trans hd')
        exact Int.not_lt.mp hle

end IsFirstBest

/-- An offer for a field leaves the better of it and what is kept; other offers leave it. -/
theorem get?_offer_eq_better (c : Classification) (e : Emission) (field : String) :
    (c.offer e).get? field =
      better (c.get? field) ((some e).filter (·.field == field)) := by
  rw [get?_offer, admits]
  by_cases h : e.field = field
  · subst h
    rw [Option.filter_some, if_pos (beq_self_eq_true _)]
    cases hkept : c.get? e.field <;> simp [better]
  · rw [if_neg fun hboth => h hboth.1, Option.filter_some, if_neg (by simpa using h), better]

/-- **Of several offers for a field the first best one is kept.** -/
theorem isFirstBest_get? {α : Type} (offered : α → Option Emission) (as : List α)
    (field : String) :
    IsFirstBest (fun a => (offered a).filter (·.field == field)) as
      (((as.filterMap offered).foldl offer empty).get? field) := by
  induction as using List.reverseRecOn with
  | nil => exact fun _ h => absurd h (by simp)
  | append_singleton as a ih =>
    have hstep := ih.concat a
    rw [List.filterMap_append, List.foldl_append]
    cases ha : offered a with
    | none => simpa [ha, better] using hstep
    | some e =>
      rw [ha, ← get?_offer_eq_better] at hstep
      simpa [ha] using hstep

end AgentRules.Classification
