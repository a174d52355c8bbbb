import Mathlib.Data.List.Induction
import Mathlib.Order.Nat

/-!
# The standing value of a register

A register is told values, each with a stamp, and may be told that its value is withdrawn.
-/

namespace CodeWide.Lib

open List Option

inductive Report (ν : Type) where
  | offer (stamp : Nat) (value : ν)
  | withdraw

variable {ν : Type}

def stand (held : Option (Nat × Option ν)) : Report ν → Option (Nat × Option ν)
  | .offer stamp value =>
    if held.any (fun h => decide (stamp < h.1)) then held else some (stamp, some value)
  | .withdraw => held.map fun h => (h.1, none)

def standing (reports : List (Report ν)) : Option (Nat × Option ν) := reports.foldl stand none

@[simp] lemma standing_concat (reports : List (Report ν)) (r : Report ν) :
    standing (reports ++ [r]) = stand (standing reports) r := by
  simp [standing, foldl_append]

variable {stamp : Nat}

variable {value : ν}

lemma stand_offer_of_le {held : Option (Nat × Option ν)} (h : ∀ e, held = some e → e.1 ≤ stamp) :
    stand held (.offer stamp value) = some (stamp, some value) := by
  cases held with
  | none => rfl
  | some e =>
  have hle := h e rfl
  refine if_neg ?_
  simp only [any_some, decide_eq_true_eq]
  omega

variable {e : Nat × Option ν}

lemma stand_offer_of_lt (h : stamp < e.1) :
    stand (some e) (.offer stamp value) = some e := if_pos (decide_eq_true h)

lemma stand_stamp_le {e : Nat × Option ν} (r : Report ν) :
    ∃ e', stand (some e) r = some e' ∧ e.1 ≤ e'.1 := by
  cases r with
  | offer stamp value =>
    rcases Nat.lt_or_ge stamp e.1 with hlt | hge
    · exact ⟨e, stand_offer_of_lt hlt, le_refl _⟩
    · refine ⟨(stamp, some value), stand_offer_of_le fun e' he' => ?_, hge⟩
      rwa [← some.inj he']
  | withdraw => exact ⟨(e.1, none), rfl, le_refl _⟩

variable {reports : List (Report ν)}

lemma standing_stamp_le (h : standing reports = some e) (later : List (Report ν)) :
    ∃ e', standing (reports ++ later) = some e' ∧ e.1 ≤ e'.1 := by
  induction later using reverseRecOn with
  | nil => exact ⟨e, by rwa [append_nil], le_refl _⟩
  | append_singleton later r ih =>
  obtain ⟨e', he', hle⟩ := ih
  obtain ⟨e'', he'', hle'⟩ := @stand_stamp_le ν e' r
  refine ⟨e'', ?_, hle.trans hle'⟩
  rw [← append_assoc, standing_concat, he', he'']

lemma stamp_le_of_standing {bound : Nat}
    (hbound : ∀ c w, .offer c w ∈ reports → c ≤ bound) (h : standing reports = some e) :
    e.1 ≤ bound := by
  induction reports using reverseRecOn generalizing e with
  | nil => cases h
  | append_singleton reports r ih =>
  have ih := fun e => @ih e fun c w hmem => hbound c w (mem_append_left _ hmem)
  rw [standing_concat] at h
  cases r with
  | offer c w =>
    rw [stand] at h
    split at h
    · exact ih _ h
    · cases h
      exact hbound c w (by simp)
  | withdraw =>
    obtain ⟨e', he', rfl⟩ := map_eq_some_iff.mp h
    exact ih e' he'

lemma le_standing
    (h : .offer stamp value ∈ reports) : ∃ e, standing reports = some e ∧ stamp ≤ e.1 := by
  obtain ⟨before, after, rfl⟩ := append_of_mem h
  have htaken : ∃ e, standing (before ++ [.offer stamp value]) = some e ∧ stamp ≤ e.1 := by
    rw [standing_concat]
    cases hheld : standing before with
    | none => exact ⟨(stamp, some value), rfl, le_refl _⟩
    | some e =>
    rcases Nat.lt_or_ge stamp e.1 with hlt | hge
    · exact ⟨e, stand_offer_of_lt hlt, hlt.le⟩
    · refine ⟨(stamp, some value), stand_offer_of_le fun e' he' => ?_, le_refl _⟩
      rwa [← some.inj he']
  obtain ⟨e, he, hle⟩ := htaken
  obtain ⟨e', he', hle'⟩ := standing_stamp_le he after
  refine ⟨e', ?_, hle.trans hle'⟩
  rwa [append_assoc] at he'

lemma exists_offer_of_standing (h : standing reports = some e) : ∃ v, .offer e.1 v ∈ reports := by
  induction reports using reverseRecOn generalizing e with
  | nil => cases h
  | append_singleton reports r ih =>
  rw [standing_concat] at h
  cases r with
  | offer c w =>
    rw [stand] at h
    split at h
    · obtain ⟨v, hmem⟩ := ih h
      exact ⟨v, mem_append_left _ hmem⟩
    · cases h
      exact ⟨w, by simp⟩
  | withdraw =>
  obtain ⟨e', he', rfl⟩ := map_eq_some_iff.mp h
  obtain ⟨v, hmem⟩ := ih he'
  exact ⟨v, mem_append_left _ hmem⟩

lemma mem_of_standing {v : ν}
    (h : standing reports = some (stamp, some v)) : .offer stamp v ∈ reports := by
  induction reports using reverseRecOn with
  | nil => cases h
  | append_singleton reports r ih =>
  rw [standing_concat] at h
  cases r with
  | offer c w =>
    rw [stand] at h
    split at h
    · exact mem_append_left _ (ih h)
    · cases h
      exact mem_append_right _ mem_cons_self
  | withdraw =>
  cases hheld : standing reports with
  | none | some e =>
    rw [hheld] at h
    cases h

lemma standing_of_split {before after : List (Report ν)} {v : ν}
    (hbef : ∀ c w, .offer c w ∈ before → c ≤ stamp)
    (hafter : ∀ c w, .offer c w ∈ after → c < stamp) :
    (.withdraw ∉ after ∧ standing (before ++ .offer stamp v :: after) = some (stamp, some v)) ∨
      (.withdraw ∈ after ∧ standing (before ++ .offer stamp v :: after) = some (stamp, none)) := by
  induction after using reverseRecOn with
  | nil =>
    refine .inl ⟨not_mem_nil, ?_⟩
    rw [standing_concat]
    refine stand_offer_of_le fun e he => ?_
    exact stamp_le_of_standing hbef he
  | append_singleton after r ih =>
  have ih := ih fun c w hmem => hafter c w (mem_append_left _ hmem)
  rw [← cons_append, ← append_assoc, standing_concat]
  cases r with
  | offer c w =>
    have hlt : c < stamp := hafter c w (by simp)
    have hmem : Report.withdraw ∈ after ++ [.offer c w] ↔ .withdraw ∈ after := by simp
    rw [hmem]
    rcases ih with ⟨hkept, hstands⟩ | ⟨hgone, hstands⟩
    · exact .inl ⟨hkept, by rw [hstands, stand_offer_of_lt hlt]⟩
    · exact .inr ⟨hgone, by rw [hstands, stand_offer_of_lt hlt]⟩
  | withdraw =>
    refine .inr ⟨by simp, ?_⟩
    rcases ih with ⟨-, hstands⟩ | ⟨-, hstands⟩ <;> rw [hstands] <;> rfl

end CodeWide.Lib
