import Mathlib.Data.List.Lex
import Mathlib.Order.Lattice

/-!
# Composite keys

A pair of words written as one word, with a separator between them.
-/

namespace CodeWide.Lib.Composite

open List

variable {α : Type}

lemma split_inj {sep : α} {p q b c : List α} (h : p ++ sep :: b = q ++ sep :: c)
    (hq : sep ∉ q) (hc : sep ∉ c) : p = q ∧ b = c := by
  induction q generalizing p with
  | nil =>
    cases p with
    | nil => exact ⟨rfl, (cons.inj h).2⟩
    | cons x p =>
    refine absurd ?_ hc
    rw [← (cons.inj h).2]
    exact mem_append_right p mem_cons_self
  | cons y q ih =>
  cases p with
  | nil =>
    refine absurd ?_ hq
    rw [(cons.inj h).1]
    exact mem_cons_self
  | cons x p =>
  obtain ⟨hxy, hrest⟩ := cons.inj h
  obtain ⟨hp, hb⟩ := ih hrest (fun hmem => hq (mem_cons_of_mem y hmem))
  exact ⟨by rw [hxy, hp], hb⟩

variable [LinearOrder α] {q k lower upper : List α}

lemma append_lt_append_iff (q : List α) {l m : List α} : q ++ l < q ++ m ↔ l < m := by
  induction q with
  | nil => exact Iff.rfl
  | cons x q ih =>
    rw [cons_append, cons_append, cons_lt_cons_iff]
    simp [ih]

lemma append_le_append_iff (q : List α) {l m : List α} : q ++ l ≤ q ++ m ↔ l ≤ m := by
  rw [← not_lt, ← not_lt, append_lt_append_iff]

lemma exists_eq_append_of_between (hlower : q ++ lower ≤ k) (hupper : k ≤ q ++ upper) :
    ∃ b, k = q ++ b := by
  induction q generalizing k with
  | nil => exact ⟨k, rfl⟩
  | cons x q ih =>
  cases k with
  | nil => exact absurd (nil_lt_cons x (q ++ lower)) (not_lt.mpr hlower)
  | cons y k =>
  have hxy : ¬ y < x := fun h =>
    not_lt.mpr hlower (cons_lt_cons_iff.mpr (.inl h))
  have hyx : ¬ x < y := fun h =>
    not_lt.mpr hupper (cons_lt_cons_iff.mpr (.inl h))
  obtain rfl : x = y := le_antisymm (not_lt.mp hxy) (not_lt.mp hyx)
  rw [cons_append, ← not_lt, cons_lt_cons_iff] at hlower hupper
  obtain ⟨b, rfl⟩ := ih (not_lt.mp (fun h => hlower (.inr ⟨rfl, h⟩)))
    (not_lt.mp (fun h => hupper (.inr ⟨rfl, h⟩)))
  exact ⟨b, rfl⟩

lemma between_iff : q ++ lower ≤ k ∧ k ≤ q ++ upper ↔ ∃ b, k = q ++ b ∧ lower ≤ b ∧ b ≤ upper := by
  constructor
  · rintro ⟨hlower, hupper⟩
    obtain ⟨b, rfl⟩ := exists_eq_append_of_between hlower hupper
    exact ⟨b, rfl, (append_le_append_iff q).mp hlower, (append_le_append_iff q).mp hupper⟩
  · rintro ⟨b, rfl, hlower, hupper⟩
    exact ⟨(append_le_append_iff q).mpr hlower, (append_le_append_iff q).mpr hupper⟩

lemma between_succ_iff {sep next : α} (hlt : sep < next)
    (hnext : ∀ x, sep ≤ x → x < next → x = sep) :
    q ++ [sep] ≤ k ∧ k < q ++ [next] ↔ ∃ b, k = q ++ sep :: b := by
  constructor
  · rintro ⟨hlower, hupper⟩
    obtain ⟨b, rfl⟩ := exists_eq_append_of_between hlower hupper.le
    rw [append_le_append_iff] at hlower
    rw [append_lt_append_iff] at hupper
    cases b with
    | nil => exact absurd (nil_lt_cons sep []) (not_lt.mpr hlower)
    | cons x b =>
    have hge : sep ≤ x := by
      refine not_lt.mp (fun h => not_lt.mpr hlower (cons_lt_cons_iff.mpr (.inl h)))
    rcases cons_lt_cons_iff.mp hupper with h | ⟨-, h⟩
    · exact ⟨b, by rw [hnext x hge h]⟩
    · exact absurd h (not_lt_nil b)
  rintro ⟨b, rfl⟩
  rw [append_le_append_iff, append_lt_append_iff]
  refine ⟨not_lt.mp (fun h => ?_), cons_lt_cons_iff.mpr (.inl hlt)⟩
  rcases cons_lt_cons_iff.mp h with h | ⟨-, h⟩
  · exact lt_irrefl _ h
  · exact not_lt_nil b h

end CodeWide.Lib.Composite
