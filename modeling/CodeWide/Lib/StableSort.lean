import Mathlib.Data.List.Sort

/-!
# The front of a stable sort

What comes late enough in its own sorted list does not reach the front of the sorted whole.
-/

namespace CodeWide.Lib.StableSort

open List

variable {α : Type} {r : α → α → Prop} [DecidableRel r]

lemma orderedInsert_of_before {y : α} {a : List α} (b : List α) (h : ∀ x ∈ a, ¬r y x) :
    (a ++ b).orderedInsert r y = a ++ b.orderedInsert r y := by
  induction a with
  | nil => rfl
  | cons x rest ih =>
    rw [cons_append, orderedInsert_cons, if_neg (h x mem_cons_self),
      ih fun z hz => h z (mem_cons_of_mem x hz), cons_append]

lemma orderedInsert_of_within {y : α} {a : List α} (b : List α) (h : ∃ x ∈ a, r y x) :
    (a ++ b).orderedInsert r y = a.orderedInsert r y ++ b := by
  induction a with
  | nil =>
    obtain ⟨x, hx, -⟩ := h
    cases hx
  | cons x rest ih =>
  rw [cons_append, orderedInsert_cons, orderedInsert_cons]
  split
  · rfl
  rename_i hnot
  obtain ⟨z, hz, hyz⟩ := h
  rcases mem_cons.mp hz with rfl | hz
  · exact absurd hyz hnot
  · rw [ih ⟨z, hz, hyz⟩, cons_append]

variable [Std.Total r] [IsTrans α r]

/-- A sorted list and the same list with `x` behind at least `n` elements. -/
def Behind (r : α → α → Prop) (x : α) (n : Nat) (short long : List α) : Prop :=
  ∃ a b, short = a ++ b ∧ long = a ++ x :: b ∧ n ≤ a.length ∧ (∀ y ∈ a, r y x) ∧ ∀ y ∈ b, r x y

lemma behind_insert (x : α) {l : List α} (h : l.Pairwise r) :
    Behind r x 0 l (l.orderedInsert r x) := by
  induction l with
  | nil => exact ⟨[], [], rfl, rfl, Nat.le_refl 0, by simp, by simp⟩
  | cons z rest ih =>
  rw [orderedInsert_cons]
  split
  · rename_i hxz
    refine ⟨[], z :: rest, rfl, rfl, Nat.le_refl 0, by simp, fun y hy => ?_⟩
    rcases mem_cons.mp hy with rfl | hy
    · exact hxz
    · exact trans_of r hxz (rel_of_pairwise_cons h hy)
  rename_i hnot
  obtain ⟨a, b, hshort, hlong, -, ha, hb⟩ := ih h.of_cons
  refine ⟨z :: a, b, by rw [hshort]; rfl, by rw [hlong]; rfl, Nat.zero_le _, fun y hy => ?_, hb⟩
  rcases mem_cons.mp hy with rfl | hy
  · exact (total_of r x y).resolve_left hnot
  · exact ha y hy

lemma Behind.insert {x y : α} {n : Nat} {short long : List α} (h : Behind r x n short long) :
    Behind r x (if r y x then n + 1 else n) (short.orderedInsert r y) (long.orderedInsert r y) := by
  obtain ⟨a, b, rfl, rfl, hn, ha, hb⟩ := h
  by_cases hyx : r y x
  · rw [if_pos hyx]
    refine ⟨a.orderedInsert r y, b, ?_, ?_, by rw [orderedInsert_length]; omega, fun z hz => ?_, hb⟩
    · by_cases hsome : ∃ z ∈ a, r y z
      · exact orderedInsert_of_within b hsome
      have hall : ∀ z ∈ a, ¬r y z := fun z hz hyz => hsome ⟨z, hz, hyz⟩
      have hnil := orderedInsert_of_before [] hall
      rw [append_nil] at hnil
      rw [orderedInsert_of_before b hall, hnil]
      cases b with
      | nil => simp
      | cons z rest =>
        rw [orderedInsert_cons, if_pos (trans_of r hyx (hb z mem_cons_self))]
        simp
    · by_cases hsome : ∃ z ∈ a, r y z
      · exact orderedInsert_of_within _ hsome
      have hall : ∀ z ∈ a, ¬r y z := fun z hz hyz => hsome ⟨z, hz, hyz⟩
      have hnil := orderedInsert_of_before [] hall
      rw [append_nil] at hnil
      rw [orderedInsert_of_before _ hall, hnil, orderedInsert_cons, if_pos hyx]
      simp
    · rcases (mem_orderedInsert r).mp hz with rfl | hz
      · exact hyx
      · exact ha z hz
  rw [if_neg hyx]
  have hall : ∀ z ∈ a, ¬r y z := fun z hz hyz => hyx (trans_of r hyz (ha z hz))
  have hxy : r x y := (total_of r x y).resolve_right hyx
  refine ⟨a, b.orderedInsert r y, orderedInsert_of_before b hall, ?_, hn, ha, fun z hz => ?_⟩
  · rw [orderedInsert_of_before _ hall, orderedInsert_cons, if_neg hyx]
  · rcases (mem_orderedInsert r).mp hz with rfl | hz
    · exact hxy
    · exact hb z hz

lemma behind_sort (x : α) (front back : List α) :
    Behind r x (front.countP fun y => decide (r y x)) ((front ++ back).insertionSort r)
      ((front ++ x :: back).insertionSort r) := by
  induction front with
  | nil => exact behind_insert x (pairwise_insertionSort r back)
  | cons y rest ih =>
  rw [countP_cons]
  have hstep := ih.insert (y := y)
  by_cases hyx : r y x <;> simpa [hyx] using hstep

/-- A sorted list, and a part of it that has all of it or its first `n` elements. -/
def Cut (r : α → α → Prop) (n : Nat) (part whole : List α) : Prop :=
  ∃ rest, whole = part ++ rest ∧ (rest = [] ∨ n ≤ part.length) ∧ whole.Pairwise r

lemma take_sort_append {n : Nat} (front part rest back : List α)
    (h : ∀ x ∈ rest, n ≤ (front ++ part).countP fun y => decide (r y x)) :
    ((front ++ part ++ rest ++ back).insertionSort r).take n =
      ((front ++ part ++ back).insertionSort r).take n := by
  induction rest with
  | nil => simp
  | cons x rest ih =>
  obtain ⟨a, b, hshort, hlong, hn, -, -⟩ := behind_sort (r := r) x (front ++ part) (rest ++ back)
  have hle := Nat.le_trans (h x mem_cons_self) hn
  rw [← ih fun z hz => h z (mem_cons_of_mem x hz), append_assoc _ (x :: rest), cons_append, hlong,
    append_assoc _ rest, hshort, take_append_of_le_length hle, take_append_of_le_length hle]

theorem take_sort_flatten {n : Nat} (front : List α) {parts wholes : List (List α)}
    (h : Forall₂ (Cut r n) parts wholes) :
    ((front ++ parts.flatten).insertionSort r).take n =
      ((front ++ wholes.flatten).insertionSort r).take n := by
  induction h generalizing front with
  | nil => rfl
  | @cons part whole parts wholes hcut _ ih =>
  obtain ⟨rest, rfl, hlong, hsorted⟩ := hcut
  have hcount : ∀ x ∈ rest, n ≤ (front ++ part).countP fun y => decide (r y x) := by
    intro x hx
    have hall : part.countP (fun y => decide (r y x)) = part.length :=
      countP_eq_length.mpr fun y hy => decide_eq_true ((pairwise_append.mp hsorted).2.2 y hy x hx)
    rcases hlong with rfl | hle
    · cases hx
    · rw [countP_append, hall]
      omega
  have hmore := take_sort_append (r := r) front part rest parts.flatten hcount
  have hrest := ih (front ++ part ++ rest)
  simp only [flatten_cons, append_assoc] at hmore hrest ⊢
  rw [← hmore, hrest]

end CodeWide.Lib.StableSort
