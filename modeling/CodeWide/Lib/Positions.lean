import Mathlib.Data.List.Basic
import Mathlib.Data.List.Forall2

/-!
# Positions in a list

The last position whose element satisfies a predicate, and what changing a list at one does.
-/

namespace CodeWide.Lib

open List

variable {α : Type}

def lastIdx? (p : α → Bool) : List α → Option Nat
  | [] => none
  | x :: rest =>
    match lastIdx? p rest with
    | some i => some (i + 1)
    | none => if p x then some 0 else none

variable {l : List α}

variable {p : α → Bool}

lemma lastIdx?_eq_none : lastIdx? p l = none ↔ ∀ x ∈ l, p x = false := by
  induction l with
  | nil => simp [lastIdx?]
  | cons x rest ih =>
  unfold lastIdx?
  cases hrest : lastIdx? p rest with
  | some i =>
    have hnot := mt ih.mpr (by rw [hrest]; exact Option.some_ne_none i)
    simp only [reduceCtorEq, mem_cons, forall_eq_or_imp, false_iff]
    exact fun h => hnot h.2
  | none =>
  simp only [ite_eq_right_iff, reduceCtorEq, imp_false, Bool.not_eq_true, mem_cons,
    forall_eq_or_imp]
  exact ⟨fun hx => ⟨hx, ih.mp hrest⟩, fun h => h.1⟩

variable {i : Nat}

lemma lastIdx?_spec (h : lastIdx? p l = some i) :
    ∃ before x after, l = before ++ x :: after ∧ before.length = i ∧ p x = true ∧
      ∀ y ∈ after, p y = false := by
  induction l generalizing i with
  | nil => cases h
  | cons x rest ih =>
  unfold lastIdx? at h
  cases hrest : lastIdx? p rest with
  | some j =>
    rw [hrest] at h
    obtain ⟨before, y, after, rfl, rfl, hy, hafter⟩ := ih hrest
    cases h
    exact ⟨x :: before, y, after, rfl, rfl, hy, hafter⟩
  | none =>
  simp only [hrest] at h
  split at h
  · rename_i hx
    cases h
    exact ⟨[], x, rest, rfl, rfl, hx, lastIdx?_eq_none.mp hrest⟩
  · cases h

lemma lastIdx?_getElem? (h : lastIdx? p l = some i) : ∃ x, l[i]? = some x ∧ p x = true := by
  obtain ⟨before, x, after, rfl, rfl, hx, -⟩ := lastIdx?_spec h
  exact ⟨x, by simp, hx⟩

lemma modify_append_cons (before : List α) (x : α) (after : List α) (f : α → α) :
    (before ++ x :: after).modify before.length f = before ++ f x :: after := by
  induction before with
  | nil => rfl
  | cons b rest ih => exact congrArg (b :: ·) ih

lemma exists_split {x : α} (h : l[i]? = some x) :
    ∃ before after, l = before ++ x :: after ∧ before.length = i := by
  obtain ⟨hi, rfl⟩ := List.getElem?_eq_some_iff.mp h
  refine ⟨l.take i, l.drop (i + 1), ?_, List.length_take_of_le (by omega)⟩
  rw [List.getElem_cons_drop hi, List.take_append_drop]

lemma map_set_of_eq {β : Type} {f : α → β} {l : List α} {i : Nat} {x y : α}
    (hx : l[i]? = some x) (h : f y = f x) : (l.set i y).map f = l.map f := by
  obtain ⟨before, after, rfl, rfl⟩ := exists_split hx
  rw [set_append_right _ _ (Nat.le_refl _), Nat.sub_self, set_cons_zero]
  simp [h]

lemma mem_set_of_ne {i k : Nat} {x y : α} (hx : l[k]? = some x) (hne : k ≠ i) : x ∈ l.set i y := by
  refine mem_of_getElem? (i := k) ?_
  rw [getElem?_set_ne (Ne.symm hne)]
  exact hx

lemma forall₂_modify {R : α → α → Prop} (hrefl : ∀ x, R x x) {f : α → α}
    (h : ∀ x, l[i]? = some x → R x (f x)) : List.Forall₂ R l (l.modify i f) := by
  induction l generalizing i with
  | nil => simp
  | cons x rest ih =>
  cases i with
  | zero =>
    rw [modify_zero_cons]
    exact List.Forall₂.cons (h x rfl) (forall₂_same.mpr (fun y _ => hrefl y))
  | succ i =>
    rw [modify_succ_cons]
    exact List.Forall₂.cons (hrefl x) (ih h)

lemma exists_of_forall₂_left {β : Type} {R : α → β → Prop} {m : List β}
    (h : List.Forall₂ R l m) {x : α} (hx : x ∈ l) : ∃ y ∈ m, R x y := by
  induction h with
  | nil => cases hx
  | cons hab _ ih =>
  rcases mem_cons.mp hx with rfl | hrest
  · exact ⟨_, mem_cons_self, hab⟩
  · obtain ⟨y, hy, hR⟩ := ih hrest
    exact ⟨y, mem_cons_of_mem _ hy, hR⟩

lemma exists_of_forall₂_right {β : Type} {R : α → β → Prop} {m : List β}
    (h : List.Forall₂ R l m) {y : β} (hy : y ∈ m) : ∃ x ∈ l, R x y := by
  induction h with
  | nil => cases hy
  | cons hab _ ih =>
  rcases mem_cons.mp hy with rfl | hrest
  · exact ⟨_, mem_cons_self, hab⟩
  · obtain ⟨x, hx, hR⟩ := ih hrest
    exact ⟨x, mem_cons_of_mem _ hx, hR⟩

end CodeWide.Lib
