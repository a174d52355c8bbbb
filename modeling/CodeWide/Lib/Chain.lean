import Mathlib.Order.Defs.PartialOrder
import Mathlib.Data.List.Basic

/-!
# Chains of positions

A stream announces each move as a link: the position it leaves and the position it reaches.
-/

namespace CodeWide.Lib

variable {α : Type}

/-- The links lead from the first position to the last, each strictly upwards. -/
def Chain [LT α] : α → List (α × α) → α → Prop
  | a, [], b => a = b
  | a, link :: rest, b => link.1 = a ∧ link.1 < link.2 ∧ Chain link.2 rest b

variable {l : List (α × α)}

lemma Chain.snoc [LT α] {a b c : α} (h : Chain a l b) (hlt : b < c) :
    Chain a (l ++ [(b, c)]) c := by
  induction l generalizing a with
  | nil =>
    have heq : a = b := h
    exact ⟨heq.symm, hlt, rfl⟩
  | cons link rest ih =>
    obtain ⟨hfrom, hup, hrest⟩ := h
    exact ⟨hfrom, hup, ih hrest⟩

lemma Chain.last_unique [LT α] {a b c : α} (hb : Chain a l b) (hc : Chain a l c) : b = c := by
  induction l generalizing a with
  | nil =>
    have heqb : a = b := hb
    have heqc : a = c := hc
    rw [← heqb, heqc]
  | cons link rest ih => exact ih hb.2.2 hc.2.2

lemma Chain.lt_of_mem [Preorder α] {a b : α} (h : Chain a l b) : ∀ link ∈ l, a < link.2 := by
  induction l generalizing a with
  | nil =>
    intro link hmem
    exact absurd hmem List.not_mem_nil
  | cons first rest ih =>
  obtain ⟨hfrom, hup, hrest⟩ := h
  intro link hmem
  rw [hfrom] at hup
  rcases List.mem_cons.mp hmem with rfl | hmem
  · exact hup
  · exact lt_trans hup (ih hrest link hmem)

lemma Chain.pairwise [Preorder α] {a b : α} (h : Chain a l b) :
    (l.map Prod.snd).Pairwise (· < ·) := by
  induction l generalizing a with
  | nil => exact List.Pairwise.nil
  | cons first rest ih =>
  obtain ⟨-, -, hrest⟩ := h
  rw [List.map_cons, List.pairwise_cons]
  refine ⟨?_, ih hrest⟩
  intro c hc
  obtain ⟨link, hmem, rfl⟩ := List.mem_map.mp hc
  exact hrest.lt_of_mem link hmem

end CodeWide.Lib
