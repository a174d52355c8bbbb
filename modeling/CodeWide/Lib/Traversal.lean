import Mathlib.Data.List.Nodup
import Mathlib.Logic.Relation

/-!
# Traversing a graph from a root

A worklist traversal: `pending` are the nodes to be expanded, `found` the ones reached so far.
-/

namespace CodeWide.Lib

open List

variable {α : Type} {next : α → α → Prop} {root : α}

/-- Every node comes after one that it is a successor of, the successors of the root
excepted. -/
def Ordered (next : α → α → Prop) (root : α) (found : List α) : Prop :=
  ∀ before x after, found = before ++ x :: after → next root x ∨ ∃ y ∈ before, next y x

lemma Ordered.append {found more : List α} (h : Ordered next root found)
    (hmore : ∀ x ∈ more, next root x ∨ ∃ y ∈ found, next y x) :
    Ordered next root (found ++ more) := by
  intro before x after heq
  rcases append_eq_append_iff.mp heq with ⟨l, hbef, hmore'⟩ | ⟨l, hfound, hrest⟩
  · have hx : x ∈ more := by
      rw [hmore']
      exact mem_append_right l mem_cons_self
    refine (hmore x hx).imp id (fun ⟨y, hy, hnext⟩ => ⟨y, ?_, hnext⟩)
    rw [hbef]
    exact mem_append_left l hy
  cases l with
  | nil =>
    have hx : x ∈ more := by
      rw [nil_append] at hrest
      rw [← hrest]
      exact mem_cons_self
    refine (hmore x hx).imp id (fun ⟨y, hy, hnext⟩ => ⟨y, ?_, hnext⟩)
    rw [append_nil] at hfound
    rw [← hfound]
    exact hy
  | cons z l =>
    obtain ⟨rfl, hafter⟩ := cons.inj hrest
    exact h before x l hfound

structure Traversal (next : α → α → Prop) (root : α) (pending found : List α) : Prop where
  once : found.Nodup
  reached : ∀ x ∈ found, Relation.TransGen next root x
  order : Ordered next root found
  waiting : ∀ x ∈ pending, x = root ∨ x ∈ found
  expanded : ∀ x, x = root ∨ x ∈ found → x ∈ pending ∨ ∀ y, next x y → y ∈ found

namespace Traversal

lemma start (next : α → α → Prop) (root : α) : Traversal next root [root] [] where
  once := nodup_nil
  reached _ hx := nomatch hx
  order before x after h := by
    cases before <;> cases h
  waiting x hx := .inl (mem_singleton.mp hx)
  expanded x hx := .inl (mem_singleton.mpr (hx.resolve_right (fun h => nomatch h)))

lemma expand {p : α} {rest found : List α} (h : Traversal next root (p :: rest) found)
    {kids : List α} (hkids : ∀ c, c ∈ kids ↔ next p c ∧ c ∉ found) (hnodup : kids.Nodup)
    {pending : List α} (hpend : ∀ x, x ∈ pending ↔ x ∈ kids ∨ x ∈ rest) :
    Traversal next root pending (found ++ kids) where
  once := h.once.append hnodup (fun c hc hkid => ((hkids c).mp hkid).2 hc)
  reached x hx := by
    rcases mem_append.mp hx with hx | hx
    · exact h.reached x hx
    have hnext := ((hkids x).mp hx).1
    rcases h.waiting p mem_cons_self with rfl | hp
    · exact Relation.TransGen.single hnext
    · exact Relation.TransGen.tail (h.reached p hp) hnext
  order := h.order.append (fun c hc => by
    have hnext := ((hkids c).mp hc).1
    rcases h.waiting p mem_cons_self with rfl | hp
    · exact .inl hnext
    · exact .inr ⟨p, hp, hnext⟩)
  waiting x hx := by
    rcases (hpend x).mp hx with hx | hx
    · exact .inr (mem_append_right found hx)
    · exact (h.waiting x (mem_cons_of_mem p hx)).imp id (mem_append_left kids)
  expanded x hx := by
    by_cases hkid : x ∈ kids
    · exact .inl ((hpend x).mpr (.inl hkid))
    have hold : x = root ∨ x ∈ found :=
      hx.imp id (fun hmem => (mem_append.mp hmem).resolve_right hkid)
    rcases h.expanded x hold with hmem | hcl
    · rcases mem_cons.mp hmem with rfl | hrest
      · refine .inr (fun y hy => mem_append.mpr ?_)
        by_cases hfound : y ∈ found
        · exact .inl hfound
        · exact .inr ((hkids y).mpr ⟨hy, hfound⟩)
      · exact .inl ((hpend x).mpr (.inr hrest))
    · exact .inr (fun y hy => mem_append_left kids (hcl y hy))

lemma mem_iff {found : List α} (h : Traversal next root [] found) (x : α) :
    x ∈ found ↔ Relation.TransGen next root x := by
  have hcl : ∀ x, x = root ∨ x ∈ found → ∀ y, next x y → y ∈ found :=
    fun x hx => (h.expanded x hx).resolve_left (fun hmem => nomatch hmem)
  refine ⟨h.reached x, fun hpath => ?_⟩
  induction hpath with
  | single hnext => exact hcl root (.inl rfl) _ hnext
  | tail _ hnext ih => exact hcl _ (.inr ih) _ hnext

end Traversal

end CodeWide.Lib
