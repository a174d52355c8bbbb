import Mathlib.Data.List.Nodup

/-!
# Maps that keep the order of insertion

A finite map whose entries are listed in the order in which their keys were first put.
-/

namespace CodeWide.Lib

open List

structure LinkedMap (κ ν : Type) [DecidableEq κ] where
  entries : List (κ × ν)
  nodup : (entries.map Prod.fst).Nodup

namespace LinkedMap

variable {κ ν : Type} [DecidableEq κ]

def empty : LinkedMap κ ν := ⟨[], nodup_nil⟩

instance : EmptyCollection (LinkedMap κ ν) := ⟨empty⟩

def values (m : LinkedMap κ ν) : List ν := m.entries.map Prod.snd

def size (m : LinkedMap κ ν) : Nat := m.entries.length

def get? (m : LinkedMap κ ν) (k : κ) : Option ν :=
  (m.entries.find? (fun e => decide (e.1 = k))).map Prod.snd

def contains (m : LinkedMap κ ν) (k : κ) : Bool := (m.get? k).isSome

variable {m : LinkedMap κ ν} {k : κ}

lemma get?_eq_some_iff {v : ν} : m.get? k = some v ↔ (k, v) ∈ m.entries := by
  unfold get?
  constructor
  · intro h
    obtain ⟨⟨k', v'⟩, hfind, rfl⟩ := Option.map_eq_some_iff.mp h
    have hk : k' = k := by simpa using find?_some hfind
    subst hk
    exact mem_of_find?_eq_some hfind
  intro hmem
  cases hfind : m.entries.find? (fun e => decide (e.1 = k)) with
  | none =>
    have hno := find?_eq_none.mp hfind (k, v) hmem
    simp at hno
  | some e =>
  have hk : e.1 = k := by simpa using find?_some hfind
  have heq : e = (k, v) :=
    inj_on_of_nodup_map m.nodup (mem_of_find?_eq_some hfind) hmem hk
  rw [heq]
  rfl

lemma get?_eq_none_iff : m.get? k = none ↔ k ∉ m.entries.map Prod.fst := by
  unfold get?
  rw [Option.map_eq_none_iff, find?_eq_none, mem_map]
  constructor
  · rintro h ⟨e, he, rfl⟩
    exact absurd (decide_eq_true rfl) (h e he)
  · intro h e he hk
    exact h ⟨e, he, of_decide_eq_true hk⟩

def replace (k : κ) (v : ν) (entries : List (κ × ν)) : List (κ × ν) :=
  entries.map (fun e => if e.1 = k then (k, v) else e)

lemma map_fst_replace (k : κ) (v : ν) (entries : List (κ × ν)) :
    (replace k v entries).map Prod.fst = entries.map Prod.fst := by
  unfold replace
  rw [map_map]
  refine map_congr_left (fun e _ => ?_)
  by_cases h : e.1 = k <;> simp [h]

def put (m : LinkedMap κ ν) (k : κ) (v : ν) : LinkedMap κ ν :=
  if h : k ∈ m.entries.map Prod.fst then
    ⟨replace k v m.entries, by rw [map_fst_replace]; exact m.nodup⟩
  else
    ⟨m.entries ++ [(k, v)], by
      rw [map_append]
      refine m.nodup.append (nodup_singleton k) (fun _ hk hmem => h ?_)
      rwa [mem_singleton.mp hmem] at hk⟩

def erase (m : LinkedMap κ ν) (k : κ) : LinkedMap κ ν :=
  ⟨m.entries.filter (fun e => decide (e.1 ≠ k)),
    m.nodup.sublist (List.Sublist.map Prod.fst filter_sublist)⟩

lemma ext_entries {m n : LinkedMap κ ν} (h : m.entries = n.entries) : m = n := by
  cases m
  cases n
  cases h
  rfl

variable (v : ν)

lemma entries_put_of_new (h : m.get? k = none) : (m.put k v).entries = m.entries ++ [(k, v)] := by
  unfold put
  rw [dif_neg (get?_eq_none_iff.mp h)]

lemma values_put_of_new (h : m.get? k = none) : (m.put k v).values = m.values ++ [v] := by
  unfold values
  rw [entries_put_of_new v h, map_append]
  rfl

lemma size_put_of_new (h : m.get? k = none) : (m.put k v).size = m.size + 1 := by
  unfold size
  rw [entries_put_of_new v h, length_append]
  rfl

lemma mem_erase {e : κ × ν} : e ∈ (m.erase k).entries ↔ e ∈ m.entries ∧ e.1 ≠ k := by
  unfold erase
  simp

lemma get?_erase_self (m : LinkedMap κ ν) (k : κ) : (m.erase k).get? k = none := by
  rw [get?_eq_none_iff, mem_map]
  rintro ⟨e, he, hk⟩
  exact (mem_erase.mp he).2 hk

lemma entries_erase_sublist (m : LinkedMap κ ν) (k : κ) : (m.erase k).entries.Sublist m.entries :=
  filter_sublist

lemma erase_put_of_new (h : m.get? k = none) : (m.put k v).erase k = m := by
  refine ext_entries ?_
  change (m.put k v).entries.filter _ = m.entries
  rw [entries_put_of_new v h, filter_append]
  have hrest : m.entries.filter (fun e => decide (e.1 ≠ k)) = m.entries := by
    refine filter_eq_self.mpr (fun e he => decide_eq_true ?_)
    rintro rfl
    exact get?_eq_none_iff.mp h (mem_map_of_mem he)
  rw [hrest]
  simp

lemma values_perm_of_get? {v : ν} (h : m.get? k = some v) :
    m.values.Perm (v :: (m.erase k).values) := by
  have hmem := get?_eq_some_iff.mp h
  have hnodup : m.entries.Nodup := List.Nodup.of_map Prod.fst m.nodup
  have hperm : m.entries.Perm ((k, v) :: (m.erase k).entries) := by
    refine (perm_ext_iff_of_nodup hnodup ?_).mpr (fun e => ?_)
    · refine nodup_cons.mpr ⟨fun hgone => ?_, hnodup.sublist filter_sublist⟩
      exact (mem_erase.mp hgone).2 rfl
    rw [mem_cons, mem_erase]
    constructor
    · intro he
      by_cases hk : e.1 = k
      · exact .inl (inj_on_of_nodup_map m.nodup he hmem hk)
      · exact .inr ⟨he, hk⟩
    · rintro (rfl | ⟨he, -⟩)
      · exact hmem
      · exact he
  exact hperm.map Prod.snd

lemma mem_values {v : ν} : v ∈ m.values ↔ ∃ k, (k, v) ∈ m.entries := by
  unfold values
  rw [mem_map]
  constructor
  · rintro ⟨⟨k, w⟩, he, rfl⟩
    exact ⟨k, he⟩
  · rintro ⟨k, he⟩
    exact ⟨(k, v), he, rfl⟩

end LinkedMap

end CodeWide.Lib
