import Mathlib.Order.Lattice
import Mathlib.Data.List.Basic
import Mathlib.Algebra.Ring.Nat

/-!
# Ordered tables

A finite map kept as a list of entries with strictly ascending keys, as a B-tree map iterates it.
-/

namespace CodeWide.Lib

open List Option

structure Table (κ ν : Type) [LinearOrder κ] where
  entries : List (κ × ν)
  sorted : entries.Pairwise (fun a b => a.1 < b.1)

namespace Table

variable {κ ν : Type} [LinearOrder κ]

def empty : Table κ ν := ⟨[], List.Pairwise.nil⟩

instance : EmptyCollection (Table κ ν) := ⟨empty⟩
instance : Inhabited (Table κ ν) := ⟨empty⟩

instance [DecidableEq ν] : DecidableEq (Table κ ν) := fun s t =>
  decidable_of_iff (s.entries = t.entries) (by cases s; cases t; simp)

def lookup (k : κ) : List (κ × ν) → Option ν
  | [] => none
  | (k', v) :: rest => if k = k' then some v else lookup k rest

/-- Ordered insertion; an entry of the same key is overwritten. -/
def insertEntry (k : κ) (v : ν) : List (κ × ν) → List (κ × ν)
  | [] => [(k, v)]
  | (k', v') :: rest =>
    if k = k' then (k, v) :: rest
    else if k < k' then (k, v) :: (k', v') :: rest
    else (k', v') :: insertEntry k v rest

variable {k : κ} {v : ν} {l : List (κ × ν)}

variable {e : κ × ν}

lemma mem_insertEntry (he : e ∈ insertEntry k v l) : e = (k, v) ∨ e ∈ l := by
  induction l with
  | nil => exact .inl (by simpa [insertEntry] using he)
  | cons d rest ih =>
  obtain ⟨k', v'⟩ := d
  unfold insertEntry at he
  split at he
  · rcases mem_cons.mp he with h | h
    · exact .inl h
    · exact .inr (mem_cons_of_mem _ h)
  split at he
  · rcases mem_cons.mp he with h | h
    · exact .inl h
    · exact .inr h
  · rcases mem_cons.mp he with h | h
    · exact .inr (h ▸ mem_cons_self)
    · exact (ih h).imp id (mem_cons_of_mem _)

lemma insertEntry_sorted (k : κ) (v : ν) (h : l.Pairwise (fun a b => a.1 < b.1)) :
    (insertEntry k v l).Pairwise (fun a b => a.1 < b.1) := by
  induction l with
  | nil => simp [insertEntry]
  | cons d rest ih =>
  obtain ⟨k', v'⟩ := d
  obtain ⟨hd, hrest⟩ := pairwise_cons.mp h
  unfold insertEntry
  split
  · rename_i heq
    subst heq
    exact pairwise_cons.mpr ⟨hd, hrest⟩
  split
  · rename_i _ hlt
    refine pairwise_cons.mpr ⟨?_, h⟩
    intro e he
    rcases mem_cons.mp he with rfl | he
    · exact hlt
    · exact lt_trans hlt (hd e he)
  rename_i hne hnlt
  refine pairwise_cons.mpr ⟨?_, ih hrest⟩
  intro e he
  rcases mem_insertEntry he with rfl | he
  · exact lt_of_le_of_ne (not_lt.mp hnlt) (fun h => hne h.symm)
  · exact hd e he

lemma lookup_insertEntry (k k' : κ) (v : ν) (l : List (κ × ν)) :
    lookup k' (insertEntry k v l) = if k' = k then some v else lookup k' l := by
  induction l with
  | nil => simp [insertEntry, lookup]
  | cons d rest ih =>
  obtain ⟨k₀, v₀⟩ := d
  unfold insertEntry
  split
  · rename_i heq
    subst heq
    by_cases h : k' = k <;> simp [lookup, h]
  rename_i hne
  split
  · simp [lookup]
  by_cases h : k' = k
  · subst h
    simp only [lookup, if_neg hne, ih, if_true]
  · simp only [lookup, ih, if_neg h]

lemma lookup_eq_none_of_forall (h : ∀ e ∈ l, k < e.1) : lookup k l = none := by
  induction l with
  | nil => rfl
  | cons d rest ih =>
  obtain ⟨k', v'⟩ := d
  have hlt : k < k' := h (k', v') mem_cons_self
  rw [lookup, if_neg (ne_of_lt hlt)]
  exact ih (fun e he => h e (mem_cons_of_mem _ he))

lemma lookup_eq_some_iff
    (hl : l.Pairwise (fun a b => a.1 < b.1)) : lookup k l = some v ↔ (k, v) ∈ l := by
  induction l with
  | nil => simp [lookup]
  | cons d rest ih =>
  obtain ⟨k', v'⟩ := d
  obtain ⟨hd, hrest⟩ := pairwise_cons.mp hl
  by_cases hk : k = k'
  · subst hk
    simp only [lookup, if_true, some.injEq, mem_cons, Prod.mk.injEq, true_and]
    constructor
    · exact fun h => .inl h.symm
    · rintro (h | h)
      · exact h.symm
      · exact absurd (hd _ h) (lt_irrefl _)
  · simp [lookup, hk, ih hrest]

lemma lookup_filter {p : κ × ν → Bool} (hl : l.Pairwise (fun a b => a.1 < b.1)) :
    lookup k (l.filter p) = (lookup k l).filter (fun v => p (k, v)) := by
  have hf : (l.filter p).Pairwise (fun a b => a.1 < b.1) := hl.sublist filter_sublist
  ext v
  rw [lookup_eq_some_iff hf, filter_eq_some_iff, lookup_eq_some_iff hl, mem_filter]

lemma entries_ext {l m : List (κ × ν)} (hl : l.Pairwise (fun a b => a.1 < b.1))
    (hm : m.Pairwise (fun a b => a.1 < b.1)) (h : ∀ k, lookup k l = lookup k m) : l = m := by
  induction l generalizing m with
  | nil =>
    cases m with
    | nil => rfl
    | cons d rest => simpa [lookup] using h d.1
  | cons d rest ih =>
  obtain ⟨k, v⟩ := d
  obtain ⟨hd, hrest⟩ := pairwise_cons.mp hl
  cases m with
  | nil => simpa [lookup] using h k
  | cons d' rest' =>
  obtain ⟨k', v'⟩ := d'
  obtain ⟨hd', hrest'⟩ := pairwise_cons.mp hm
  have hmem : (k, v) ∈ (k', v') :: rest' :=
    (lookup_eq_some_iff hm).mp ((h k).symm.trans (by simp [lookup]))
  have hmem' : (k', v') ∈ (k, v) :: rest :=
    (lookup_eq_some_iff hl).mp ((h k').trans (by simp [lookup]))
  -- The least keys agree: a head that is not the other head would be below it.
  have heq : (k, v) = (k', v') := by
    rcases mem_cons.mp hmem with he | he
    · exact he
    · rcases mem_cons.mp hmem' with he' | he'
      · exact he'.symm
      · exact absurd (lt_trans (hd _ he') (hd' _ he)) (lt_irrefl _)
  obtain ⟨rfl, rfl⟩ := Prod.mk.inj heq
  congr 1
  refine ih hrest hrest' (fun k₁ => ?_)
  by_cases hk : k₁ = k
  · subst hk
    rw [lookup_eq_none_of_forall hd, lookup_eq_none_of_forall hd']
  · simpa [lookup, hk] using h k₁

def get? (t : Table κ ν) (k : κ) : Option ν := lookup k t.entries

def insert (t : Table κ ν) (k : κ) (v : ν) : Table κ ν :=
  ⟨insertEntry k v t.entries, insertEntry_sorted k v t.sorted⟩

def filter (t : Table κ ν) (p : κ × ν → Bool) : Table κ ν :=
  ⟨t.entries.filter p, t.sorted.sublist filter_sublist⟩

def erase (t : Table κ ν) (k : κ) : Table κ ν := t.filter (fun e => decide (e.1 ≠ k))

def size (t : Table κ ν) : Nat := t.entries.length

def contains (t : Table κ ν) (k : κ) : Bool := (t.get? k).isSome

/-- The entries whose keys are in a decidable set, a range for example, in their order. -/
def scan (t : Table κ ν) (p : κ → Bool) : List (κ × ν) := t.entries.filter (fun e => p e.1)

def first? (t : Table κ ν) : Option (κ × ν) := t.entries.head?

@[simp] lemma get?_empty (k : κ) : (∅ : Table κ ν).get? k = none := rfl

@[simp] lemma entries_empty : (∅ : Table κ ν).entries = [] := rfl

lemma get?_insert (t : Table κ ν) (k k' : κ) (v : ν) :
    (t.insert k v).get? k' = if k' = k then some v else t.get? k' :=
  lookup_insertEntry k k' v t.entries

@[simp] lemma get?_insert_self (t : Table κ ν) (k : κ) (v : ν) :
    (t.insert k v).get? k = some v := by
  simp [get?_insert]

lemma get?_insert_of_ne (t : Table κ ν) {k k' : κ} (v : ν) (h : k' ≠ k) :
    (t.insert k v).get? k' = t.get? k' := by
  simp [get?_insert, h]

lemma get?_filter (t : Table κ ν) (p : κ × ν → Bool) (k : κ) :
    (t.filter p).get? k = (t.get? k).filter (fun v => p (k, v)) :=
  lookup_filter t.sorted

lemma get?_erase (t : Table κ ν) (k k' : κ) :
    (t.erase k).get? k' = if k' = k then none else t.get? k' := by
  unfold erase
  rw [get?_filter]
  cases t.get? k' with
  | none => simp
  | some v => by_cases h : k' = k <;> simp [h]

@[simp] lemma get?_erase_self (t : Table κ ν) (k : κ) : (t.erase k).get? k = none := by
  simp [get?_erase]

lemma get?_erase_of_ne (t : Table κ ν) {k k' : κ} (h : k' ≠ k) :
    (t.erase k).get? k' = t.get? k' := by
  simp [get?_erase, h]

lemma of_get?_insert {t : Table κ ν} {k k' : κ} {v w : ν} (h : (t.insert k v).get? k' = some w) :
    (k' = k ∧ v = w) ∨ (k' ≠ k ∧ t.get? k' = some w) := by
  rw [get?_insert] at h
  split at h
  · next heq => exact .inl ⟨heq, Option.some.inj h⟩
  · next hne => exact .inr ⟨hne, h⟩

lemma of_get?_erase {t : Table κ ν} {k k' : κ} {v : ν} (h : (t.erase k).get? k' = some v) :
    k' ≠ k ∧ t.get? k' = some v := by
  rw [get?_erase] at h
  split at h
  · cases h
  · next hne => exact ⟨hne, h⟩

lemma contains_insert (t : Table κ ν) (k k' : κ) (v : ν) :
    (t.insert k v).contains k' = (decide (k' = k) || t.contains k') := by
  rw [contains, get?_insert]
  by_cases hk : k' = k
  · rw [if_pos hk, decide_eq_true hk]
    rfl
  · rw [if_neg hk, decide_eq_false hk]
    rfl

lemma contains_erase (t : Table κ ν) (k k' : κ) :
    (t.erase k).contains k' = (decide (k' ≠ k) && t.contains k') := by
  rw [contains, get?_erase]
  by_cases hk : k' = k
  · rw [if_pos hk, decide_eq_false (by simpa using hk)]
    rfl
  · rw [if_neg hk, decide_eq_true hk]
    rfl

variable {t : Table κ ν}

lemma contains_insert_iff {k k' : κ} :
    (t.insert k v).contains k' = true ↔ k' = k ∨ t.contains k' = true := by
  rw [contains_insert, Bool.or_eq_true, decide_eq_true_eq]

lemma contains_erase_iff {k k' : κ} :
    (t.erase k).contains k' = true ↔ k' ≠ k ∧ t.contains k' = true := by
  rw [contains_erase, Bool.and_eq_true, decide_eq_true_eq]

lemma mem_entries_iff : (k, v) ∈ t.entries ↔ t.get? k = some v :=
  (lookup_eq_some_iff t.sorted).symm

lemma mem_scan {p : κ → Bool} : e ∈ t.scan p ↔ t.get? e.1 = some e.2 ∧ p e.1 = true := by
  unfold scan
  rw [mem_filter, mem_entries_iff]

lemma ext_get? {s t : Table κ ν} (h : ∀ k, s.get? k = t.get? k) : s = t := by
  have := entries_ext s.sorted t.sorted h
  cases s
  cases t
  simpa using this

lemma keys_nodup (t : Table κ ν) : (t.entries.map Prod.fst).Nodup := by
  rw [List.Nodup, pairwise_map]
  exact t.sorted.imp (fun h => ne_of_lt h)

lemma nodup_entries (t : Table κ ν) : t.entries.Nodup :=
  t.sorted.imp (fun hlt heq => absurd (congrArg Prod.fst heq) (ne_of_lt hlt))

lemma entries_insert_perm (v : ν) (h : t.get? k = none) :
    (t.insert k v).entries.Perm ((k, v) :: t.entries) := by
  have hfresh : (k, v) ∉ t.entries := by
    rw [mem_entries_iff, h]
    simp
  refine (perm_ext_iff_of_nodup (nodup_entries _) (nodup_cons.mpr ⟨hfresh, nodup_entries t⟩)).mpr ?_
  rintro ⟨k', v'⟩
  rw [mem_entries_iff, get?_insert, mem_cons, mem_entries_iff, Prod.mk.injEq]
  by_cases hk : k' = k
  · subst hk
    simp [h, eq_comm]
  · simp [hk]

lemma entries_erase_perm (h : t.get? k = some v) :
    t.entries.Perm ((k, v) :: (t.erase k).entries) := by
  have hgone : (k, v) ∉ (t.erase k).entries := by
    rw [mem_entries_iff, get?_erase_self]
    simp
  refine (perm_ext_iff_of_nodup (nodup_entries t) (nodup_cons.mpr ⟨hgone, nodup_entries _⟩)).mpr ?_
  rintro ⟨k', v'⟩
  rw [mem_entries_iff, mem_cons, mem_entries_iff, get?_erase, Prod.mk.injEq]
  by_cases hk : k' = k
  · subst hk
    simp [h, eq_comm]
  · simp [hk]

lemma size_insert_of_none (v : ν) (h : t.get? k = none) : (t.insert k v).size = t.size + 1 :=
  (entries_insert_perm v h).length_eq

lemma size_erase_of_some (h : t.get? k = some v) : (t.erase k).size + 1 = t.size :=
  (entries_erase_perm h).length_eq.symm

lemma size_insert_of_some (w : ν) (h : t.get? k = some v) : (t.insert k w).size = t.size := by
  have herase : (t.insert k w).erase k = t.erase k := by
    refine ext_get? (fun k' => ?_)
    rw [get?_erase, get?_erase, get?_insert]
    split <;> rfl
  have hinsert := size_erase_of_some (get?_insert_self t k w)
  have hbef := size_erase_of_some h
  rw [herase] at hinsert
  omega

lemma erase_of_none (h : t.get? k = none) : t.erase k = t := by
  refine ext_get? (fun k' => ?_)
  rw [get?_erase]
  split
  · rename_i hk
    rw [hk, h]
  · rfl

lemma insert_of_some (h : t.get? k = some v) : t.insert k v = t := by
  refine ext_get? (fun k' => ?_)
  rw [get?_insert]
  split
  · rename_i hk
    rw [hk, h]
  · rfl

lemma first?_eq_some (h : t.first? = some (k, v)) : t.get? k = some v :=
  mem_entries_iff.mp (mem_of_head? h)

lemma first?_eq_none (h : t.first? = none) (k : κ) : t.get? k = none := by
  have hnil : t.entries = [] := head?_eq_none_iff.mp h
  simp [get?, hnil, lookup]

lemma entries_insert_of_forall_lt (v : ν)
    (h : ∀ e ∈ t.entries, e.1 < k) : (t.insert k v).entries = t.entries ++ [(k, v)] := by
  change insertEntry k v t.entries = t.entries ++ [(k, v)]
  revert h
  induction t.entries with
  | nil => intro _; rfl
  | cons d rest ih =>
  intro h
  have hlt : d.1 < k := h d mem_cons_self
  have hrest := ih (fun e he => h e (mem_cons_of_mem _ he))
  simp [insertEntry, (ne_of_lt hlt).symm, not_lt_of_gt hlt, hrest]

lemma entries_erase_head {rest : List (κ × ν)}
    (h : t.entries = e :: rest) : (t.erase e.1).entries = rest := by
  have hsort := t.sorted
  rw [h, pairwise_cons] at hsort
  change t.entries.filter (fun d => decide (d.1 ≠ e.1)) = rest
  rw [h, filter_cons_of_neg (by simp)]
  rw [filter_eq_self]
  intro d hd
  simpa using (ne_of_lt (hsort.1 d hd)).symm

lemma get?_foldl_of_sorted {μ : Type} {modify : Table κ μ → κ × ν → Table κ μ}
    {g : ν → Option μ → Option μ}
    (h : ∀ t e k, (modify t e).get? k = if k = e.1 then g e.2 (t.get? k) else t.get? k)
    (hl : l.Pairwise (fun a b => a.1 < b.1)) (t : Table κ μ) (k : κ) :
    (l.foldl modify t).get? k = (lookup k l).elim (t.get? k) (fun v => g v (t.get? k)) := by
  induction l generalizing t with
  | nil => rfl
  | cons e rest ih =>
  obtain ⟨k', v⟩ := e
  obtain ⟨hhead, hrest⟩ := pairwise_cons.mp hl
  rw [foldl_cons, ih hrest, h, lookup]
  by_cases heq : k = k'
  · subst heq
    rw [if_pos rfl, if_pos rfl, lookup_eq_none_of_forall (fun e he => hhead e he)]
    rfl
  · rw [if_neg heq, if_neg heq]

lemma get?_foldl_entries {μ : Type} {modify : Table κ μ → κ × ν → Table κ μ}
    {g : ν → Option μ → Option μ}
    (h : ∀ t e k, (modify t e).get? k = if k = e.1 then g e.2 (t.get? k) else t.get? k)
    (s : Table κ ν) (t : Table κ μ) (k : κ) :
    (s.entries.foldl modify t).get? k = (s.get? k).elim (t.get? k) (fun v => g v (t.get? k)) :=
  get?_foldl_of_sorted h s.sorted t k

def sum (t : Table κ ν) (f : ν → Nat) : Nat := (t.entries.map (fun e => f e.2)).sum

lemma sum_erase (t : Table κ ν) (k : κ) (f : ν → Nat) :
    (t.erase k).sum f + ((t.get? k).map f).getD 0 = t.sum f := by
  cases h : t.get? k with
  | none =>
    rw [erase_of_none h]
    rfl
  | some v =>
  have hperm := ((entries_erase_perm h).map (fun e => f e.2)).sum_nat
  rw [map_cons, sum_cons] at hperm
  exact (hperm.trans (Nat.add_comm _ _)).symm

lemma sum_insert (t : Table κ ν) (k : κ) (v : ν) (f : ν → Nat) :
    (t.insert k v).sum f + ((t.get? k).map f).getD 0 = t.sum f + f v := by
  have hsame : (t.insert k v).erase k = t.erase k := by
    refine ext_get? (fun k' => ?_)
    rw [get?_erase, get?_erase, get?_insert]
    split <;> rfl
  have hafter := sum_erase (t.insert k v) k f
  have hbef := sum_erase t k f
  rw [hsame, get?_insert_self, map_some, getD_some] at hafter
  omega

lemma sum_of_replaced {s t : Table κ ν} {v : Option ν}
    (h : ∀ k', t.get? k' = if k' = k then v else s.get? k') (f : ν → Nat) :
    t.sum f + ((s.get? k).map f).getD 0 = s.sum f + (v.map f).getD 0 := by
  cases v with
  | none =>
    have ht : t = s.erase k := ext_get? (fun k' => by rw [h, get?_erase])
    rw [ht, sum_erase]
    rfl
  | some v =>
  have ht : t = s.insert k v := ext_get? (fun k' => by rw [h, get?_insert])
  rw [ht, sum_insert]
  rfl

lemma le_sum (h : t.get? k = some v) (f : ν → Nat) : f v ≤ t.sum f := by
  have hsum := sum_erase t k f
  rw [h, map_some, getD_some] at hsum
  omega

lemma sum_le_sum {f g : ν → Nat} (h : ∀ v, f v ≤ g v) : t.sum f ≤ t.sum g := by
  unfold sum
  induction t.entries with
  | nil => exact Nat.le_refl 0
  | cons e rest ih =>
    simp only [map_cons, sum_cons]
    exact Nat.add_le_add (h e.2) ih

lemma sum_eq_zero {f : ν → Nat} (h : ∀ k v, t.get? k = some v → f v = 0) : t.sum f = 0 := by
  refine List.sum_eq_zero_iff_forall_eq_nat.mpr (fun n hn => ?_)
  obtain ⟨e, he, rfl⟩ := List.mem_map.mp hn
  exact h e.1 e.2 (mem_entries_iff.mp he)

lemma size_erase_le (t : Table κ ν) (k : κ) : (t.erase k).size ≤ t.size :=
  length_filter_le ..

lemma size_eq_of_keys {s t : Table κ ν} (h : ∀ k, (s.get? k).isSome = (t.get? k).isSome) :
    s.size = t.size := by
  have hkey : ∀ {u : Table κ ν} {k : κ}, k ∈ u.entries.map Prod.fst ↔ (u.get? k).isSome = true := by
    intro u k
    rw [List.mem_map, isSome_iff_exists]
    constructor
    · rintro ⟨e, he, rfl⟩
      exact ⟨e.2, mem_entries_iff.mp he⟩
    · rintro ⟨v, hv⟩
      exact ⟨(k, v), mem_entries_iff.mpr hv, rfl⟩
  have hperm : (s.entries.map Prod.fst).Perm (t.entries.map Prod.fst) := by
    refine (perm_ext_iff_of_nodup (keys_nodup s) (keys_nodup t)).mpr (fun k => ?_)
    rw [hkey, hkey, h k]
  have hlen := hperm.length_eq
  rw [length_map, length_map] at hlen
  exact hlen

@[simp] lemma contains_iff : t.contains k = true ↔ ∃ v, t.get? k = some v :=
  isSome_iff_exists

end Table

end CodeWide.Lib
