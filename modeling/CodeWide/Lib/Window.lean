import CodeWide.Lib.Table
import Mathlib.Data.Nat.Basic

/-!
# Windows of a numbered log

`Window t log dropped` says that a table is a numbered log without its first `dropped` entries.
-/

namespace CodeWide.Lib

open List

variable {α : Type}

def numbered (n : Nat) : List α → List (Nat × α)
  | [] => []
  | a :: rest => (n + 1, a) :: numbered (n + 1) rest

variable (n : Nat)

@[simp] lemma length_numbered (l : List α) : (numbered n l).length = l.length := by
  induction l generalizing n with
  | nil => rfl
  | cons a rest ih => simp [numbered, ih]

lemma numbered_append (l m : List α) :
    numbered n (l ++ m) = numbered n l ++ numbered (n + l.length) m := by
  induction l generalizing n with
  | nil => rfl
  | cons a rest ih =>
  have heq : n + (a :: rest).length = n + 1 + rest.length := by
    rw [length_cons]
    omega
  rw [cons_append, numbered, ih, heq]
  rfl

variable {l : List α}

lemma mem_numbered {n k : Nat} {a : α} :
    (k, a) ∈ numbered n l ↔ n < k ∧ l[k - n - 1]? = some a := by
  induction l generalizing n with
  | nil => simp [numbered]
  | cons b rest ih =>
  simp only [numbered, mem_cons, Prod.mk.injEq, ih]
  constructor
  · rintro (⟨rfl, rfl⟩ | ⟨hlt, hget⟩)
    · exact ⟨Nat.lt_succ_self n, by simp⟩
    · have heq : k - n - 1 = (k - (n + 1) - 1) + 1 := by omega
      rw [heq, getElem?_cons_succ]
      exact ⟨by omega, hget⟩
  rintro ⟨hlt, hget⟩
  by_cases hk : k = n + 1
  · subst hk
    rw [Nat.add_sub_cancel_left] at hget
    simp only [Nat.sub_self, getElem?_cons_zero, Option.some.injEq] at hget
    exact .inl ⟨rfl, hget.symm⟩
  · have heq : k - n - 1 = (k - (n + 1) - 1) + 1 := by omega
    rw [heq, getElem?_cons_succ] at hget
    exact .inr ⟨by omega, hget⟩

lemma numbered_le {n : Nat} {e : Nat × α} (he : e ∈ numbered n l) :
    n < e.1 ∧ e.1 ≤ n + l.length := by
  obtain ⟨k, a⟩ := e
  obtain ⟨hlt, hget⟩ := mem_numbered.mp he
  obtain ⟨hbound, -⟩ := List.getElem?_eq_some_iff.mp hget
  dsimp only
  omega

lemma map_fst_numbered (l : List α) : (numbered n l).map Prod.fst = range' (n + 1) l.length := by
  induction l generalizing n with
  | nil => rfl
  | cons a rest ih => simp [numbered, ih, range'_succ]

lemma map_snd_numbered (l : List α) : (numbered n l).map Prod.snd = l := by
  induction l generalizing n with
  | nil => rfl
  | cons a rest ih => simp [numbered, ih]

lemma filter_numbered {n c : Nat} (l : List α) (h : n ≤ c) :
    (numbered n l).filter (fun e => decide (c < e.1)) = numbered c (l.drop (c - n)) := by
  induction l generalizing n with
  | nil => simp [numbered]
  | cons a rest ih =>
  by_cases hc : c = n
  · subst hc
    rw [Nat.sub_self, drop_zero, filter_eq_self]
    intro e he
    exact decide_eq_true (numbered_le he).1
  have heq : c - n = (c - (n + 1)) + 1 := by omega
  have hneg : ¬ c < n + 1 := by omega
  rw [numbered, heq, drop_succ_cons, ← ih (by omega), filter_cons_of_neg]
  simpa using hneg

/-- The entries of a log after the first `a`, up to number `b`. -/
def slice (log : List α) (a b : Nat) : List α := (log.drop a).take (b - a)

lemma slice_self (log : List α) (a : Nat) : slice log a a = [] := by
  simp [slice]

lemma slice_length (log : List α) (a : Nat) : slice log a log.length = log.drop a := by
  rw [slice, ← length_drop, take_length]

variable {a b : Nat}

lemma length_slice {log : List α} (hb : b ≤ log.length) : (slice log a b).length = b - a := by
  rw [slice, length_take, length_drop]
  omega

lemma slice_append {log : List α} (more : List α) (hb : b ≤ log.length) :
    slice (log ++ more) a b = slice log a b := by
  unfold slice
  by_cases ha : a ≤ log.length
  · rw [drop_append_of_le_length ha, take_append_of_le_length]
    rw [length_drop]
    omega
  · have hzero : b - a = 0 := by omega
    rw [hzero, take_zero, take_zero]

lemma slice_eq_cons {log rest : List α} {x : α} (h : slice log a b = x :: rest) :
    a < b ∧ log[a]? = some x ∧ rest = slice log (a + 1) b := by
  unfold slice at h ⊢
  have hlt : a < b := by
    by_contra hge
    have hzero : b - a = 0 := by omega
    rw [hzero, take_zero] at h
    exact cons_ne_nil x rest h.symm
  have heq : b - a = (b - (a + 1)) + 1 := by omega
  cases hdrop : log.drop a with
  | nil => exact absurd h (by simp [hdrop])
  | cons y tail =>
  rw [hdrop, heq, take_succ_cons, cons.injEq] at h
  obtain ⟨rfl, rfl⟩ := h
  refine ⟨hlt, ?_, ?_⟩
  · have hhead : (log.drop a)[0]? = some y := by rw [hdrop]; rfl
    rwa [getElem?_drop] at hhead
  · have htail : log.drop (a + 1) = tail := by
      rw [← drop_drop, hdrop, drop_one, tail_cons]
    rw [htail]

lemma slice_succ {log : List α} {x : α} (hab : a ≤ b) (hx : log[b]? = some x) :
    slice log a (b + 1) = slice log a b ++ [x] := by
  unfold slice
  have heq : b + 1 - a = (b - a) + 1 := by omega
  have hget : (log.drop a)[b - a]? = some x := by
    rw [getElem?_drop]
    have hsum : a + (b - a) = b := by omega
    rw [hsum, hx]
  rw [heq, take_add_one, hget]
  rfl

lemma getElem?_slice {log : List α} {a b i : Nat} (hi : a + i < b) :
    (slice log a b)[i]? = log[a + i]? := by
  unfold slice
  rw [getElem?_take_of_lt (by omega), getElem?_drop]

lemma numbered_eq_cons {n k : Nat} {a : α} {rest : List (Nat × α)}
    (h : numbered n l = (k, a) :: rest) :
    k = n + 1 ∧ ∃ tail, l = a :: tail ∧ rest = numbered (n + 1) tail := by
  cases l with
  | nil => exact absurd h (by simp [numbered])
  | cons b tail =>
  rw [numbered, cons.injEq, Prod.mk.injEq] at h
  obtain ⟨⟨rfl, rfl⟩, rfl⟩ := h
  exact ⟨rfl, tail, rfl, rfl⟩

structure Window (t : Table Nat α) (log : List α) (dropped : Nat) : Prop where
  entries : t.entries = numbered dropped (log.drop dropped)
  dropped_le : dropped ≤ log.length

namespace Window

variable {t : Table Nat α} {log : List α} {dropped : Nat}

lemma empty : Window (∅ : Table Nat α) [] 0 := ⟨rfl, le_rfl⟩

section

variable (h : Window t log dropped)
include h

lemma size : t.size = log.length - dropped := by
  rw [Table.size, h.entries, length_numbered, length_drop]

variable {k : Nat}

lemma get?_eq_some_iff {a : α} : t.get? k = some a ↔ dropped < k ∧ log[k - 1]? = some a := by
  rw [← Table.mem_entries_iff, h.entries, mem_numbered, getElem?_drop]
  refine and_congr_right (fun hlt => ?_)
  have heq : dropped + (k - dropped - 1) = k - 1 := by omega
  rw [heq]

lemma get?_isSome_iff : (∃ a, t.get? k = some a) ↔ dropped < k ∧ k ≤ log.length := by
  simp only [h.get?_eq_some_iff, exists_and_left]
  refine and_congr_right (fun hlt => ?_)
  constructor
  · rintro ⟨a, ha⟩
    obtain ⟨hbound, -⟩ := List.getElem?_eq_some_iff.mp ha
    omega
  · intro hle
    exact ⟨_, List.getElem?_eq_getElem (by omega)⟩

lemma insert (a : α) : Window (t.insert (log.length + 1) a) (log ++ [a]) dropped := by
  have hle := h.dropped_le
  refine ⟨?_, by rw [length_append]; omega⟩
  have hbelow : ∀ e ∈ t.entries, e.1 < log.length + 1 := by
    intro e he
    rw [h.entries] at he
    have hbound := (numbered_le he).2
    rw [length_drop] at hbound
    omega
  rw [Table.entries_insert_of_forall_lt a hbelow, h.entries, drop_append_of_le_length hle,
    numbered_append, length_drop]
  have heq : dropped + (log.length - dropped) = log.length := by omega
  rw [heq]
  rfl

lemma first?_eq {a : α} (hfirst : t.first? = some (k, a)) :
    k = dropped + 1 ∧ log[dropped]? = some a := by
  unfold Table.first? at hfirst
  have hmem : (k, a) ∈ numbered dropped (log.drop dropped) := by
    rw [← h.entries]
    exact mem_of_head? hfirst
  cases hdrop : log.drop dropped with
  | nil => simp [hdrop, numbered] at hmem
  | cons b rest =>
  rw [h.entries, hdrop] at hfirst
  cases hfirst
  have hzero : (log.drop dropped)[0]? = some a := by rw [hdrop]; rfl
  rw [getElem?_drop] at hzero
  exact ⟨rfl, by simpa using hzero⟩

lemma first?_eq_none_iff : t.first? = none ↔ dropped = log.length := by
  have hle := h.dropped_le
  unfold Table.first?
  rw [head?_eq_none_iff, h.entries, ← length_eq_zero_iff, length_numbered, length_drop]
  omega

lemma erase_first {a : α}
    (hfirst : t.first? = some (k, a)) : Window (t.erase k) log (dropped + 1) := by
  have hlt : dropped < log.length := by
    obtain ⟨-, hget⟩ := h.first?_eq hfirst
    exact (List.getElem?_eq_some_iff.mp hget).1
  have hcons : t.entries = (k, a) :: numbered (dropped + 1) (log.drop (dropped + 1)) := by
    unfold Table.first? at hfirst
    have hent := h.entries
    rw [drop_eq_getElem_cons hlt, numbered] at hent
    rw [hent] at hfirst ⊢
    cases hfirst
    rfl
  exact ⟨Table.entries_erase_head hcons, hlt⟩

lemma entries_above {c : Nat} (hc : dropped ≤ c) :
    t.entries.filter (fun e => decide (c < e.1)) = numbered c (log.drop c) := by
  rw [h.entries, filter_numbered _ hc, drop_drop]
  have heq : dropped + (c - dropped) = c := by omega
  rw [heq]

end

end Window

end CodeWide.Lib
