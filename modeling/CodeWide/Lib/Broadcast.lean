import Mathlib.Data.List.Basic

/-!
# Broadcast channels

A channel is one growing list; a receiver is the position of the next value it has not seen.
-/

namespace CodeWide.Lib.Broadcast

variable {α : Type}

inductive Received (α : Type) where
  | empty
  | lagged
  | next (value : α)

def receive (capacity : Nat) (log : List α) (pos : Nat) : Received α × Nat :=
  if capacity < log.length - pos then (.lagged, log.length - capacity)
  else match log[pos]? with
    | none => (.empty, pos)
    | some a => (.next a, pos + 1)

/-- `a` was not sent from position `l` up to `r`. -/
def Clear (log : List α) (a : α) (l r : Nat) : Prop := ∀ i, l ≤ i → i < r → log[i]? ≠ some a

instance [DecidableEq α] (log : List α) (a : α) (l r : Nat) : Decidable (Clear log a l r) :=
  decidable_of_iff (∀ i, i < r → l ≤ i → log[i]? ≠ some a)
    ⟨fun h i hl hr => h i hr hl, fun h i hr hl => h i hl hr⟩

variable {log : List α} {a b : α} {l r capacity pos pos' : Nat}

lemma clear_of_le (h : r ≤ l) : Clear log a l r := by
  intro i hl hr
  omega

lemma Clear.append (h : Clear log a l r) (hr : r ≤ log.length) (more : List α) :
    Clear (log ++ more) a l r := by
  intro i hl hi
  rw [List.getElem?_append_left (by omega)]
  exact h i hl hi

lemma receive_next (h : receive capacity log pos = (.next b, pos')) :
    log[pos]? = some b ∧ pos' = pos + 1 := by
  unfold receive at h
  split at h
  · cases h
  split at h
  · cases h
  · next hget =>
    cases h
    exact ⟨hget, rfl⟩

lemma receive_le {got : Received α} (h : receive capacity log pos = (got, pos'))
    (hpos : pos ≤ log.length) : pos' ≤ log.length := by
  unfold receive at h
  split at h
  · cases h
    exact Nat.sub_le _ _
  split at h
  · cases h
    exact hpos
  · next hget =>
    cases h
    exact (List.getElem?_eq_some_iff.mp hget).1

lemma Clear.next (h : Clear log a l pos) (hnext : receive capacity log pos = (.next b, pos'))
    (hne : b ≠ a) : Clear log a l pos' := by
  obtain ⟨hget, rfl⟩ := receive_next hnext
  intro i hl hi
  rcases Nat.lt_succ_iff_lt_or_eq.mp hi with hlt | rfl
  · exact h i hl hlt
  · rw [hget]
    exact fun heq => hne (Option.some.inj heq)

end CodeWide.Lib.Broadcast
