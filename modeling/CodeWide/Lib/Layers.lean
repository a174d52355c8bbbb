import CodeWide.Lib.Table

/-!
# The newest value of a key over layers of tables

Layers are tables on top of each other: a key reads as what the topmost one that holds it holds.
-/

namespace CodeWide.Lib

variable {κ ν : Type} [LinearOrder κ]

def newest : List (Table κ ν) → κ → Option ν
  | [], _ => none
  | t :: rest, k => (newest rest k).or (t.get? k)

@[simp] lemma newest_nil (k : κ) : newest ([] : List (Table κ ν)) k = none := rfl

@[simp] lemma newest_cons (t : Table κ ν) (rest : List (Table κ ν)) (k : κ) :
    newest (t :: rest) k = (newest rest k).or (t.get? k) := rfl

lemma newest_append (l m : List (Table κ ν)) (k : κ) :
    newest (l ++ m) k = (newest m k).or (newest l k) := by
  induction l with
  | nil => simp
  | cons t rest ih => rw [List.cons_append, newest_cons, ih, newest_cons, Option.or_assoc]

lemma newest_eq_none_iff {layers : List (Table κ ν)} {k : κ} :
    newest layers k = none ↔ ∀ t ∈ layers, t.get? k = none := by
  induction layers with
  | nil => simp
  | cons t rest ih => simp [ih, and_comm]

end CodeWide.Lib
