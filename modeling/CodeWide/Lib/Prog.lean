import Mathlib.Data.List.Basic

/-!
# Programs that ask questions

A task asks its surroundings one question at a time and goes on with the answer.
-/

namespace CodeWide.Lib

inductive Prog (Q : Type) (A : Q → Type) (α : Type) where
  | pure (a : α)
  | ask (q : Q) (k : A q → Prog Q A α)

namespace Prog

variable {Q : Type} {A : Q → Type} {α β : Type}

def bind (p : Prog Q A α) (f : α → Prog Q A β) : Prog Q A β :=
  match p with
  | .pure a => f a
  | .ask q k => .ask q (fun a => (k a).bind f)

instance : Monad (Prog Q A) where
  pure := Prog.pure
  bind := Prog.bind

def query (q : Q) : Prog Q A (A q) := .ask q .pure

def each (l : List α) (f : α → Prog Q A Unit) : Prog Q A Unit :=
  match l with
  | [] => .pure ()
  | a :: rest => (f a).bind (fun _ => each rest f)

def isDone : Prog Q A α → Bool
  | .pure _ => true
  | .ask .. => false

end Prog

/-- How a task may behave, seen from outside. -/
structure Protocol (Q : Type) (A : Q → Type) (S : Type) where
  allowed : S → Q → Prop
  possible : (q : Q) → A q → Prop
  next : S → (q : Q) → A q → S

namespace Prog

variable {Q : Type} {A : Q → Type} {S α β : Type} {P : Protocol Q A S}

/-- The program keeps to the protocol from a state and ends in one that meets `post`. -/
def Follows (P : Protocol Q A S) (post : S → α → Prop) : S → Prog Q A α → Prop
  | s, .pure a => post s a
  | s, .ask q k => P.allowed s q ∧ ∀ a, P.possible q a → Follows P post (P.next s q a) (k a)

variable {s : S} {post : S → α → Prop}

@[simp] lemma follows_pure {a : α} : Follows P post s (.pure a) ↔ post s a := Iff.rfl

lemma follows_ask {q : Q} {k : A q → Prog Q A α} : Follows P post s (.ask q k) ↔
      P.allowed s q ∧ ∀ a, P.possible q a → Follows P post (P.next s q a) (k a) := Iff.rfl

lemma Follows.bind {mid : S → α → Prop} {post : S → β → Prop} {p : Prog Q A α}
    {f : α → Prog Q A β} (hp : Follows P mid s p)
    (hf : ∀ s a, mid s a → Follows P post s (f a)) : Follows P post s (p.bind f) := by
  induction p generalizing s with
  | pure a => exact hf s a hp
  | ask q k ih => exact ⟨hp.1, fun a ha => ih a (hp.2 a ha)⟩

lemma Follows.each {l : List α} {f : α → Prog Q A Unit}
    (h : ∀ a ∈ l, Follows P (fun s' _ => s' = s) s (f a)) :
    Follows P (fun s' _ => s' = s) s (each l f) := by
  induction l with
  | nil => rfl
  | cons a rest ih =>
  refine (h a List.mem_cons_self).bind ?_
  rintro s' - rfl
  exact ih (fun b hb => h b (List.mem_cons_of_mem _ hb))

end Prog

end CodeWide.Lib
