import Mathlib.Data.List.Basic

/-!
# Operations that report events

An operation takes a state to the next one and to the events it reports.
-/

namespace CodeWide.Lib

open List

variable {σ β ε ι : Type}

def andThen (r : σ × List ε) (f : σ → σ × List ε) : σ × List ε :=
  let s := f r.1
  (s.1, r.2 ++ s.2)

def emitEach (f : σ → ι → σ × List ε) (s : σ) : List ι → σ × List ε
  | [] => (s, [])
  | i :: rest => andThen (f s i) (fun s => emitEach f s rest)

variable (f : σ → ι → σ × List ε)

inductive Trail (move : β → List ε → β → Prop) : β → List ε → β → Prop where
  | refl (b : β) : Trail move b [] b
  | head {b c d : β} {first rest : List ε} (step : move b first c) (tail : Trail move c rest d) :
      Trail move b (first ++ rest) d

namespace Trail

variable {move : β → List ε → β → Prop} {b c d : β} {first rest : List ε}

lemma one (step : move b first c) : Trail move b first c := by
  have h := Trail.head step (Trail.refl c)
  rwa [append_nil] at h

lemma trans (h : Trail move b first c) (tail : Trail move c rest d) :
    Trail move b (first ++ rest) d := by
  induction h with
  | refl b => exact tail
  | head step _ ih =>
    rw [append_assoc]
    exact Trail.head step (ih tail)

lemma keeps {I : List ε → β → Prop}
    (hmove : ∀ {log b events c}, I log b → move b events c → I (log ++ events) c)
    (h : Trail move b first c) {log : List ε} (hb : I log b) : I (log ++ first) c := by
  induction h generalizing log with
  | refl b => rwa [append_nil]
  | head step _ ih =>
    rw [← append_assoc]
    exact ih (hmove hb step)

lemma andThen (view : σ → β) {s : σ} {r : σ × List ε} {f : σ → σ × List ε}
    (hr : Trail move (view s) r.2 (view r.1))
    (hf : Trail move (view r.1) (f r.1).2 (view (f r.1).1)) :
    Trail move (view s) (Lib.andThen r f).2 (view (Lib.andThen r f).1) :=
  hr.trans hf

lemma emitEach (view : σ → β) {f : σ → ι → σ × List ε}
    (hf : ∀ s i, Trail move (view s) (f s i).2 (view (f s i).1)) (s : σ) (inputs : List ι) :
    Trail move (view s) (Lib.emitEach f s inputs).2 (view (Lib.emitEach f s inputs).1) := by
  induction inputs generalizing s with
  | nil => exact Trail.refl _
  | cons i rest ih => exact Trail.andThen view (hf s i) (ih _)

end Trail

def EachAfter (allowed : List ε → ε → Prop) (log : List ε) : Prop :=
  ∀ before e after, log = before ++ e :: after → allowed before e

namespace EachAfter

variable {allowed : List ε → ε → Prop} {log : List ε}

lemma nil : EachAfter allowed [] := by
  intro before e after h
  exact absurd h (by simp)

lemma concat {e : ε} (h : EachAfter allowed log) (he : allowed log e) :
    EachAfter allowed (log ++ [e]) := by
  intro before e' after heq
  rcases eq_nil_or_concat after with rfl | ⟨front, last, rfl⟩
  · obtain ⟨rfl, hlast⟩ := append_inj' heq rfl
    rw [cons.injEq] at hlast
    exact hlast.1 ▸ he
  · rw [concat_eq_append, ← cons_append, ← append_assoc] at heq
    exact h before e' front (append_inj' heq rfl).1

end EachAfter

end CodeWide.Lib
