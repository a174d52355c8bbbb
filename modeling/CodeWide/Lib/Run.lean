import Mathlib.Data.List.Basic

/-!
# Runs of a transition function

A run of `step : σ → ι → σ` is a list of inputs, executed from the left.
-/

namespace CodeWide.Lib

variable {σ ι : Type} {step : σ → ι → σ}

def exec (step : σ → ι → σ) (s : σ) (inputs : List ι) : σ := inputs.foldl step s

@[simp] lemma exec_nil (s : σ) : exec step s [] = s := rfl

@[simp] lemma exec_cons (s : σ) (i : ι) (rest : List ι) :
    exec step s (i :: rest) = exec step (step s i) rest := rfl

lemma exec_append (s : σ) (l m : List ι) : exec step s (l ++ m) = exec step (exec step s l) m :=
  List.foldl_append

lemma mem_concat {α : Type} {a b : α} {l : List α} : a ∈ l ++ [b] ↔ a ∈ l ∨ a = b := by
  rw [List.mem_append, List.mem_singleton]

lemma exec_invariant {P : σ → Prop} (hstep : ∀ s i, P s → P (step s i)) {s : σ} (hs : P s)
    (inputs : List ι) : P (exec step s inputs) := by
  induction inputs generalizing s with
  | nil => exact hs
  | cons i rest ih => exact ih (hstep s i hs)

/-- Every step of the run starts in a state that meets `Q` for its input. -/
def Always (step : σ → ι → σ) (Q : σ → ι → Prop) : σ → List ι → Prop
  | _, [] => True
  | s, i :: rest => Q s i ∧ Always step Q (step s i) rest

instance Always.decidable {Q : σ → ι → Prop} [∀ s i, Decidable (Q s i)] :
    (s : σ) → (inputs : List ι) → Decidable (Always step Q s inputs)
  | _, [] => isTrue trivial
  | s, i :: rest =>
    @instDecidableAnd (Q s i) (Always step Q (step s i) rest) _ (Always.decidable (step s i) rest)

lemma Always.imp {Q M : σ → ι → Prop} (h : ∀ s i, Q s i → M s i) {s : σ} {inputs : List ι}
    (hrun : Always step Q s inputs) : Always step M s inputs := by
  induction inputs generalizing s with
  | nil => trivial
  | cons i rest ih => exact ⟨h s i hrun.1, ih hrun.2⟩

variable {Q : σ → ι → Prop}

lemma always_append {s : σ} {l m : List ι} :
    Always step Q s (l ++ m) ↔ Always step Q s l ∧ Always step Q (exec step s l) m := by
  induction l generalizing s with
  | nil => exact (and_iff_right trivial).symm
  | cons i rest ih =>
    rw [List.cons_append, Always, Always, ih, and_assoc]
    rfl

lemma exec_invariant_of_always {P : σ → Prop} {Q : σ → ι → Prop}
    (hstep : ∀ s i, P s → Q s i → P (step s i)) {s : σ} (hs : P s) {inputs : List ι}
    (hrun : Always step Q s inputs) : P (exec step s inputs) := by
  induction inputs generalizing s with
  | nil => exact hs
  | cons i rest ih => exact ih (hstep s i hs hrun.1) hrun.2

/-- A run of steps that meet `Q` has the property `M` at each of them, if an invariant that
such steps keep gives it. -/
lemma Always.of_invariant {P : σ → Prop} {Q M : σ → ι → Prop}
    (hstep : ∀ s i, P s → Q s i → P (step s i)) (hmeets : ∀ s i, P s → Q s i → M s i) {s : σ}
    (hs : P s) {inputs : List ι} (hrun : Always step Q s inputs) : Always step M s inputs := by
  induction inputs generalizing s with
  | nil => trivial
  | cons i rest ih => exact ⟨hmeets s i hs hrun.1, ih (hstep s i hs hrun.1) hrun.2⟩

/-- `T` gives `P` and is kept exactly by the steps that meet `Q`: so a run keeps `P` exactly when
all its steps meet `Q`. -/
lemma always_iff_of_guarded {T P : σ → Prop} {Q : σ → ι → Prop} (hT : ∀ s, T s → P s)
    (hkeep : ∀ s i, T s → Q s i → T (step s i)) (hbreak : ∀ s i, T s → P (step s i) → Q s i) {s : σ}
    (hs : T s) (inputs : List ι) :
    (∀ l m, inputs = l ++ m → P (exec step s l)) ↔ Always step Q s inputs := by
  induction inputs generalizing s with
  | nil =>
    refine ⟨fun _ => trivial, fun _ l m h => ?_⟩
    rw [(List.append_eq_nil_iff.mp h.symm).1]
    exact hT s hs
  | cons i rest ih =>
  constructor
  · intro hall
    have hmeets : Q s i := hbreak s i hs (hall [i] rest rfl)
    refine ⟨hmeets, (ih (hkeep s i hs hmeets)).mp (fun l m h => ?_)⟩
    exact hall (i :: l) m (by rw [h, List.cons_append])
  rintro ⟨hmeets, halways⟩ l m h
  cases l with
  | nil => exact hT s hs
  | cons j l =>
  rw [List.cons_append] at h
  obtain ⟨rfl, hrest⟩ := List.cons.inj h
  exact (ih (hkeep s i hs hmeets)).mpr halways l m hrest

/-- Where a step keeps `P` exactly when it meets `Q`, a run does exactly when all of its steps do.
-/
lemma always_iff_forall_reached {T P : σ → Prop}
    (hinv : ∀ s i, T s → T (step s i)) (hstep : ∀ s i, T s → P s → (P (step s i) ↔ Q s i)) {s : σ}
    (hs : T s) (hP : P s) (inputs : List ι) :
    (∀ l m, inputs = l ++ m → P (exec step s l)) ↔ Always step Q s inputs :=
  @always_iff_of_guarded σ ι step (fun s => T s ∧ P s) P Q (fun _ h => h.2)
    (fun s i h hmeets => ⟨hinv s i h.1, (hstep s i h.1 h.2).mpr hmeets⟩)
    (fun s i h hnext => (hstep s i h.1 h.2).mp hnext) s ⟨hs, hP⟩ inputs

end CodeWide.Lib
