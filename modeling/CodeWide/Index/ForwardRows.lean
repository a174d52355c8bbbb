import CodeWide.Index.ColdScan

/-!
# What the forward scan leaves in the index

A turn start keeps its row unless a later rollback reaches it, and its row says where the first
matching terminal, or else the next start, closed it (`turnEnd`).
-/

namespace CodeWide.Index

open Lib Lib.Saturating List Option

/-- Whether no rollback among the later records reaches a turn with `above` turns above it. -/
def survives : Nat → List Placed → Bool
  | _, [] => true
  | above, r :: newer =>
    match r.line with
    | .boundary (.started _) => survives (above + 1) newer
    | .boundary (.rollback count) => decide (count ≤ above) && survives (above - count) newer
    | _ => survives above newer

/-- How many turns stand above `above` turns once the records are read. -/
def height : Nat → List Placed → Nat
  | above, [] => above
  | above, r :: newer =>
    match r.line with
    | .boundary (.started _) => height (above + 1) newer
    | .boundary (.rollback count) => height (above - count) newer
    | _ => height above newer

def Placed.isStart (r : Placed) : Bool :=
  match r.line with
  | .boundary (.started _) => true
  | _ => false

def Placed.closes (id : String) (r : Placed) : Bool :=
  match r.line with
  | .boundary (.started _) => true
  | .boundary (.terminal turnId _) => decide (turnId = id)
  | .boundary (.rollback count) => decide (0 < count)
  | _ => false

/-- The end and the completion that the first closing record leaves in the row of a turn. -/
def turnEnd (id : String) : List Placed → Nat × Bool
  | [] => (0, false)
  | r :: newer =>
    match r.line with
    | .boundary (.started _) => (r.start, false)
    | .boundary (.terminal turnId completed) =>
      if turnId = id then (r.stop, completed) else turnEnd id newer
    | .boundary (.rollback count) => if 0 < count then (0, false) else turnEnd id newer
    | _ => turnEnd id newer

def activeAfter : List Placed → Option TurnRef
  | [] => none
  | r :: older =>
    match r.line with
    | .boundary (.started id) =>
      some { id := id, startOffset := r.start, endOffset := 0, completed := false }
    | .boundary (.terminal turnId _) => (activeAfter older).filter fun t => decide (t.id ≠ turnId)
    | .boundary (.rollback count) => if 0 < count then none else activeAfter older
    | _ => activeAfter older

def rowView (older newer : List Placed) (r : Placed) : Option TurnRef :=
  match r.line with
  | .boundary (.started id) =>
    if survives 0 newer then
      some { id := id, startOffset := r.start, endOffset := (turnEnd id newer).1,
             completed := (turnEnd id newer).2 }
    else none
  | .standalone id =>
    if (activeAfter older).isNone then
      some { id := id, startOffset := r.start, endOffset := r.stop, completed := true }
    else none
  | _ => none

section Append

variable {r : Placed}

lemma survives_concat (above : Nat) (newer : List Placed) : survives above (newer ++ [r]) =
      (survives above newer && match r.line with
        | .boundary (.rollback count) => decide (count ≤ height above newer)
        | _ => true) := by
  induction newer generalizing above with
  | nil =>
    rcases hl : r.line with (⟨id⟩ | ⟨id, completed⟩ | count) | id | _ <;>
      simp only [nil_append, survives, height, hl, Bool.and_true, Bool.true_and]
    exact decide_eq_decide.mpr Iff.rfl
  | cons x newer ih =>
    rcases hx : x.line with (⟨id⟩ | ⟨id, completed⟩ | count) | id | _ <;>
      simp [survives, height, hx, ih, Bool.and_assoc]

lemma height_succ (above : Nat) (newer : List Placed) :
    height (above + 1) newer = height above newer + (survives above newer).toNat := by
  induction newer generalizing above with
  | nil => rfl
  | cons x newer ih =>
  rcases hx : x.line with (⟨id⟩ | ⟨id, completed⟩ | count) | id | _
  · simpa [survives, height, hx] using ih (above + 1)
  · simpa [survives, height, hx] using ih above
  · rcases Nat.lt_or_ge above count with hlt | hge
    · -- the rollback takes the turn, so one turn more makes no difference after it
      have hzero : above - count = 0 := by omega
      have hone : above + 1 - count = 0 := by omega
      have hn : ¬ count ≤ above := by omega
      simp [survives, height, hx, hzero, hone, hn]
    · have hsub : above + 1 - count = above - count + 1 := by omega
      simpa [survives, height, hx, hsub, hge] using ih (above - count)
  · simpa [survives, height, hx] using ih above
  · simpa [survives, height, hx] using ih above

variable {id : String} {newer : List Placed}

lemma turnEnd_concat_of_closed
    (h : ∃ x ∈ newer, x.closes id = true) : turnEnd id (newer ++ [r]) = turnEnd id newer := by
  induction newer with
  | nil => simp at h
  | cons x newer ih =>
  have hor : x.closes id = true ∨ ∃ y ∈ newer, y.closes id = true := by
    simpa only [mem_cons, exists_eq_or_imp] using h
  rcases hx : x.line with (⟨b⟩ | ⟨b, completed⟩ | count) | b | _
  all_goals simp only [cons_append, turnEnd, hx]
  · by_cases hb : b = id
    · simp [hb]
    · simp only [hb, if_false]
      exact ih (hor.resolve_left (by simp [Placed.closes, hx, hb]))
  · by_cases hc : 0 < count
    · simp [hc]
    · simp only [hc, if_false]
      exact ih (hor.resolve_left (by simp [Placed.closes, hx, hc]))
  · exact ih (hor.resolve_left (by simp [Placed.closes, hx]))
  · exact ih (hor.resolve_left (by simp [Placed.closes, hx]))

lemma turnEnd_append_of_open (h : ∀ x ∈ newer, x.closes id = false) (older : List Placed) :
    turnEnd id (newer ++ older) = turnEnd id older := by
  induction newer with
  | nil => rfl
  | cons x newer ih =>
  obtain ⟨hx0, hrest⟩ := forall_mem_cons.mp h
  rcases hx : x.line with (⟨b⟩ | ⟨b, completed⟩ | count) | b | _
  all_goals simp only [Placed.closes, hx] at hx0
  all_goals simp only [cons_append, turnEnd, hx]
  · exact absurd hx0 (by simp)
  · rw [if_neg (by simpa using hx0)]
    exact ih hrest
  · rw [if_neg (by simpa using hx0)]
    exact ih hrest
  · exact ih hrest
  · exact ih hrest

lemma turnEnd_of_open (h : ∀ x ∈ newer, x.closes id = false) : turnEnd id newer = (0, false) := by
  have hnone := turnEnd_append_of_open h []
  rwa [append_nil] at hnone

end Append

lemma activeAfter_of_open {id : String} {r : Placed} {a b : List Placed}
    (hr : r.line = .boundary (.started id)) (h : ∀ x ∈ a, x.closes id = false) :
    activeAfter (a ++ r :: b) =
      some { id := id, startOffset := r.start, endOffset := 0, completed := false } := by
  induction a with
  | nil => simp [activeAfter, hr]
  | cons x a ih =>
  obtain ⟨hx0, hrest⟩ := forall_mem_cons.mp h
  rcases hx : x.line with (⟨c⟩ | ⟨c, completed⟩ | count) | c | _
  all_goals simp only [Placed.closes, hx] at hx0
  all_goals simp only [cons_append, activeAfter, hx, ih hrest]
  · exact absurd hx0 (by simp)
  · have hc : id ≠ c := fun he => by simp [he] at hx0
    simp [hc]
  · rw [if_neg (by simpa using hx0)]

lemma activeAfter_of_closed {id : String} {r : Placed} {a b : List Placed}
    (hr : r.line = .boundary (.started id)) (h : ∃ x ∈ a, x.closes id = true) {t : TurnRef}
    (ht : activeAfter (a ++ r :: b) = some t) : ∃ x ∈ a, x.start = t.startOffset := by
  induction a generalizing t with
  | nil => simp at h
  | cons x a ih =>
  -- either the turn was closed before `x`, or `x` closes it
  have hcases : (∃ y ∈ a, y.closes id = true) ∨
      ((∀ y ∈ a, y.closes id = false) ∧ x.closes id = true) := by
    by_cases ha : ∃ y ∈ a, y.closes id = true
    · exact .inl ha
    obtain ⟨y, hy, hc⟩ := h
    rcases mem_cons.mp hy with rfl | hy
    · exact .inr ⟨fun z hz => by
        simpa using fun hz' => ha ⟨z, hz, hz'⟩, hc⟩
    · exact absurd ⟨y, hy, hc⟩ ha
  have hkeep : activeAfter (a ++ r :: b) = some t → ∃ y ∈ x :: a, y.start = t.startOffset := by
    intro ht'
    rcases hcases with hcl | ⟨hopen, hx⟩
    · obtain ⟨y, hy, he⟩ := ih hcl ht'
      exact ⟨y, mem_cons_of_mem _ hy, he⟩
    rw [activeAfter_of_open hr hopen] at ht'
    obtain rfl := some.inj ht'
    rcases hl : x.line with (⟨c⟩ | ⟨c, completed⟩ | count) | c | _
    all_goals simp only [Placed.closes, hl] at hx
    all_goals simp only [cons_append, activeAfter, hl, activeAfter_of_open hr hopen] at ht
    · obtain ht := some.inj ht
      exact ⟨x, mem_cons_self, by rw [← ht]⟩
    · have hc : c = id := by simpa using hx
      simp [hc] at ht
    · rw [if_pos (by simpa using hx)] at ht
      exact absurd ht (some_ne_none _).symm
    · exact absurd hx (by simp)
    · exact absurd hx (by simp)
  rcases hl : x.line with (⟨c⟩ | ⟨c, completed⟩ | count) | c | _
  all_goals simp only [cons_append, activeAfter, hl] at ht
  · obtain rfl := some.inj ht
    exact ⟨x, mem_cons_self, rfl⟩
  · exact hkeep (filter_eq_some_iff.mp ht).1
  · split at ht
    · exact absurd ht (some_ne_none _).symm
    · exact hkeep ht
  · exact hkeep ht
  · exact hkeep ht

lemma activeAfter_mem {records : List Placed} {t : TurnRef} (ht : activeAfter records = some t) :
    ∃ r ∈ records, r.line = .boundary (.started t.id) ∧ r.start = t.startOffset := by
  induction records with
  | nil => exact absurd ht (some_ne_none _).symm
  | cons x older ih =>
  have hkeep : activeAfter older = some t → ∃ r ∈ x :: older,
      r.line = .boundary (.started t.id) ∧ r.start = t.startOffset := fun h => by
    obtain ⟨r, hr, he⟩ := ih h
    exact ⟨r, mem_cons_of_mem _ hr, he⟩
  rcases hl : x.line with (⟨c⟩ | ⟨c, completed⟩ | count) | c | _
  all_goals simp only [activeAfter, hl] at ht
  · obtain rfl := some.inj ht
    exact ⟨x, mem_cons_self, hl, rfl⟩
  · exact hkeep (filter_eq_some_iff.mp ht).1
  · split at ht
    · exact absurd ht (some_ne_none _).symm
    · exact hkeep ht
  · exact hkeep ht
  · exact hkeep ht

end CodeWide.Index
