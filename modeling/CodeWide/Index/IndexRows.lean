import CodeWide.Index.ForwardRows

/-!
# The rows of a committed index

After any records, in any batches, a read with the pending batch applied (`Scan.look`) gives at the
place of each record the row of `rowView`, and nothing elsewhere (`Scan.Rows`).
-/

namespace CodeWide.Index

open Lib Lib.Saturating List

lemma taskView_keyed (openEnd : Nat) : Keyed Placed.start TurnRef.startOffset (taskView openEnd) := by
  intro older newer r t ht
  unfold taskView at ht
  split at ht
  · split at ht
    · exact absurd ht (Option.some_ne_none _).symm
    · obtain rfl := Option.some.inj ht
      rfl
  · exact absurd ht (Option.some_ne_none _).symm

lemma survives_iff_skipped (openEnd : Nat) {above : Nat} {newer : List Placed}
    (h : above + newer.length < max64) :
    survives above newer = true ↔ (backwardOf openEnd newer).skipped ≤ above := by
  induction newer generalizing above with
  | nil => simp [survives, backwardOf]
  | cons x newer ih =>
  rw [length_cons] at h
  rcases hx : x.line with (⟨id⟩ | ⟨id, completed⟩ | count) | id | _
  · have hnext := @ih (above + 1) (by omega)
    simp only [survives, backwardOf, hx, Backward.afterStart, hnext]
    omega
  · simpa only [survives, backwardOf, hx] using @ih above (by omega)
  · have hnext := @ih (above - count) (by omega)
    simp only [survives, backwardOf, hx, Bool.and_eq_true, decide_eq_true_eq, hnext, add64]
    omega
  · simpa only [survives, backwardOf, hx] using @ih above (by omega)
  · simpa only [survives, backwardOf, hx] using @ih above (by omega)

lemma taskView_started {openEnd : Nat} {older newer : List Placed} {r : Placed} {id : String}
    (hr : r.line = .boundary (.started id)) (h : newer.length < max64) :
    taskView openEnd older newer r =
      if survives 0 newer then some ((backwardOf openEnd newer).turn id r.start) else none := by
  have hs := @survives_iff_skipped openEnd 0 newer (by omega)
  simp only [taskView, hr]
  by_cases hsv : survives 0 newer = true
  · have hzero := hs.mp hsv
    rw [if_neg (by omega), if_pos hsv]
  · have hpos : 0 < (backwardOf openEnd newer).skipped :=
      Nat.pos_of_ne_zero fun hz => hsv (hs.mpr (by omega))
    rw [if_pos hpos, if_neg hsv]

lemma length_tasks_above (openEnd : Nat) {a newer : List Placed} (b : List Placed)
    (h : a.length + newer.length < max64) :
    (timeline (fun older => taskView openEnd (older ++ b)) a newer).length + height 0 newer =
      height 0 (a.reverse ++ newer) := by
  induction a generalizing newer with
  | nil => simp [timeline]
  | cons x a ih =>
  rw [length_cons] at h
  have hrest := @ih (x :: newer) (by rw [length_cons]; omega)
  rw [timeline, length_append, reverse_cons, append_assoc, singleton_append]
  rw [← hrest]
  rcases hx : x.line with (⟨id⟩ | ⟨id, completed⟩ | count) | id | _
  · rw [taskView_started hx (by omega)]
    have hh := height_succ 0 newer
    simp only [height, hx]
    rw [hh]
    cases survives 0 newer <;> simp only [Bool.toNat_true,
      Bool.toNat_false, Bool.false_eq_true, if_true, if_false, Option.toList_none,
      Option.toList_some, length_nil, length_singleton] <;> omega
  all_goals simp [taskView, height, hx]

lemma drain_removals (turns : List TurnRef) (removed : List Nat) {remaining : Nat}
    (h : 0 < remaining) :
    (drain (fun (acc : List Nat × Nat) turn =>
        ((acc.1 ++ [turn.startOffset], acc.2 - 1), decide (0 < acc.2 - 1)))
      turns (removed, remaining)).1.1 =
      removed ++ (turns.take remaining).map TurnRef.startOffset := by
  induction turns generalizing removed remaining with
  | nil => simp [drain]
  | cons t turns ih =>
  obtain ⟨k, rfl⟩ : ∃ k, remaining = k + 1 := ⟨remaining - 1, by omega⟩
  cases k with
  | zero => simp [drain]
  | succ k =>
  have hmore : 0 < k + 1 + 1 - 1 := Nat.succ_pos k
  simp only [drain, hmore, decide_true]
  rw [Nat.add_sub_cancel, ih _ (Nat.succ_pos k), take_succ_cons, map_cons,
    append_assoc, singleton_append]

lemma collectRollbackRemovals_eq (seen : List Placed) (count : Nat) :
    collectRollbackRemovals seen (some (.rollback count)) =
      ((timeline (taskView 0) seen []).take count).map TurnRef.startOffset := by
  by_cases hc : count = 0
  · simp [collectRollbackRemovals, hc]
  · have hd := drain_removals (timeline (taskView 0) seen []) [] (Nat.pos_of_ne_zero hc)
    simp only [collectRollbackRemovals, hc, if_false, visitLogicalTaskTurnsReverse_eq]
    exact hd

lemma mem_collectRollbackRemovals {seen : List Placed} {boundary : Option Boundary} {o : Nat}
    (h : o ∈ collectRollbackRemovals seen boundary) :
    ∃ r ∈ seen, r.isStart = true ∧ r.start = o := by
  rcases boundary with _ | ⟨id⟩ | ⟨id, completed⟩ | count
  · simp [collectRollbackRemovals] at h
  · simp [collectRollbackRemovals] at h
  · simp [collectRollbackRemovals] at h
  rw [collectRollbackRemovals_eq, mem_map] at h
  obtain ⟨t, ht, rfl⟩ := h
  obtain ⟨a, r, b, rfl, hview⟩ := mem_timeline.mp (mem_of_mem_take ht)
  refine ⟨r, by simp, ?_, (taskView_keyed 0 _ _ _ _ hview).symm⟩
  unfold taskView at hview
  split at hview
  · simp [Placed.isStart, *]
  · exact absurd hview (Option.some_ne_none _).symm

lemma mem_removals_iff {a b : List Placed} {r : Placed} {id : String} {count : Nat}
    (hr : r.line = .boundary (.started id))
    (hord : (a ++ r :: b).Pairwise fun x y => y.start < x.start)
    (hlen : (a ++ r :: b).length < max64) :
    r.start ∈ collectRollbackRemovals (a ++ r :: b) (some (.rollback count)) ↔
      survives 0 a.reverse = true ∧ height 0 a.reverse < count := by
  rw [length_append, length_cons] at hlen
  obtain ⟨-, hrb, hab⟩ := pairwise_append.mp hord
  have hrb' := (pairwise_cons.mp hrb).1
  have habove : (timeline (fun older => taskView 0 (older ++ r :: b)) a []).length =
      height 0 a.reverse := by
    have h := @length_tasks_above 0 a [] (r :: b) (by simp; omega)
    simpa [height] using h
  -- the turns of the newer records start later, those of the older ones earlier
  have hA : ∀ t ∈ timeline (fun older => taskView 0 (older ++ r :: b)) a [],
      t.startOffset ≠ r.start := fun t ht => by
    obtain ⟨a', x, b', rfl, hview⟩ := mem_timeline.mp ht
    rw [taskView_keyed 0 _ _ _ _ hview]
    have hlt := hab x (by simp) r (by simp)
    omega
  have hB : ∀ t ∈ timeline (taskView 0) b (r :: a.reverse), t.startOffset ≠ r.start :=
    fun t ht => by
    have hlt := timeline_key_lt (taskView_keyed 0) hrb' ht
    omega
  have hsplit : timeline (taskView 0) (a ++ r :: b) [] =
      timeline (fun older => taskView 0 (older ++ r :: b)) a [] ++
        ((taskView 0 b a.reverse r).toList ++ timeline (taskView 0) b (r :: a.reverse)) := by
    rw [timeline_append, timeline, append_nil]
  rw [collectRollbackRemovals_eq, hsplit, taskView_started hr (by simp; omega), mem_map, ← habove]
  generalize timeline (fun older => taskView 0 (older ++ r :: b)) a [] = A at hA ⊢
  generalize timeline (taskView 0) b (r :: a.reverse) = B at hB ⊢
  by_cases hsv : survives 0 a.reverse = true
  · simp only [hsv, if_true, Option.toList_some, singleton_append, true_and]
    constructor
    · rintro ⟨t, ht, hstart⟩
      by_contra hge
      rw [take_append_of_le_length (by omega)] at ht
      exact hA t (mem_of_mem_take ht) hstart
    intro hlt
    refine ⟨(backwardOf 0 a.reverse).turn id r.start, ?_, rfl⟩
    rw [take_append, mem_append]
    obtain ⟨k, hk⟩ : ∃ k, count - A.length = k + 1 := ⟨count - A.length - 1, by omega⟩
    rw [hk]
    exact .inr (by simp)
  simp only [hsv, Bool.false_eq_true, if_false, Option.toList_none, nil_append, false_and,
    iff_false]
  rintro ⟨t, ht, hstart⟩
  rcases mem_append.mp (mem_of_mem_take ht) with h | h
  · exact hA t h hstart
  · exact hB t h hstart

variable {a b : List Placed} {r x : Placed}

/-- Nothing but a rollback takes a row away, and only the active turn has a row that changes. -/
lemma rowView_concat_of_inactive (hx : ∀ count, x.line ≠ .boundary (.rollback count))
    (hact : ∀ t, activeAfter (a ++ r :: b) = some t → t.startOffset ≠ r.start) :
    rowView b (a.reverse ++ [x]) r = rowView b a.reverse r := by
  unfold rowView
  split
  case h_1 id hr =>
    have hcl : ∃ y ∈ a.reverse, y.closes id = true := by
      by_contra hopen
      have hopen' : ∀ y ∈ a, y.closes id = false := fun y hy => by
        simpa using fun h => hopen ⟨y, mem_reverse.mpr hy, h⟩
      exact hact _ (activeAfter_of_open hr hopen') rfl
    have hsv : survives 0 (a.reverse ++ [x]) = survives 0 a.reverse := by
      rw [survives_concat]
      split
      · exact absurd ‹_› (hx _)
      · exact Bool.and_true _
    rw [hsv, turnEnd_concat_of_closed hcl]
  case h_2 => rfl
  case h_3 => rfl

variable {id : String}

lemma survives_of_open {newer : List Placed} (h : ∀ y ∈ newer, y.closes id = false) (above : Nat) :
    survives above newer = true ∧ height above newer = above := by
  induction newer with
  | nil => exact ⟨rfl, rfl⟩
  | cons y newer ih =>
  obtain ⟨hy, hrest⟩ := forall_mem_cons.mp h
  rcases hl : y.line with (⟨c⟩ | ⟨c, completed⟩ | count) | c | _
  all_goals simp only [Placed.closes, hl] at hy
  all_goals simp only [survives, height, hl]
  · exact absurd hy (by simp)
  · exact ih hrest
  · have hc : count = 0 := by simpa using hy
    simpa [hc] using ih hrest
  · exact ih hrest
  · exact ih hrest

lemma rowView_concat_of_open (hr : r.line = .boundary (.started id))
    (hopen : ∀ y ∈ a, y.closes id = false) (hx : ∀ count, x.line ≠ .boundary (.rollback count)) :
    rowView b (a.reverse ++ [x]) r =
      some { id := id, startOffset := r.start, endOffset := (turnEnd id [x]).1,
             completed := (turnEnd id [x]).2 } := by
  have hopen' : ∀ y ∈ a.reverse, y.closes id = false := fun y hy =>
    hopen y (mem_reverse.mp hy)
  have hsv : survives 0 (a.reverse ++ [x]) = true := by
    rw [survives_concat, (survives_of_open hopen' 0).1, Bool.true_and]
    split
    · exact absurd ‹_› (hx _)
    · rfl
  simp only [rowView, hr, hsv, if_true, turnEnd_append_of_open hopen']

lemma rowView_of_open (hr : r.line = .boundary (.started id))
    (hopen : ∀ y ∈ a, y.closes id = false) :
    rowView b a.reverse r =
      some { id := id, startOffset := r.start, endOffset := 0, completed := false } := by
  have hopen' : ∀ y ∈ a.reverse, y.closes id = false := fun y hy =>
    hopen y (mem_reverse.mp hy)
  simp only [rowView, hr, (survives_of_open hopen' 0).1, if_true, turnEnd_of_open hopen']

lemma rowView_concat_rollback {count : Nat} (hx : x.line = .boundary (.rollback count)) :
    rowView b (a.reverse ++ [x]) r =
      if r.isStart = true ∧ survives 0 a.reverse = true ∧ height 0 a.reverse < count then none
      else rowView b a.reverse r := by
  rcases hr : r.line with (⟨id⟩ | ⟨id, completed⟩ | n) | id | _
  · have hsv : survives 0 (a.reverse ++ [x]) =
        (survives 0 a.reverse && decide (count ≤ height 0 a.reverse)) := by
      rw [survives_concat]
      simp only [hx]
    by_cases hs : survives 0 a.reverse = true
    · by_cases hlt : height 0 a.reverse < count
      · have hn : ¬ count ≤ height 0 a.reverse := by omega
        simp [rowView, Placed.isStart, hr, hsv, hs, hlt, hn]
      have hle : count ≤ height 0 a.reverse := by omega
      have hend : turnEnd id (a.reverse ++ [x]) = turnEnd id a.reverse := by
        by_cases hcl : ∃ y ∈ a.reverse, y.closes id = true
        · exact turnEnd_concat_of_closed hcl
        have hopen : ∀ y ∈ a.reverse, y.closes id = false := fun y hy => by
          simpa using fun h => hcl ⟨y, hy, h⟩
        rw [turnEnd_append_of_open hopen, turnEnd_of_open hopen]
        simp [turnEnd, hx]
      simp [rowView, Placed.isStart, hr, hsv, hs, hlt, hle, hend]
    · simp [rowView, Placed.isStart, hr, hsv, hs]
  all_goals simp [rowView, Placed.isStart, hr]

end CodeWide.Index
