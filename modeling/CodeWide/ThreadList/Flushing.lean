import CodeWide.Lib.Run
import CodeWide.ThreadList.Hub
import Mathlib.Data.Finset.Insert

/-!
# Flushing the dirty threads

A subscriber with the set it keeps beside its queue, over runs of marks, polls and changes of
visibility.
-/

namespace CodeWide.ThreadList

open Lib List

structure DirtyQueue extends Subscriber where
  dirtySet : Finset String

namespace DirtyQueue

def new (visible : Bool) : DirtyQueue := ⟨Subscriber.new visible, ∅⟩

def setVisible (s : DirtyQueue) (visible : Bool) : DirtyQueue :=
  ⟨s.toSubscriber.setVisible visible, if visible then s.dirtySet else ∅⟩

def mark (s : DirtyQueue) (threadId : String) (flushClass : FlushClass) : DirtyQueue :=
  if !s.visible then s
  else
    { s with
      dirtySet := insert threadId s.dirtySet
      dirty := if threadId ∈ s.dirtySet then s.dirty else s.dirty ++ [threadId]
      urgent := s.urgent || decide (flushClass = .urgent) }

/-- A flush takes every dirty thread; there is none without a dirty thread. -/
def poll (s : DirtyQueue) (now : Nat) (inInterest : String → Bool) : DirtyQueue × List String :=
  let (subscriber, threadIds) := s.toSubscriber.poll now inInterest
  (⟨subscriber, if threadIds.isEmpty then s.dirtySet else ∅⟩, threadIds)

end DirtyQueue

inductive ListInput where
  | mark (threadId : String) (flushClass : FlushClass)
  | setVisible (visible : Bool)
  | poll (now : Nat) (inInterest : String → Bool)

inductive ListEvent where
  | marked (threadId : String)
  | flushed (threadIds : List String)
  | hidden

/-- A subscriber, and what happened to it while it was visible. -/
structure Watched where
  queue : DirtyQueue
  trace : List ListEvent

def Watched.step (w : Watched) : ListInput → Watched
  | .mark threadId flushClass =>
    ⟨w.queue.mark threadId flushClass,
      if w.queue.visible then w.trace ++ [.marked threadId] else w.trace⟩
  | .setVisible visible =>
    ⟨w.queue.setVisible visible, if visible then w.trace else w.trace ++ [.hidden]⟩
  | .poll now inInterest =>
    let (queue, threadIds) := w.queue.poll now inInterest
    ⟨queue, if threadIds.isEmpty then w.trace else w.trace ++ [.flushed threadIds]⟩

def ListEvent.collect (marks : List String) : ListEvent → List String
  | .marked threadId => marks ++ [threadId]
  | _ => []

/-- The marks since the last flush and the last hiding. -/
def openMarks (trace : List ListEvent) : List String := exec ListEvent.collect [] trace

/-- The marked threads, each once, in the order of their first marks. -/
def FirstMarks (marks ids : List String) : Prop :=
  (∀ id, id ∈ ids ↔ id ∈ marks) ∧ ids.Pairwise fun a b => marks.idxOf a < marks.idxOf b

structure Watched.Inv (w : Watched) : Prop where
  set : ∀ id, id ∈ w.queue.dirtySet ↔ id ∈ w.queue.dirty
  dirty : FirstMarks (openMarks w.trace) w.queue.dirty
  flushes : ∀ front ids, front ++ [.flushed ids] <+: w.trace → FirstMarks (openMarks front) ids

variable {marks ids : List String} {id : String} {w : Watched}

lemma openMarks_concat (trace : List ListEvent) (e : ListEvent) :
    openMarks (trace ++ [e]) = e.collect (openMarks trace) := exec_append _ _ _

lemma FirstMarks.concat (h : FirstMarks marks ids) (id : String) :
    FirstMarks (marks ++ [id]) (if id ∈ ids then ids else ids ++ [id]) := by
  have hkept : ids.Pairwise fun a b => (marks ++ [id]).idxOf a < (marks ++ [id]).idxOf b := by
    refine h.2.imp_of_mem fun ha hb hlt => ?_
    rwa [idxOf_append_of_mem ((h.1 _).mp ha), idxOf_append_of_mem ((h.1 _).mp hb)]
  split
  · rename_i hid
    refine ⟨fun other => ?_, hkept⟩
    rw [h.1, mem_concat, or_iff_left_of_imp]
    rintro rfl
    exact (h.1 _).mp hid
  · rename_i hid
    refine ⟨fun other => by rw [mem_concat, mem_concat, h.1], ?_⟩
    refine pairwise_append.mpr ⟨hkept, pairwise_singleton _ _, fun a ha b hb => ?_⟩
    rw [mem_singleton.mp hb, idxOf_append_of_mem ((h.1 a).mp ha),
      idxOf_append_of_notMem fun hmem => hid ((h.1 id).mpr hmem)]
    exact Nat.lt_add_right _ (idxOf_lt_length_of_mem ((h.1 a).mp ha))

lemma FirstMarks.count (h : FirstMarks marks ids) (hid : id ∈ marks) : ids.count id = 1 :=
  count_eq_one_of_mem (h.2.imp fun hlt heq => by simp [heq] at hlt) ((h.1 id).mpr hid)

lemma Watched.Inv.extend (h : w.Inv) {queue : DirtyQueue} {e : ListEvent}
    (hset : ∀ id, id ∈ queue.dirtySet ↔ id ∈ queue.dirty)
    (hdirty : FirstMarks (e.collect (openMarks w.trace)) queue.dirty)
    (hflush : ∀ ids, e = .flushed ids → ids = w.queue.dirty) :
    Watched.Inv ⟨queue, w.trace ++ [e]⟩ where
  set := hset
  dirty := by rwa [openMarks_concat]
  flushes front ids hfront := by
    rcases prefix_concat_iff.mp hfront with heq | hfront
    · obtain ⟨rfl, he⟩ := append_inj' heq rfl
      rw [hflush ids (singleton_inj.mp he).symm]
      exact h.dirty
    · exact h.flushes front ids hfront

lemma Subscriber.poll_cases (s : Subscriber) (now : Nat) (inInterest : String → Bool) :
    s.poll now inInterest = (s, []) ∨ s.dirty ≠ [] ∧ s.poll now inInterest =
      ({ s with urgent := false, lastFlush := some now, dirty := [] }, s.dirty) := by
  unfold Subscriber.poll
  dsimp only
  split
  · exact .inl rfl
  · rename_i hdirty
    have hdirty : s.dirty ≠ [] := by simpa using hdirty
    split_ifs
    all_goals first | exact .inl rfl | exact .inr ⟨hdirty, rfl⟩

lemma firstMarks_nil : FirstMarks [] [] := ⟨fun _ => Iff.rfl, .nil⟩

lemma Watched.Inv.step (h : w.Inv) (i : ListInput) : (w.step i).Inv := by
  cases i with
  | mark threadId flushClass =>
    unfold Watched.step DirtyQueue.mark
    cases hvisible : w.queue.visible with
    | false => exact h
    | true =>
      refine h.extend (fun id => ?_) ?_ fun _ heq => by cases heq
      · simp only [Bool.not_true, Bool.false_eq_true, if_false, Finset.mem_insert, h.set]
        split
        · rename_i hmem
          exact or_iff_right_of_imp fun heq => heq ▸ hmem
        · exact or_comm.trans mem_concat.symm
      · simp only [Bool.not_true, Bool.false_eq_true, if_false, h.set]
        exact h.dirty.concat threadId
  | setVisible visible =>
    cases visible with
    | true => exact ⟨h.set, h.dirty, h.flushes⟩
    | false =>
      refine h.extend (e := .hidden) (fun id => ?_) firstMarks_nil fun _ heq => by cases heq
      exact iff_of_false (Finset.notMem_empty id) not_mem_nil
  | poll now inInterest =>
    unfold Watched.step DirtyQueue.poll
    rcases w.queue.poll_cases now inInterest with hpoll | ⟨hdirty, hpoll⟩
    · simp only [hpoll]
      exact h
    · simp only [hpoll, isEmpty_eq_false_iff.mpr hdirty]
      exact h.extend (fun _ => by simp) firstMarks_nil fun _ heq =>
        (ListEvent.flushed.inj heq).symm

/-- What is dirty is flushed at the latest when the last flush is an interval ago. -/
lemma poll_due {s : DirtyQueue} (hdirty : s.dirty ≠ []) {now : Nat}
    (hdue : ∀ last ∈ s.lastFlush, last + coalesceInterval ≤ now) (inInterest : String → Bool) :
    (s.poll now inInterest).2 = s.dirty := by
  have hsince : s.lastFlush.elim now (fun last => last + coalesceInterval) ≤ now := by
    cases hlast : s.lastFlush with
    | none => exact le_refl now
    | some last => exact hdue last hlast
  unfold DirtyQueue.poll Subscriber.poll
  dsimp only
  rw [if_neg (by simpa using hdirty), if_pos]
  rw [Bool.or_eq_true, decide_eq_true_eq]
  right
  split
  · exact le_trans (min_le_left _ _) hsince
  · exact hsince

/-! ## Every mark is flushed once -/

lemma mem_collect {m : List ListEvent} (hm : ∀ e ∈ m, ∃ other, e = .marked other)
    (h : id ∈ marks) : id ∈ exec ListEvent.collect marks m := by
  induction m generalizing marks with
  | nil => exact h
  | cons e m ih =>
    obtain ⟨other, rfl⟩ := hm e mem_cons_self
    exact ih (fun e he => hm e (mem_cons_of_mem _ he)) (mem_append_left _ h)

lemma marked_of_mem_collect {m : List ListEvent} (h : id ∈ exec ListEvent.collect marks m) :
    id ∈ marks ∨ .marked id ∈ m := by
  induction m generalizing marks with
  | nil => exact .inl h
  | cons e m ih =>
  rcases ih h with h | h
  · cases e with
    | marked other =>
      rcases mem_concat.mp h with h | rfl
      · exact .inl h
      · exact .inr mem_cons_self
    | flushed | hidden => exact absurd h not_mem_nil
  · exact .inr (mem_cons_of_mem _ h)

def ListEvent.isFlush : ListEvent → Bool
  | .flushed _ => true
  | _ => false

/-- The next flush after a mark has the thread once, and no later one without another mark. -/
structure FlushedOnce (id : String) (rest : List ListEvent) : Prop where
  next : ∃ mid ids last, rest = mid ++ .flushed ids :: last ∧ (∀ e ∈ mid, e.isFlush = false) ∧
    ids.count id = 1 ∧ (.marked id ∉ last → ∀ other, .flushed other ∈ last → id ∉ other)

lemma Watched.Inv.flushedOnce (h : w.Inv) {front rest : List ListEvent}
    (hmark : w.trace = front ++ .marked id :: rest) (hvisible : .hidden ∉ rest) :
    (∀ e ∈ rest, e.isFlush = false) ∧ id ∈ w.queue.dirty ∨ FlushedOnce id rest := by
  have hmarks {m : List ListEvent} (hsub : ∀ e ∈ m, e ∈ rest)
      (hm : ∀ e ∈ m, e.isFlush = false) : id ∈ openMarks (front ++ .marked id :: m) := by
    have hstart : id ∈ ListEvent.collect (openMarks front) (.marked id) := mem_concat_self
    rw [openMarks, exec_append, exec_cons]
    refine mem_collect (fun e he => ?_) hstart
    cases e with
    | marked other => exact ⟨other, rfl⟩
    | flushed ids => cases hm _ he
    | hidden => exact absurd (hsub _ he) hvisible
  cases hfind : rest.find? ListEvent.isFlush with
  | none =>
    have hnone : ∀ e ∈ rest, e.isFlush = false := by simpa using find?_eq_none.mp hfind
    refine .inl ⟨hnone, (h.dirty.1 id).mpr ?_⟩
    rw [hmark]
    exact hmarks (fun _ he => he) hnone
  | some e =>
  obtain ⟨hflush, mid, last, rfl, hmid⟩ := find?_eq_some_iff_append.mp hfind
  have hmid : ∀ e ∈ mid, e.isFlush = false := by simpa using hmid
  cases e with
  | marked | hidden => cases hflush
  | flushed ids =>
  refine .inr ⟨mid, ids, last, rfl, hmid, ?_, fun hnot other hother hid => ?_⟩
  · refine (h.flushes (front ++ .marked id :: mid) ids ⟨last, ?_⟩).count
      (hmarks (fun _ he => mem_append_left _ he) hmid)
    rw [hmark]
    simp
  · obtain ⟨before, after, rfl⟩ := append_of_mem hother
    have hlater := h.flushes (front ++ .marked id :: mid ++ .flushed ids :: before) other
      ⟨after, by rw [hmark]; simp⟩
    have hmem := (hlater.1 id).mp hid
    rw [openMarks, exec_append, exec_cons] at hmem
    rcases marked_of_mem_collect hmem with hmem | hmem
    · exact absurd hmem not_mem_nil
    · exact hnot (mem_append_left _ hmem)

/-! ## Frames -/

def removedWire (store : RowStore) (threadId : String) : Option Json :=
  if (store.wireRow threadId).isSome then none
  else (store.tombstones.get? threadId).map (Hub.tombstoneWire threadId)

/-- The frames have the rows, and the tombstones, of the flushed threads that have one, in order. -/
structure InFrames (store : RowStore) (ids : List String) (frames : List Frame) : Prop where
  rows : frames.flatMap Frame.rows = ids.filterMap store.wireRow
  removed : frames.flatMap Frame.removed = ids.filterMap (removedWire store)
  size : ∀ frame ∈ frames, frame.rows.length + frame.removed.length ≤ maxRowsPerFrame

variable {store : RowStore}

lemma InFrames.close {closed : List Frame} {filled : Frame}
    (h : InFrames store ids (closed ++ [filled])) {acc : List Frame × Frame}
    (hacc : acc = if filled.rows.length + filled.removed.length = maxRowsPerFrame
      then (closed ++ [filled], ⟨[], []⟩) else (closed, filled)) :
    InFrames store ids (acc.1 ++ [acc.2]) ∧
      acc.2.rows.length + acc.2.removed.length < maxRowsPerFrame := by
  have hsize := h.size filled mem_concat_self
  subst hacc
  split
  · refine ⟨⟨?_, ?_, fun frame hframe => ?_⟩, Nat.zero_lt_succ 99⟩
    · rw [← h.rows, flatMap_append, flatMap_singleton, append_nil]
    · rw [← h.removed, flatMap_append, flatMap_singleton, append_nil]
    · rcases mem_concat.mp hframe with hframe | rfl
      · exact h.size frame hframe
      · exact Nat.zero_le _
  · rename_i hfull
    exact ⟨h, lt_of_le_of_ne hsize hfull⟩

lemma foldl_addToFrame (store : RowStore) (ids : List String) :
    InFrames store ids ((ids.foldl (Hub.addToFrame store) ([], ⟨[], []⟩)).1 ++
        [(ids.foldl (Hub.addToFrame store) ([], ⟨[], []⟩)).2]) ∧
      (ids.foldl (Hub.addToFrame store) ([], ⟨[], []⟩)).2.rows.length +
        (ids.foldl (Hub.addToFrame store) ([], ⟨[], []⟩)).2.removed.length < maxRowsPerFrame := by
  induction ids using reverseRecOn with
  | nil => exact ⟨⟨rfl, rfl, by simp⟩, by simp [maxRowsPerFrame]⟩
  | append_singleton ids id ih =>
  rw [foldl_append, foldl_cons, foldl_nil]
  generalize ids.foldl (Hub.addToFrame store) ([], ⟨[], []⟩) = acc at ih
  obtain ⟨closed, open_⟩ := acc
  obtain ⟨⟨hrows, hrem, hsize⟩, hopen⟩ := ih
  simp only [flatMap_append, flatMap_singleton] at hrows hrem hopen
  -- The thread adds one row, or one tombstone, or nothing to the open frame.
  have hadd (row removed : Option Json) (hrow : store.wireRow id = row)
      (hwire : removedWire store id = removed)
      (hone : row.toList.length + removed.toList.length ≤ 1) :
      InFrames store (ids ++ [id]) (closed ++
        [⟨open_.rows ++ row.toList, open_.removed ++ removed.toList⟩]) := by
    refine ⟨?_, ?_, fun frame hframe => ?_⟩
    · rw [flatMap_append, flatMap_singleton, ← append_assoc, hrows, filterMap_append]
      cases row <;> simp [hrow]
    · rw [flatMap_append, flatMap_singleton, ← append_assoc, hrem, filterMap_append]
      cases removed <;> simp [hwire]
    · rcases mem_concat.mp hframe with hframe | rfl
      · exact hsize frame (mem_append_left _ hframe)
      · simp only [length_append]
        omega
  cases hrow : store.wireRow id with
  | some row =>
    refine (hadd (some row) none hrow (by simp [removedWire, hrow]) (by simp)).close ?_
    simp [Hub.addToFrame, hrow]
  | none =>
  cases htombstone : store.tombstones.get? id with
  | some cursor =>
    refine (hadd none (some (Hub.tombstoneWire id cursor)) hrow
      (by simp [removedWire, hrow, htombstone]) (by simp)).close ?_
    simp [Hub.addToFrame, hrow, htombstone]
  | none =>
    have hkept := hadd none none hrow (by simp [removedWire, hrow, htombstone]) (by simp)
    simp only [Option.toList_none, append_nil] at hkept
    have hacc : Hub.addToFrame store (closed, open_) id = (closed, open_) := by
      simp [Hub.addToFrame, hrow, htombstone]
    rw [hacc]
    exact ⟨hkept, hopen⟩

lemma frames_inFrames (h : Hub) (ids : List String) : InFrames h.store ids (h.frames ids) := by
  have hfold := (foldl_addToFrame h.store ids).1
  unfold Hub.frames
  dsimp only
  split
  · rename_i hempty
    rw [Bool.and_eq_true, List.isEmpty_iff, List.isEmpty_iff] at hempty
    obtain ⟨hrows, hrem, hsize⟩ := hfold
    rw [flatMap_append, flatMap_singleton, hempty.1, append_nil] at hrows
    rw [flatMap_append, flatMap_singleton, hempty.2, append_nil] at hrem
    exact ⟨hrows, hrem, fun frame hframe => hsize frame (mem_append_left _ hframe)⟩
  · exact hfold

/-- A mark is flushed once, in the order of the first marks, and a flush is sent in frames that
leave out only threads without a row or a tombstone. -/
theorem flushes_of_run (visible : Bool) (inputs : List ListInput) (h : Hub) :
    let w := exec Watched.step ⟨.new visible, []⟩ inputs
    (∀ id, id ∈ w.queue.dirtySet ↔ id ∈ w.queue.dirty) ∧
    (∀ front id rest, w.trace = front ++ .marked id :: rest → .hidden ∉ rest →
      (∀ e ∈ rest, e.isFlush = false) ∧ id ∈ w.queue.dirty ∨ FlushedOnce id rest) ∧
    (∀ front ids rest, w.trace = front ++ .flushed ids :: rest →
      FirstMarks (openMarks front) ids ∧ InFrames h.store ids (h.frames ids)) ∧
    (w.queue.dirty ≠ [] → ∀ now inInterest,
      (∀ last ∈ w.queue.lastFlush, last + coalesceInterval ≤ now) →
      (w.queue.poll now inInterest).2 = w.queue.dirty) := by
  have hinv : (exec Watched.step ⟨.new visible, []⟩ inputs).Inv :=
    exec_invariant (fun _ i h => h.step i) ⟨fun _ => by simp [DirtyQueue.new, Subscriber.new],
      firstMarks_nil, fun front ids hfront => by simp at hfront⟩ inputs
  refine ⟨hinv.set, fun front id rest => hinv.flushedOnce, fun front ids rest htrace => ?_,
    fun hdirty now inInterest hdue => poll_due hdirty hdue inInterest⟩
  exact ⟨hinv.flushes front ids ⟨rest, by rw [htrace]; simp⟩, frames_inFrames h ids⟩

/-- A flushed thread whose row was evicted is in no frame. -/
theorem evicted_in_no_frame :
    (exec Watched.step ⟨.new true, []⟩ [.mark "a" .urgent, .poll 0 fun _ => false]).trace =
      [.marked "a", .flushed ["a"]] ∧ Hub.empty.frames ["a"] = [] :=
  ⟨rfl, rfl⟩

end CodeWide.ThreadList
