import CodeWide.Device.FrameJournal
import Mathlib.Data.List.Sort

/-!
# Reading the device's journal back

`checkpoint` and `committedFrames` of `NativeFrameStore`, and how a JS runtime that starts anew
reads with them (`attachRuntime`, `#drainCommittedJournal`).
-/

namespace CodeWide.Device

open Lib List

structure ProjectionCheckpoint where
  snapshotCursor : Option Int
  snapshotJson : Option String
  pendingRequestsJson : String
  journalHeadCursor : Option Int

structure CommittedFramePage where
  baseCursor : Option Int
  headCursor : Option Int
  frames : List StoredFrame

structure PageLimits where
  maxFrames : Nat
  maxBytes : Nat
  positive : 0 < maxFrames

/-- Rows of a page until the byte limit, the first one always. -/
def withinBytes (maxBytes : Nat) (bytes : Nat) : List FrameRow → List FrameRow
  | [] => []
  | row :: rest =>
    if bytes + row.payloadBytes ≤ maxBytes then
      row :: withinBytes maxBytes (bytes + row.payloadBytes) rest
    else []

def pageRows (limits : PageLimits) (rows : List FrameRow) : List FrameRow :=
  match rows.take limits.maxFrames with
  | [] => []
  | row :: rest => row :: withinBytes limits.maxBytes row.payloadBytes rest

namespace NativeFrameStore

def checkpoint (s : NativeFrameStore) (connectionId : String) : ProjectionCheckpoint :=
  let row := s.journalState connectionId
  if row.projectedCursor = none ∧ row.snapshotCursor = none then
    ⟨none, none, row.pendingRequestsJson, none⟩
  else if row.projectedCursor.any (fun p => row.cursor.any (fun c => decide (c ≤ p))) then
    ⟨none, none, row.pendingRequestsJson, none⟩
  else if row.projectedCursor.any (fun p => row.snapshotCursor.any (fun c => decide (c ≤ p))) then
    ⟨none, none, row.pendingRequestsJson, row.cursor⟩
  else
    ⟨row.snapshotCursor, row.snapshotJson, row.pendingRequestsJson,
      row.cursor.filter (fun c => row.snapshotCursor.all (fun s => decide (s < c)))⟩

def framesAfter (s : NativeFrameStore) (connectionId : String) (baseCursor : Option Int) :
    List FrameRow :=
  ((s.framesOf connectionId).filter
    (fun row => baseCursor.all (fun b => decide (b < row.eventCursor)))).insertionSort
    (fun a b => a.eventCursor ≤ b.eventCursor)

def baseCursor (s : NativeFrameStore) (connectionId : String) (afterCursor : Option Int) :
    Option Int :=
  afterCursor.or ((s.journalState connectionId).projectedCursor.or
    (s.journalState connectionId).snapshotCursor)

def committedFrames (s : NativeFrameStore) (connectionId : String) (afterCursor : Option Int)
    (limits : PageLimits) : CommittedFramePage :=
  ⟨s.baseCursor connectionId afterCursor, (s.journalState connectionId).cursor,
    (pageRows limits (s.framesAfter connectionId (s.baseCursor connectionId afterCursor))).map
      FrameRow.stored⟩

def drainCommittedJournal (s : NativeFrameStore) (connectionId : String) (requestedHead : Int)
    (limits : Nat → PageLimits) : Nat → Option Int → Option (List StoredFrame)
  | 0, _ => none
  | fuel + 1, readCursor =>
    let page := s.committedFrames connectionId readCursor (limits fuel)
    let readCursor := readCursor.or page.baseCursor
    match page.frames.getLast? with
    | none =>
      -- An empty page below the head is a range without frames.
      let readCursor :=
        if page.headCursor.any (fun head => decide (readCursor.getD (-1) < head)) then
          page.headCursor
        else readCursor
      if requestedHead ≤ readCursor.getD (-1) then some [] else none
    | some latest =>
      if requestedHead ≤ latest.cursor then some page.frames
      else (drainCommittedJournal s connectionId requestedHead limits fuel
        (some latest.cursor)).map (page.frames ++ ·)

end NativeFrameStore

lemma withinBytes_isPrefix (maxBytes bytes : Nat) (rows : List FrameRow) :
    withinBytes maxBytes bytes rows <+: rows := by
  induction rows generalizing bytes with
  | nil => exact prefix_refl []
  | cons row rest ih =>
  rw [withinBytes]
  split
  · exact (prefix_cons_inj row).mpr (ih _)
  · exact nil_prefix

lemma pageRows_isPrefix (limits : PageLimits) (rows : List FrameRow) :
    pageRows limits rows <+: rows := by
  refine List.IsPrefix.trans ?_ (List.take_prefix limits.maxFrames rows)
  unfold pageRows
  split
  · exact nil_prefix
  · rename_i row rest h
    rw [h]
    exact (prefix_cons_inj row).mpr (withinBytes_isPrefix ..)

lemma pageRows_eq_nil {limits : PageLimits} {rows : List FrameRow}
    (h : pageRows limits rows = []) : rows = [] := by
  unfold pageRows at h
  split at h
  · rename_i hnil
    have := limits.positive
    rcases take_eq_nil_iff.mp hnil with h0 | h0
    · omega
    · exact h0
  · cases h

open NativeFrameStore

variable {s : NativeFrameStore} {connectionId : String}

section

variable (h : Kept (s.journalState connectionId) (s.framesOf connectionId))
include h

lemma Kept.framesAfter (base : Option Int) : s.framesAfter connectionId base =
      (s.framesOf connectionId).filter
        (fun row => base.all (fun b => decide (b < row.eventCursor))) := by
  refine List.Pairwise.insertionSort_eq (h.increasing.sublist filter_sublist |>.imp ?_)
  exact fun hlt => hlt.le

lemma Kept.framesAfter_last {base : Option Int} {front rest : List FrameRow} {last : FrameRow}
    (hrows : s.framesAfter connectionId base = (front ++ [last]) ++ rest) :
    s.framesAfter connectionId (some last.eventCursor) = rest := by
  rw [h.framesAfter] at hrows ⊢
  have hinc := h.increasing.sublist
    (filter_sublist (p := fun row => base.all (fun b => decide (b < row.eventCursor))))
  have hlast : base.all (fun b => decide (b < last.eventCursor)) = true := by
    have hmem : last ∈ (s.framesOf connectionId).filter
        (fun row => base.all (fun b => decide (b < row.eventCursor))) := by
      rw [hrows]
      simp
    exact (mem_filter.mp hmem).2
  -- What is behind the last row is behind the base.
  have hfilter : (s.framesOf connectionId).filter (fun row => decide (last.eventCursor < row.eventCursor)) =
      ((s.framesOf connectionId).filter
        (fun row => base.all (fun b => decide (b < row.eventCursor)))).filter
        (fun row => decide (last.eventCursor < row.eventCursor)) := by
    rw [filter_filter]
    refine filter_congr (fun row _ => ?_)
    cases base with
    | none => simp
    | some b =>
    simp only [Option.all_some, decide_eq_true_eq] at hlast ⊢
    by_cases hrow : last.eventCursor < row.eventCursor
    · simp [hrow, hlast.trans hrow]
    · simp [hrow]
  simp only [Option.all_some]
  rw [hfilter, hrows]
  rw [hrows, pairwise_append] at hinc
  obtain ⟨hfront, -, hcross⟩ := hinc
  rw [filter_append, filter_eq_nil_iff.mpr, filter_eq_self.mpr, nil_append]
  · exact fun row hrow => decide_eq_true (hcross last (by simp) row hrow)
  intro row hrow
  rcases mem_concat.mp hrow with hrow | rfl
  · have := (pairwise_append.mp hfront).2.2 row hrow last (by simp)
    simp only [decide_eq_true_eq]
    omega
  · simp

lemma Kept.drain {head : Int}
    (hhead : (s.journalState connectionId).cursor = some head) (limits : Nat → PageLimits)
    {fuel : Nat} {readCursor : Option Int}
    (hfuel : (s.framesAfter connectionId (s.baseCursor connectionId readCursor)).length < fuel) :
    s.drainCommittedJournal connectionId head limits fuel readCursor =
      some ((s.framesAfter connectionId (s.baseCursor connectionId readCursor)).map
        FrameRow.stored) := by
  induction fuel generalizing readCursor with
  | zero => exact absurd hfuel (Nat.not_lt_zero _)
  | succ fuel ih =>
  obtain ⟨rest, hrows⟩ := pageRows_isPrefix (limits fuel)
    (s.framesAfter connectionId (s.baseCursor connectionId readCursor))
  rw [drainCommittedJournal]
  simp only [committedFrames, getLast?_map, hhead]
  rcases eq_nil_or_concat (pageRows (limits fuel)
    (s.framesAfter connectionId (s.baseCursor connectionId readCursor))) with
    hpage | ⟨front, last, hpage⟩
  · rw [pageRows_eq_nil hpage]
    simp only [pageRows, take_nil, getLast?_nil, Option.map_none, map_nil, Option.any_some]
    split <;> rename_i hlt <;> rw [if_pos]
    · exact le_refl head
    · simpa using hlt
  rw [concat_eq_append] at hpage
  rw [hpage] at hrows ⊢
  have hnext := h.framesAfter_last hrows.symm
  simp only [getLast?_concat, Option.map_some, FrameRow.stored]
  split
  · -- The head is reached: no frame is behind it.
    rename_i hreached
    have hrest : rest = [] := by
      refine eq_nil_iff_forall_not_mem.mpr (fun row hrow => ?_)
      rw [← hnext, h.framesAfter, mem_filter] at hrow
      obtain ⟨c, hc, hle⟩ := h.held row hrow.1
      rw [hhead, Option.some.injEq] at hc
      have hlt := hrow.2
      simp only [Option.all_some, decide_eq_true_eq] at hlt
      omega
    rw [← hrows, hrest, append_nil]
  have hlen := congrArg length hrows
  simp only [length_append, length_cons, length_nil] at hlen
  have hbase : s.baseCursor connectionId (some last.eventCursor) = some last.eventCursor := rfl
  have htail := @ih (some last.eventCursor) (by rw [hbase, hnext]; omega)
  rw [htail, hbase, hnext, ← hrows, map_append, map_append, Option.map_some]
  simp

end

end CodeWide.Device
