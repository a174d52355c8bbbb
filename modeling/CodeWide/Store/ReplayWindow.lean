import CodeWide.Lib.Run
import CodeWide.Lib.Window
import CodeWide.Store.Replay
import Mathlib.Algebra.BigOperators.Group.List.Basic

/-!
# The replay journal is a window of everything ever appended

`Journal` keeps beside the store all payloads ever appended.
-/

namespace CodeWide.Store

open Lib List Saturating

inductive ReplayOp where
  | append (payloads : List Payload) (limits : ReplayLimits)
  | commitPin (request : ThreadPinRequest) (limits : ReplayLimits)
  | importPins (threadIds : List String) (limits : ReplayLimits)

namespace ReplayOp

def limits : ReplayOp → ReplayLimits
  | append _ limits | commitPin _ limits | importPins _ limits => limits

def written (codec : Codec) (s : ReplayStore) : ReplayOp → List Payload
  | append payloads _ => payloads
  | commitPin request _ => [codec.write (request.notification (add64 s.head 1))]
  | importPins threadIds _ => (importedPins codec s threadIds).2.2

def run (codec : Codec) (s : ReplayStore) : ReplayOp → ReplayStore
  | append payloads limits => (appendReplayBatch codec s payloads limits).1
  | commitPin request limits => (commitThreadPin codec s request limits).1
  | importPins threadIds limits => (importThreadPins codec s threadIds limits).1

/-- The operation reaches the pruning loop: an empty batch is answered before it. -/
def Prunes : ReplayOp → Prop
  | append payloads _ => payloads ≠ []
  | _ => True

end ReplayOp

structure Journal where
  store : ReplayStore
  log : List Payload

namespace Journal

def empty : Journal := ⟨ReplayStore.empty, []⟩

def step (codec : Codec) (j : Journal) (op : ReplayOp) : Journal :=
  ⟨op.run codec j.store, j.log ++ op.written codec j.store⟩

end Journal

def payloadBytes (payloads : List Payload) : Nat := (payloads.map length).sum

/-- The operation does not exhaust the 64-bit counters. -/
def Fits (codec : Codec) (j : Journal) (op : ReplayOp) : Prop :=
  j.store.head + (op.written codec j.store).length < max64 ∧
    j.store.bytes + payloadBytes (op.written codec j.store) ≤ max64

/-- The operation does not exhaust the cursors. -/
def HeadFits (codec : Codec) (j : Journal) (op : ReplayOp) : Prop :=
  j.store.head + (op.written codec j.store).length < max64

instance (codec : Codec) (j : Journal) (op : ReplayOp) : Decidable (HeadFits codec j op) :=
  inferInstanceAs (Decidable (_ < _))

/-- The stored entries are the log without its first `dropped` ones, whatever the byte
counter says. -/
structure Retained (s : ReplayStore) (log : List Payload) (dropped : Nat) : Prop where
  window : Window s.replay log dropped
  head : s.head = log.length

structure Tail (s : ReplayStore) (log : List Payload) (dropped : Nat) : Prop where
  window : Window s.replay log dropped
  head : s.head = log.length
  bytes : s.bytes = payloadBytes (log.drop dropped)

lemma Tail.retained {s : ReplayStore} {log : List Payload} {dropped : Nat}
    (h : Tail s log dropped) : Retained s log dropped :=
  ⟨h.window, h.head⟩

namespace Retained

variable {s : ReplayStore} {log : List Payload} {dropped : Nat}

lemma pushEntry (h : Retained s log dropped) (cursors : List Nat) (payload : Payload)
    (hhead : s.head + 1 ≤ max64) :
    Retained (Store.pushEntry (s, cursors) payload).1 (log ++ [payload]) dropped := by
  have hadd := add64_of_le hhead
  refine ⟨?_, ?_⟩
  · change Window (s.replay.insert (add64 s.head 1) payload) _ _
    rw [hadd, h.head]
    exact h.window.insert payload
  · change add64 s.head 1 = _
    rw [hadd, h.head, length_append]
    rfl

lemma foldl_pushEntry {payloads : List Payload} (h : Retained s log dropped)
    (cursors : List Nat) (hhead : s.head + payloads.length ≤ max64) :
    Retained (payloads.foldl Store.pushEntry (s, cursors)).1 (log ++ payloads) dropped := by
  induction payloads generalizing s log cursors with
  | nil => simpa using h
  | cons payload rest ih =>
  rw [length_cons] at hhead
  have hpush := h.pushEntry cursors payload (by omega)
  have hlen : (Store.pushEntry (s, cursors) payload).1.head = s.head + 1 := by
    rw [hpush.head, h.head, length_append]
    rfl
  have hrest := ih hpush (Store.pushEntry (s, cursors) payload).2 (by omega)
  rw [append_assoc] at hrest
  exact hrest

lemma pruneReplay (limits : ReplayLimits) {fuel : Nat} (h : Retained s log dropped) :
    ∃ dropped', Retained (Store.pruneReplay limits fuel s) log dropped' := by
  induction fuel generalizing s dropped with
  | zero => exact ⟨dropped, h⟩
  | succ fuel ih =>
  unfold Store.pruneReplay
  split
  · split
    · exact ⟨dropped, h⟩
    rename_i cursor payload hfirst
    have hnext : Retained { s with
        replay := s.replay.erase cursor, bytes := s.bytes - payload.length }
        log (dropped + 1) := ⟨h.window.erase_first hfirst, h.head⟩
    exact ih hnext
  · exact ⟨dropped, h⟩

lemma setPins (h : Retained s log dropped) (pins : Table String ThreadPin) :
    Retained { s with pins } log dropped :=
  ⟨h.window, h.head⟩

lemma appendReplayTransaction {payloads : List Payload} (h : Retained s log dropped)
    (limits : ReplayLimits) (hhead : s.head + payloads.length ≤ max64) :
    ∃ dropped', Retained (Store.appendReplayTransaction s payloads limits).1 (log ++ payloads)
      dropped' :=
  (h.foldl_pushEntry [] hhead).pruneReplay limits

end Retained

lemma payloadBytes_append (l m : List Payload) :
    payloadBytes (l ++ m) = payloadBytes l + payloadBytes m := by
  simp [payloadBytes]

namespace Tail

variable {s : ReplayStore} {log : List Payload} {dropped : Nat}

lemma pushEntry (h : Tail s log dropped) (cursors : List Nat) (payload : Payload)
    (hhead : s.head + 1 ≤ max64)
    (hbytes : s.bytes + payload.length ≤ max64) :
    Tail (Store.pushEntry (s, cursors) payload).1 (log ++ [payload]) dropped ∧
      (Store.pushEntry (s, cursors) payload).1.head = s.head + 1 ∧
      (Store.pushEntry (s, cursors) payload).1.bytes = s.bytes + payload.length ∧
      (Store.pushEntry (s, cursors) payload).1.pins = s.pins := by
  have haddb := add64_of_le hbytes
  have hpush := h.retained.pushEntry cursors payload hhead
  refine ⟨⟨hpush.window, hpush.head, ?_⟩, add64_of_le hhead, haddb, rfl⟩
  · change add64 s.bytes payload.length = _
    rw [haddb, h.bytes, drop_append_of_le_length h.window.dropped_le, payloadBytes_append]
    simp [payloadBytes]

lemma foldl_pushEntry {payloads : List Payload} (h : Tail s log dropped) (cursors : List Nat)
    (hhead : s.head + payloads.length ≤ max64)
    (hbytes : s.bytes + payloadBytes payloads ≤ max64) :
    Tail (payloads.foldl Store.pushEntry (s, cursors)).1 (log ++ payloads) dropped := by
  induction payloads generalizing s log cursors with
  | nil => simpa using h
  | cons payload rest ih =>
  have hsum : payloadBytes (payload :: rest) = payload.length + payloadBytes rest := by
    simp [payloadBytes]
  rw [length_cons] at hhead
  rw [hsum] at hbytes
  obtain ⟨htail, hh, hb, -⟩ := h.pushEntry cursors payload (by omega) (by omega)
  have hrest := ih htail (Store.pushEntry (s, cursors) payload).2 (by rw [hh]; omega) (by rw [hb]; omega)
  rw [append_assoc] at hrest
  exact hrest

lemma pruneReplay (limits : ReplayLimits) {fuel : Nat} (h : Tail s log dropped)
    (hfuel : log.length - dropped ≤ fuel) :
    ∃ dropped', dropped ≤ dropped' ∧ Tail (Store.pruneReplay limits fuel s) log dropped' ∧
      (Store.pruneReplay limits fuel s).replay.size ≤ limits.maxEntries ∧
      (Store.pruneReplay limits fuel s).bytes ≤ limits.maxBytes := by
  -- With no entry left both counters are zero, so the limits hold whatever they are.
  have hnothing : dropped = log.length → s.replay.size = 0 ∧ s.bytes = 0 := by
    intro heq
    rw [h.window.size, h.bytes, heq]
    simp [payloadBytes]
  induction fuel generalizing s dropped with
  | zero =>
    have hle := h.window.dropped_le
    obtain ⟨hsize, hzero⟩ := hnothing (by omega)
    refine ⟨dropped, le_rfl, h, ?_, ?_⟩
    · change s.replay.size ≤ limits.maxEntries
      omega
    · change s.bytes ≤ limits.maxBytes
      omega
  | succ fuel ih =>
  unfold Store.pruneReplay
  split
  · rename_i hover
    split
    · rename_i hfirst
      obtain ⟨hsize, hzero⟩ := hnothing (h.window.first?_eq_none_iff.mp hfirst)
      omega
    rename_i cursor payload hfirst
    obtain ⟨-, hget⟩ := h.window.first?_eq hfirst
    have hwindow := h.window.erase_first hfirst
    have hlt := hwindow.dropped_le
    have hdrop : log.drop dropped = payload :: log.drop (dropped + 1) := by
      obtain ⟨hbound, heq⟩ := List.getElem?_eq_some_iff.mp hget
      rw [List.drop_eq_getElem_cons hbound, heq]
    have hsum : s.bytes = payload.length + payloadBytes (log.drop (dropped + 1)) := by
      rw [h.bytes, hdrop]
      simp [payloadBytes]
    have htail : Tail { s with
        replay := s.replay.erase cursor, bytes := s.bytes - payload.length }
        log (dropped + 1) := by
      refine ⟨hwindow, h.head, ?_⟩
      change s.bytes - payload.length = _
      omega
    obtain ⟨dropped', hle, hres⟩ := ih htail (by omega) (by
      intro heq
      rw [htail.window.size, htail.bytes, heq]
      simp [payloadBytes])
    exact ⟨dropped', by omega, hres⟩
  · rename_i hfine
    push Not at hfine
    exact ⟨dropped, le_rfl, h, hfine⟩

lemma appendReplayTransaction {payloads : List Payload} (h : Tail s log dropped)
    (limits : ReplayLimits) (hhead : s.head + payloads.length ≤ max64)
    (hbytes : s.bytes + payloadBytes payloads ≤ max64) :
    ∃ dropped', Tail (Store.appendReplayTransaction s payloads limits).1 (log ++ payloads) dropped' ∧
      (Store.appendReplayTransaction s payloads limits).1.replay.size ≤ limits.maxEntries ∧
      (Store.appendReplayTransaction s payloads limits).1.bytes ≤ limits.maxBytes := by
  have hpush := h.foldl_pushEntry [] hhead hbytes
  obtain ⟨dropped', -, hres⟩ := hpush.pruneReplay limits (le_of_eq hpush.window.size.symm)
  exact ⟨dropped', hres⟩

lemma setPins (h : Tail s log dropped) (pins : Table String ThreadPin) :
    Tail { s with pins } log dropped :=
  ⟨h.window, h.head, h.bytes⟩

end Tail

/-- The store is a window of the log and its counters are not exhausted. -/
def Journal.WellFormed (j : Journal) : Prop :=
  (∃ dropped, Tail j.store j.log dropped) ∧ j.store.head < max64

lemma Journal.wellFormed_empty : Journal.empty.WellFormed :=
  ⟨⟨0, Window.empty, rfl, rfl⟩, by decide⟩

section Steps

variable {codec : Codec} {j : Journal} {op : ReplayOp}

lemma Tail.step {dropped : Nat} (h : Tail j.store j.log dropped) (hfits : Fits codec j op) :
    ∃ dropped', Tail (j.step codec op).store (j.step codec op).log dropped' ∧
      (op.Prunes → (j.step codec op).store.replay.size ≤ op.limits.maxEntries ∧
        (j.step codec op).store.bytes ≤ op.limits.maxBytes) := by
  obtain ⟨hhead, hbytes⟩ := hfits
  cases op with
  | append payloads limits =>
    change j.store.head + payloads.length < _ at hhead
    change j.store.bytes + payloadBytes payloads ≤ _ at hbytes
    change ∃ dropped', Tail (appendReplayBatch codec j.store payloads limits).1
      (j.log ++ payloads) dropped' ∧ (payloads ≠ [] →
        (appendReplayBatch codec j.store payloads limits).1.replay.size ≤ limits.maxEntries ∧
        (appendReplayBatch codec j.store payloads limits).1.bytes ≤ limits.maxBytes)
    cases payloads with
    | nil => exact ⟨dropped, by simpa [appendReplayBatch] using h, fun hne => absurd rfl hne⟩
    | cons payload rest =>
    obtain ⟨dropped', htail, hlimits⟩ :=
      h.appendReplayTransaction limits (le_of_lt hhead) hbytes
    exact ⟨dropped', htail.setPins _, fun _ => hlimits⟩
  | commitPin request limits =>
    obtain ⟨dropped', htail, hlimits⟩ :=
      h.appendReplayTransaction limits (le_of_lt hhead) hbytes
    exact ⟨dropped', htail.setPins _, fun _ => hlimits⟩
  | importPins threadIds limits =>
  obtain ⟨dropped', htail, hlimits⟩ :=
    (h.setPins (importedPins codec j.store threadIds).1).appendReplayTransaction limits
      (le_of_lt hhead) hbytes
  exact ⟨dropped', htail, fun _ => hlimits⟩

lemma Journal.WellFormed.step (h : j.WellFormed) (hfits : Fits codec j op) :
    (j.step codec op).WellFormed := by
  obtain ⟨⟨dropped, htail⟩, -⟩ := h
  obtain ⟨dropped', htail', -⟩ := htail.step hfits
  refine ⟨⟨dropped', htail'⟩, ?_⟩
  have hhead := htail'.head
  have hleng : (j.step codec op).log.length =
      j.log.length + (op.written codec j.store).length := length_append
  have hbef := htail.head
  have hfits := hfits.1
  omega

lemma Journal.wellFormed_exec {ops : List ReplayOp}
    (hrun : Always (Journal.step codec) (Fits codec) Journal.empty ops) :
    (exec (Journal.step codec) Journal.empty ops).WellFormed :=
  exec_invariant_of_always (fun _ _ hj hfits => hj.step hfits) Journal.wellFormed_empty hrun

lemma Retained.step {dropped : Nat} (h : Retained j.store j.log dropped)
    (hfits : HeadFits codec j op) :
    ∃ dropped', Retained (j.step codec op).store (j.step codec op).log dropped' := by
  have hhead := le_of_lt hfits
  cases op with
  | append payloads limits =>
    change ∃ dropped', Retained (appendReplayBatch codec j.store payloads limits).1
      (j.log ++ payloads) dropped'
    cases payloads with
    | nil => exact ⟨dropped, by simpa [appendReplayBatch] using h⟩
    | cons payload rest =>
      obtain ⟨dropped', hkept⟩ := h.appendReplayTransaction limits hhead
      exact ⟨dropped', hkept.setPins _⟩
  | commitPin request limits =>
    obtain ⟨dropped', hkept⟩ := h.appendReplayTransaction limits hhead
    exact ⟨dropped', hkept.setPins _⟩
  | importPins threadIds limits =>
    exact (h.setPins (importedPins codec j.store threadIds).1).appendReplayTransaction limits hhead

/-- The stored entries are a window of the log and the cursors are not exhausted. -/
def Journal.Numbered (j : Journal) : Prop :=
  (∃ dropped, Retained j.store j.log dropped) ∧ j.store.head < max64

lemma Journal.numbered_empty : Journal.empty.Numbered :=
  ⟨⟨0, Window.empty, rfl⟩, by decide⟩

lemma Journal.Numbered.head (h : j.Numbered) : j.store.head = j.log.length := by
  obtain ⟨⟨_, hkept⟩, -⟩ := h
  exact hkept.head

lemma Journal.Numbered.step (h : j.Numbered) (hfits : HeadFits codec j op) :
    (j.step codec op).Numbered := by
  have hbef := h.head
  obtain ⟨⟨dropped, hkept⟩, -⟩ := h
  obtain ⟨dropped', hkept'⟩ := hkept.step hfits
  refine ⟨⟨dropped', hkept'⟩, ?_⟩
  have hhead := hkept'.head
  have hleng : (j.step codec op).log.length =
      j.log.length + (op.written codec j.store).length := length_append
  unfold HeadFits at hfits
  omega

end Steps

section Pages

variable {s : ReplayStore} {log : List Payload} {dropped : Nat}

lemma Retained.snapshotRequired_iff (h : Retained s log dropped) (hhead : s.head < max64)
    (c : Nat) : snapshotRequired s (some c) = true ↔ s.head < c ∨ c < dropped := by
  have hle := h.window.dropped_le
  have hlen := h.head
  unfold snapshotRequired
  simp only [gt_iff_lt, Bool.or_eq_true, Bool.and_eq_true, decide_eq_true_eq]
  refine or_congr_right ?_
  cases hfirst : s.replay.first? with
  | none =>
    have hdropped := h.window.first?_eq_none_iff.mp hfirst
    simp only [Option.map_none, Option.all_none, and_true]
    omega
  | some e =>
  obtain ⟨k, a⟩ := e
  obtain ⟨rfl, hget⟩ := h.window.first?_eq hfirst
  obtain ⟨hbound, -⟩ := List.getElem?_eq_some_iff.mp hget
  simp only [Option.map_some, Option.all_some, decide_eq_true_eq]
  constructor
  · rintro ⟨hlt, hgap⟩
    rw [add64_of_le (by omega)] at hgap
    omega
  · intro hlt
    rw [add64_of_le (by omega)]
    omega

lemma Retained.replayAfter_entries (h : Retained s log dropped) (hhead : s.head < max64)
    {c : Nat} (hpage : (replayAfter s (some c)).snapshotRequired = false) :
    c ≤ log.length ∧ (replayAfter s (some c)).entries = numbered c (log.drop c) := by
  change snapshotRequired s (some c) = false at hpage
  have hnot := (h.snapshotRequired_iff hhead c).not
  rw [Bool.not_eq_true] at hnot
  have hbounds := hnot.mp hpage
  push Not at hbounds
  have hlen := h.head
  refine ⟨by omega, ?_⟩
  have hadd : add64 c 1 = c + 1 := add64_of_le (by omega)
  change (if snapshotRequired s (some c) then [] else
    s.replay.entries.filter (fun e => decide (add64 c 1 ≤ e.1))) = _
  rw [hpage, hadd]
  exact h.window.entries_above hbounds.2

end Pages

lemma Journal.Numbered.page {j : Journal} (h : j.Numbered) {c : Nat}
    (hpage : (replayAfter j.store (some c)).snapshotRequired = false) :
    c ≤ j.log.length ∧ (replayAfter j.store (some c)).headCursor = j.log.length ∧
      (replayAfter j.store (some c)).entries = numbered c (j.log.drop c) := by
  obtain ⟨⟨dropped, hkept⟩, hhead⟩ := h
  obtain ⟨hle, hent⟩ := hkept.replayAfter_entries hhead hpage
  exact ⟨hle, hkept.head, hent⟩

/-- Consecutive cursors up to the head, exact counters and limits, and exact pages. -/
theorem replay_journal_window (codec : Codec) (ops : List ReplayOp)
    (hrun : Always (Journal.step codec) (Fits codec) Journal.empty ops) :
    let j := exec (Journal.step codec) Journal.empty ops
    let s := j.store
    s.head = j.log.length ∧ s.replay.size ≤ s.head ∧
    (∀ k, (∃ payload, s.replay.get? k = some payload) ↔ s.head - s.replay.size < k ∧ k ≤ s.head) ∧
    s.bytes = payloadBytes (s.replay.entries.map Prod.snd) ∧
    (∀ op, Fits codec j op → op.Prunes →
      (j.step codec op).store.replay.size ≤ op.limits.maxEntries ∧
      (j.step codec op).store.bytes ≤ op.limits.maxBytes) ∧
    (∀ c, (replayAfter s (some c)).snapshotRequired = true ∨
      c ≤ s.head ∧ (replayAfter s (some c)).entries = numbered c (j.log.drop c)) := by
  intro j s
  obtain ⟨⟨dropped, htail⟩, hhead⟩ := Journal.wellFormed_exec hrun
  have hlen : s.head = j.log.length := htail.head
  have hle : dropped ≤ j.log.length := htail.window.dropped_le
  have hsize : s.replay.size = j.log.length - dropped := htail.window.size
  refine ⟨hlen, by omega, ?_, ?_, ?_, ?_⟩
  · intro k
    have hrange : s.head - s.replay.size = dropped := by omega
    rw [htail.window.get?_isSome_iff, hrange, hlen]
  · rw [htail.window.entries, map_snd_numbered]
    exact htail.bytes
  · intro op hfits hprunes
    obtain ⟨_, -, hlimits⟩ := htail.step hfits
    exact hlimits hprunes
  intro c
  cases hpage : (replayAfter s (some c)).snapshotRequired with
  | true => exact .inl rfl
  | false =>
    rw [hlen]
    exact .inr (htail.retained.replayAfter_entries hhead hpage)

/-- Two appended entries under a limit of ten, then one pin under a limit of two. -/
theorem replay_journal_window_pinned :
    let codec : Codec := ⟨fun _ => none, fun _ => [123, 125]⟩
    let ops := [.append [[1], [2, 2]] ⟨10, 100⟩, .commitPin ⟨"t", true⟩ ⟨2, 100⟩]
    Always (Journal.step codec) (Fits codec) Journal.empty ops ∧
      (exec (Journal.step codec) Journal.empty ops).store.head = 3 := by
  intro codec ops
  have hrun : Always (Journal.step codec) (Fits codec) Journal.empty ops := by
    refine ⟨⟨?_, ?_⟩, ⟨?_, ?_⟩, trivial⟩ <;> decide
  exact ⟨hrun, (replay_journal_window codec ops hrun).1.trans (by decide)⟩

variable {payloads : List Payload}

lemma head_foldl_pushEntry {s : ReplayStore} {cursors : List Nat} (h : s.head ≤ max64) :
    (payloads.foldl pushEntry (s, cursors)).1.head ≤ max64 := by
  induction payloads generalizing s cursors with
  | nil => exact h
  | cons payload rest ih => exact ih (add64_le_max _ _)

variable {limits : ReplayLimits}

lemma head_pruneReplay {s : ReplayStore} {fuel : Nat} :
    (pruneReplay limits fuel s).head = s.head := by
  induction fuel generalizing s with
  | zero => rfl
  | succ fuel ih =>
  unfold pruneReplay
  split
  · split
    · rfl
    · exact ih
  · rfl

lemma head_appendReplayBatch {codec : Codec} {s : ReplayStore} (h : s.head ≤ max64) :
    (appendReplayBatch codec s payloads limits).1.head ≤ max64 := by
  unfold appendReplayBatch
  split
  · exact h
  · change (pruneReplay limits _ _).head ≤ _
    rw [head_pruneReplay]
    exact head_foldl_pushEntry h

lemma head_after_append (codec : Codec) (payloads : List Payload) (limits : ReplayLimits) :
    (exec (Journal.step codec) Journal.empty [.append payloads limits]).store.head ≤ max64 :=
  head_appendReplayBatch (Nat.zero_le _)

lemma log_after_append (codec : Codec) (payloads : List Payload) (limits : ReplayLimits) :
    (exec (Journal.step codec) Journal.empty [.append payloads limits]).log = payloads := rfl

/-- An empty batch with a smaller limit leaves the journal above it. -/
theorem replay_journal_exceptions :
    let codec : Codec := ⟨fun _ => none, fun _ => []⟩
    ¬ (exec (Journal.step codec) Journal.empty
        [.append [[1], [2]] ⟨10, 100⟩, .append [] ⟨1, 100⟩]).store.replay.size ≤ 1 ∧
    (exec (Journal.step codec) Journal.empty
        [.append (replicate (2 ^ 64) []) ⟨1, 100⟩]).store.head ≠
      (exec (Journal.step codec) Journal.empty
        [.append (replicate (2 ^ 64) []) ⟨1, 100⟩]).log.length := by
  intro codec
  refine ⟨by decide, ?_⟩
  have hhead := head_after_append codec (replicate (2 ^ 64) []) ⟨1, 100⟩
  have hlog := log_after_append codec (replicate (2 ^ 64) []) ⟨1, 100⟩
  rw [hlog, length_replicate]
  have hmax : max64 < 2 ^ 64 := by
    unfold max64
    omega
  exact Nat.ne_of_lt (Nat.lt_of_le_of_lt hhead hmax)

lemma bytes_foldl_pushEntry {s : ReplayStore} {cursors : List Nat} {payloads : List Payload}
    (h : s.bytes ≤ max64) :
    (payloads.foldl pushEntry (s, cursors)).1.bytes ≤ max64 := by
  induction payloads generalizing s cursors with
  | nil => exact h
  | cons payload rest ih => exact ih (add64_le_max _ _)

lemma pruneReplay_of_within {s : ReplayStore} {fuel : Nat}
    (hent : s.replay.size ≤ limits.maxEntries) (hbytes : s.bytes ≤ limits.maxBytes) :
    pruneReplay limits fuel s = s := by
  cases fuel with
  | zero => rfl
  | succ fuel =>
  unfold pruneReplay
  rw [if_neg]
  push Not
  exact ⟨hent, hbytes⟩

lemma retained_exhausted (codec : Codec) (hlen : payloads.length = max64) :
    Retained (appendReplayBatch codec ReplayStore.empty payloads ⟨max64, max64⟩).1 payloads 0 := by
  have hempty : payloads.isEmpty = false := by
    rw [isEmpty_eq_false_iff, ← length_pos_iff, hlen]
    decide
  have hstart : Retained ReplayStore.empty [] 0 := ⟨Window.empty, rfl⟩
  have hpush := @Retained.foldl_pushEntry _ _ _ payloads hstart [] (by
    change 0 + payloads.length ≤ _
    omega)
  rw [nil_append] at hpush
  have hsize := hpush.window.size
  have hbytes := @bytes_foldl_pushEntry ReplayStore.empty [] payloads (Nat.zero_le _)
  unfold appendReplayBatch
  rw [hempty]
  refine Retained.setPins ?_ _
  rw [pruneReplay_of_within (by dsimp only; omega) hbytes]
  exact hpush

lemma replayAfter_exhausted {s : ReplayStore}
    (h : Retained s payloads 0) (hlen : payloads.length = max64) :
    (replayAfter s (some max64)).snapshotRequired = false ∧ (replayAfter s (some max64)).entries =
        numbered (max64 - 1) (payloads.drop (max64 - 1)) := by
  have hhead : s.head = max64 := h.head.trans hlen
  have hfresh : snapshotRequired s (some max64) = false := by
    simp [snapshotRequired, hhead]
  refine ⟨hfresh, ?_⟩
  have hmax : 0 < max64 := by decide
  have hadd : add64 max64 1 = max64 :=
    Nat.min_eq_right (Nat.le_add_right _ _)
  change (if snapshotRequired s (some max64) then [] else
    s.replay.entries.filter (fun e => decide (add64 max64 1 ≤ e.1))) = _
  rw [hfresh, hadd]
  have hsame : (fun e : Nat × Payload => decide (max64 ≤ e.1)) =
      fun e => decide (max64 - 1 < e.1) := by
    funext e
    exact decide_eq_decide.mpr (by omega)
  rw [hsame]
  exact h.window.entries_above (Nat.zero_le _)

end CodeWide.Store
