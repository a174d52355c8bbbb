import CodeWide.Sync.Following
import CodeWide.Sync.ThreadSync

/-!
# What a fence covers

The journaled events of a thread, with those queued or streamed, are what its provider has
emitted (`Pipeline`).
-/

namespace CodeWide.Sync

open Lib Store List

/-! ## Fences in a queue -/

def eventsOf (items : List IngestItem) : List Json := items.filterMap IngestItem.threadEvent

lemma eventsOf_append (l m : List IngestItem) : eventsOf (l ++ m) = eventsOf l ++ eventsOf m :=
  filterMap_append

/-- Every fence among the items stands behind as many events as it was set behind. -/
def Fenced (head : Nat) : Nat → List IngestItem → Prop
  | _, [] => True
  | n, .event _ :: rest => Fenced head (n + 1) rest
  | n, .fence fence :: rest => fence.events = n ∧ fence.head ≤ head ∧ Fenced head n rest
  | n, .other _ :: rest => Fenced head n rest
  | n, .pin _ :: rest => Fenced head n rest

lemma fenced_append {head n : Nat} {l m : List IngestItem} :
    Fenced head n (l ++ m) ↔ Fenced head n l ∧ Fenced head (n + (eventsOf l).length) m := by
  induction l generalizing n with
  | nil => exact (and_iff_right trivial).symm
  | cons item rest ih =>
  cases item with
  | event payload =>
    have hcount : n + (eventsOf (.event payload :: rest)).length =
        n + 1 + (eventsOf rest).length := by
      change n + ((eventsOf rest).length + 1) = _
      omega
    rw [hcount]
    exact ih
  | other payload | pin op => exact ih
  | fence fence =>
  change _ ∧ _ ∧ Fenced head n (rest ++ m) ↔ (_ ∧ _ ∧ Fenced head n rest) ∧ _
  rw [ih, and_assoc, and_assoc]
  rfl

lemma Fenced.mono {head head' n : Nat} {items : List IngestItem} (h : Fenced head n items)
    (hle : head ≤ head') : Fenced head' n items := by
  induction items generalizing n with
  | nil => trivial
  | cons item rest ih =>
  cases item with
  | event payload | other payload | pin op => exact ih h
  | fence fence =>
    obtain ⟨hevs, hhead, hrest⟩ := h
    exact ⟨hevs, le_trans hhead hle, ih hrest⟩

namespace Companion

variable {codec : Codec} {p : Provider} {s : Companion p}

/-! ## The pipeline -/

def carried (s : Companion p) (cursor : Nat) : List Json :=
  (s.journaled.filter (fun e => decide (e.1 ≤ cursor))).map Prod.snd

/-- A fence was resolved to a cursor that divides the events where the fence was set. -/
structure Resolved (s : Companion p) (fence : Fence) (cursor : Nat) : Prop where
  set_le : fence.head ≤ cursor
  le_head : cursor ≤ s.journal.store.head
  events_le : fence.events ≤ s.emitted.length
  carried : s.carried cursor = s.emitted.take fence.events

/-- What is journaled, queued and streamed is what was emitted, with the fences where they
were set. -/
structure Pipeline (codec : Codec) (s : Companion p) : Prop where
  inv : s.socket.Inv codec
  emitted : s.journaled.map Prod.snd ++ eventsOf (s.queue ++ s.stream) = s.emitted
  fenced : Fenced s.journal.store.head s.journaled.length (s.queue ++ s.stream)
  stamps : ∀ e ∈ s.journaled, e.1 ≤ s.journal.store.head
  resolved : ∀ r ∈ s.resolved, s.Resolved r.1 r.2

lemma pipeline_initial : (initial p).Pipeline codec where
  inv := Socket.inv_initial
  emitted := rfl
  fenced := trivial
  stamps := by
    intro e he
    exact absurd he not_mem_nil
  resolved := by
    intro r hr
    exact absurd hr not_mem_nil

def HeadFits (codec : Codec) (s : Companion p) : CompanionInput → Prop
  | .ingest _ payloads => Store.HeadFits codec s.journal (.append payloads limits)
  | .control =>
    match s.queue with
    | .pin op :: _ => Store.HeadFits codec s.journal op
    | _ => True
  | _ => True

instance (codec : Codec) (s : Companion p) (input : CompanionInput) :
    Decidable (s.HeadFits codec input) := by
  unfold HeadFits Store.HeadFits
  cases input with
  | ingest size payloads => infer_instance
  | control => exact (match s.queue with
    | .pin _ :: _ => inferInstanceAs (Decidable (_ < _))
    | [] => isTrue trivial
    | .event _ :: _ => isTrue trivial
    | .other _ :: _ => isTrue trivial
    | .fence _ :: _ => isTrue trivial)
  | _ => exact isTrue trivial

def OfTask : CompanionInput → Prop
  | .startSync => True
  | .readShell _ => True
  | .readTurn => True
  | .readHistory => True
  | .enrichTurn => True
  | .finish => True
  | .fail => True
  | _ => False

lemma step_ofTask {input : CompanionInput} (hinput : OfTask input) :
    ∃ task, s.step codec input = { s with task } ∨
      s.step codec input = { s.setFence with task } := by
  cases input with
  | startSync =>
    change ∃ task, s.startSync = _ ∨ s.startSync = _
    unfold Companion.startSync
    split
    all_goals exact ⟨_, .inl rfl⟩
  | readShell access =>
    change ∃ task, s.readShell access = _ ∨ s.readShell access = _
    unfold Companion.readShell
    split
    · exact ⟨_, .inr rfl⟩
    · exact ⟨_, .inl rfl⟩
  | readTurn =>
    change ∃ task, s.readTurn = _ ∨ s.readTurn = _
    unfold Companion.readTurn
    split
    · dsimp only
      split
      · split
        · exact ⟨_, .inr rfl⟩
        · exact ⟨_, .inr rfl⟩
      · exact ⟨_, .inl rfl⟩
    · exact ⟨_, .inl rfl⟩
  | readHistory =>
    change ∃ task, s.readHistory = _ ∨ s.readHistory = _
    unfold Companion.readHistory
    split
    · exact ⟨_, .inl rfl⟩
    · exact ⟨_, .inl rfl⟩
  | enrichTurn =>
    change ∃ task, s.enrichTurn = _ ∨ s.enrichTurn = _
    unfold Companion.enrichTurn
    split
    · exact ⟨_, .inl rfl⟩
    · exact ⟨_, .inl rfl⟩
  | finish =>
    change ∃ task, s.finish = _ ∨ s.finish = _
    unfold Companion.finish
    split
    · split
      · exact ⟨_, .inl rfl⟩
      · exact ⟨_, .inl rfl⟩
    · exact ⟨_, .inl rfl⟩
  | fail =>
    change ∃ task, s.fail = _ ∨ s.fail = _
    unfold Companion.fail
    split
    all_goals exact ⟨_, .inl rfl⟩
  | _ => exact absurd hinput (by simp [OfTask])

namespace Pipeline

section

variable (h : s.Pipeline codec)
include h

lemma emitted_length :
    s.emitted.length = s.journaled.length + (eventsOf (s.queue ++ s.stream)).length := by
  rw [← h.emitted, length_append, length_map]

lemma head_commit {op : ReplayOp} (hfits : Store.HeadFits codec s.journal op) :
    (s.commit codec op).journal.store.head =
      s.journal.store.head + (op.written codec s.journal.store).length := by
  have hbefore : s.journal.store.head = s.journal.log.length := h.inv.journal.head
  have hafter : (s.commit codec op).journal.store.head = (s.commit codec op).journal.log.length :=
    (h.inv.journal.step hfits).head
  have hlog : (s.commit codec op).journal.log =
      s.journal.log ++ op.written codec s.journal.store := rfl
  rw [hafter, hlog, length_append, hbefore]

lemma inv_commit {op : ReplayOp}
    (hfits : Store.HeadFits codec s.journal op) : (s.commit codec op).socket.Inv codec :=
  @Socket.Inv.step codec s.socket h.inv (.journal op) hfits

lemma setTask (task : SyncTask p) : Pipeline codec { s with task } :=
  ⟨h.inv, h.emitted, h.fenced, h.stamps,
    fun r hr => ⟨(h.resolved r hr).set_le, (h.resolved r hr).le_head, (h.resolved r hr).events_le,
      (h.resolved r hr).carried⟩⟩

lemma setSocket {socket : Socket} (hinv : socket.Inv codec)
    (hjnl : socket.journal = s.socket.journal) : Pipeline codec { s with socket } := by
  have hhead : (journal { s with socket }).store.head = s.journal.store.head :=
    congrArg (fun j => j.store.head) hjnl
  refine ⟨hinv, h.emitted, ?_, ?_, ?_⟩
  · rw [hhead]
    exact h.fenced
  · intro e he
    rw [hhead]
    exact h.stamps e he
  · intro r hr
    obtain ⟨hset, hle, hevs, hcarry⟩ := h.resolved r hr
    exact ⟨hset, by rw [hhead]; exact hle, hevs, hcarry⟩

lemma setQueue {queue stream : List IngestItem}
    (hevs : eventsOf (queue ++ stream) = eventsOf (s.queue ++ s.stream))
    (hfenced : Fenced s.journal.store.head s.journaled.length (queue ++ stream)) :
    Pipeline codec { s with queue, stream } := by
  refine ⟨h.inv, ?_, hfenced, h.stamps, ?_⟩
  · change _ ++ eventsOf (queue ++ stream) = _
    rw [hevs]
    exact h.emitted
  · intro r hr
    obtain ⟨hset, hle, hemitted, hcarry⟩ := h.resolved r hr
    exact ⟨hset, hle, hemitted, hcarry⟩

lemma emit (payload : Json) : (s.step codec (.emit payload)).Pipeline codec := by
  have hsplit : s.queue ++ (s.stream ++ [.event payload]) =
      s.queue ++ s.stream ++ [IngestItem.event payload] := (append_assoc _ _ _).symm
  refine ⟨h.inv, ?_, ?_, h.stamps, ?_⟩
  · change s.journaled.map Prod.snd ++ eventsOf (s.queue ++ (s.stream ++ [_])) =
      s.emitted ++ [payload]
    rw [hsplit, eventsOf_append, ← append_assoc, h.emitted]
    rfl
  · change Fenced _ _ (s.queue ++ (s.stream ++ [_]))
    rw [hsplit, fenced_append]
    exact ⟨h.fenced, trivial⟩
  intro r hr
  obtain ⟨hset, hle, hevs, hcarry⟩ := h.resolved r hr
  refine ⟨hset, hle, ?_, ?_⟩
  · change _ ≤ (s.emitted ++ [payload]).length
    rw [length_append]
    omega
  · change s.carried r.2 = (s.emitted ++ [payload]).take _
    rw [take_append_of_le_length hevs]
    exact hcarry

lemma emitOther (payload : Json) : (s.step codec (.emitOther payload)).Pipeline codec := by
  have hsplit : s.queue ++ (s.stream ++ [.other payload]) =
      s.queue ++ s.stream ++ [IngestItem.other payload] := (append_assoc _ _ _).symm
  apply h.setQueue
  · rw [hsplit, eventsOf_append]
    exact append_nil _
  · rw [hsplit, fenced_append]
    exact ⟨h.fenced, trivial⟩

lemma setFence : s.setFence.Pipeline codec := by
  have hsplit : s.queue ++ (s.stream ++ [.fence s.newFence]) =
      s.queue ++ s.stream ++ [IngestItem.fence s.newFence] := (append_assoc _ _ _).symm
  have hkept : Pipeline codec { s with stream := s.stream ++ [.fence s.newFence] } := by
    apply h.setQueue
    · rw [hsplit, eventsOf_append]
      exact append_nil _
    · rw [hsplit, fenced_append]
      exact ⟨h.fenced, h.emitted_length, le_rfl, trivial⟩
  exact ⟨hkept.inv, hkept.emitted, hkept.fenced, hkept.stamps, fun r hr =>
    ⟨(hkept.resolved r hr).set_le, (hkept.resolved r hr).le_head, (hkept.resolved r hr).events_le,
      (hkept.resolved r hr).carried⟩⟩

lemma forward : s.forward.Pipeline codec := by
  unfold Companion.forward
  split
  · exact h
  rename_i item rest hstr
  have hsplit : s.queue ++ [item] ++ rest = s.queue ++ s.stream := by
    rw [hstr, append_assoc]
    rfl
  apply h.setQueue
  · rw [hsplit]
  · rw [hsplit]
    exact h.fenced

lemma pushQueue {item : IngestItem} (hevent : item.threadEvent = none)
    (hfence : ∀ fence, item ≠ .fence fence) :
    Pipeline codec { s with queue := s.queue ++ [item] } := by
  have hnone : eventsOf [item] = [] := by
    simp [eventsOf, hevent]
  have hone : ∀ n, Fenced s.journal.store.head n [item] := by
    intro n
    cases item with
    | fence fence => exact absurd rfl (hfence fence)
    | _ => trivial
  obtain ⟨hqueue, hstr⟩ := fenced_append.mp h.fenced
  apply h.setQueue
  · rw [eventsOf_append, eventsOf_append, hnone, append_nil, eventsOf_append]
  · rw [fenced_append, fenced_append, eventsOf_append, hnone, append_nil]
    exact ⟨⟨hqueue, hone _⟩, hstr⟩

lemma enqueue (item : IngestItem) : (s.enqueue item).Pipeline codec := by
  unfold Companion.enqueue
  split
  · exact h.pushQueue rfl (by simp)
  · exact h.pushQueue rfl (by simp)
  · exact h.pushQueue rfl (by simp)
  · exact h

end

lemma queue_eq_batch (s : Companion p) (size : Nat) :
    s.queue = s.batch size ++ s.queue.drop (s.batch size).length := by
  have hprefix : s.batch size <+: s.queue :=
    (List.take_prefix _ _).trans (List.takeWhile_prefix _)
  obtain ⟨rest, hrest⟩ := hprefix
  rw [← hrest, drop_left]

lemma carried_append {journaled : List (Nat × Json)} {events : List Json} {head cursor : Nat}
    (hlt : cursor < head) :
    ((journaled ++ events.map (fun e => (head, e))).filter
      (fun e => decide (e.1 ≤ cursor))).map Prod.snd =
      (journaled.filter (fun e => decide (e.1 ≤ cursor))).map Prod.snd := by
  have hnone : (events.map (fun e => (head, e))).filter (fun e => decide (e.1 ≤ cursor)) = [] := by
    rw [filter_eq_nil_iff]
    intro e he
    obtain ⟨payload, -, rfl⟩ := mem_map.mp he
    simpa using hlt
  rw [filter_append, hnone, append_nil]

section

variable (h : s.Pipeline codec)
include h

lemma ingest {size : Nat} {payloads : List Store.Payload}
    (hfits : Store.HeadFits codec s.journal (.append payloads limits)) :
    (s.ingest codec size payloads).Pipeline codec := by
  have hqueue := queue_eq_batch s size
  -- The batch holds no fence, so the fences behind it keep their counts.
  have hsplit : s.queue ++ s.stream =
      s.batch size ++ (s.queue.drop (s.batch size).length ++ s.stream) := by
    rw [← append_assoc, ← hqueue]
  have hfenced := h.fenced
  have hemitted := h.emitted
  rw [hsplit, fenced_append] at hfenced
  rw [hsplit, eventsOf_append] at hemitted
  unfold Companion.ingest
  dsimp only
  split
  · split
    · rename_i hnone
      change eventsOf (s.batch size) = [] at hnone
      rw [hnone] at hfenced
      apply h.setQueue
      · rw [hsplit, eventsOf_append (s.batch size), hnone, nil_append]
      · exact hfenced.2
    · exact h
  rename_i hpays
  split
  · exact h
  have hhead := h.head_commit hfits
  change _ = _ + payloads.length at hhead
  have hpos := length_pos_iff.mpr hpays
  refine ⟨h.inv_commit hfits, ?_, ?_, ?_, ?_⟩
  · change (s.journaled ++ _).map Prod.snd ++ eventsOf _ = s.emitted
    rw [map_append, map_map, append_assoc, ← hemitted]
    congr 2
    exact map_id _
  · change Fenced _ (s.journaled ++ _).length _
    rw [length_append, length_map]
    exact hfenced.2.mono (by change _ ≤ (s.commit codec _).journal.store.head; omega)
  · intro e he
    change e.1 ≤ (s.commit codec _).journal.store.head
    rcases mem_append.mp he with hold | hnew
    · have hle := h.stamps e hold
      omega
    · obtain ⟨payload, -, rfl⟩ := mem_map.mp hnew
      exact le_rfl
  intro r hr
  obtain ⟨hset, hle, hevs, hcarry⟩ := h.resolved r hr
  refine ⟨hset, ?_, hevs, ?_⟩
  · change r.2 ≤ (s.commit codec _).journal.store.head
    omega
  · exact (carried_append (by omega)).trans hcarry

variable {rest : List IngestItem}

lemma resolve {fence : Fence} (hqueue : s.queue = .fence fence :: rest) : Pipeline codec
      { s with queue := rest, resolved := s.resolved ++ [(fence, s.journal.store.head)] } := by
  have hfenced := h.fenced
  rw [hqueue] at hfenced
  obtain ⟨hevs, hset, hrest⟩ := hfenced
  have hemitted := h.emitted
  rw [hqueue] at hemitted
  change s.journaled.map Prod.snd ++ eventsOf (rest ++ s.stream) = s.emitted at hemitted
  refine ⟨h.inv, hemitted, hrest, h.stamps, ?_⟩
  intro r hr
  rcases mem_append.mp hr with hold | hnew
  · obtain ⟨hset', hle, hevs', hcarry⟩ := h.resolved r hold
    exact ⟨hset', hle, hevs', hcarry⟩
  obtain rfl := mem_singleton.mp hnew
  have hlen : s.journaled.length = (s.journaled.map Prod.snd).length := by
    rw [length_map]
  refine ⟨hset, le_rfl, ?_, ?_⟩
  · change fence.events ≤ s.emitted.length
    rw [← hemitted, length_append, length_map]
    omega
  change (s.journaled.filter _).map Prod.snd = s.emitted.take fence.events
  have hall : s.journaled.filter (fun e => decide (e.1 ≤ s.journal.store.head)) = s.journaled := by
    rw [filter_eq_self]
    intro e he
    exact decide_eq_true (h.stamps e he)
  rw [hall, ← hemitted, hevs, hlen, take_left]

lemma commitPin {op : ReplayOp}
    (hqueue : s.queue = .pin op :: rest) (hfits : Store.HeadFits codec s.journal op) :
    Pipeline codec { s.commit codec op with queue := rest } := by
  have hhead := h.head_commit hfits
  have hfenced := h.fenced
  rw [hqueue] at hfenced
  have hemitted := h.emitted
  rw [hqueue] at hemitted
  have hle : s.journal.store.head ≤ (s.commit codec op).journal.store.head := by omega
  refine ⟨h.inv_commit hfits, hemitted, Fenced.mono hfenced hle, ?_, ?_⟩
  · intro e he
    exact le_trans (h.stamps e he) hle
  · intro r hr
    obtain ⟨hset, hbelow, hevs, hcarry⟩ := h.resolved r hr
    exact ⟨hset, le_trans hbelow hle, hevs, hcarry⟩

lemma control (hfits : s.HeadFits codec .control) : (s.control codec).Pipeline codec := by
  unfold Companion.control
  split
  · rename_i fence rest hqueue
    exact h.resolve hqueue
  · rename_i op rest hqueue
    unfold HeadFits at hfits
    rw [hqueue] at hfits
    exact h.commitPin hqueue hfits
  · exact h

lemma socketStep (input : SocketInput) : (s.socketStep codec input).Pipeline codec := by
  cases input with
  | journal op => exact h
  | _ => exact h.setSocket (h.inv.step trivial) (Socket.journal_step (by simp))

lemma ofTask {input : CompanionInput} (hinput : OfTask input) :
    (s.step codec input).Pipeline codec := by
  obtain ⟨task, heq | heq⟩ := @step_ofTask codec p s input hinput
  · rw [heq]
    exact h.setTask task
  · rw [heq]
    exact h.setFence.setTask task

end

lemma step (h : s.Pipeline codec) {input : CompanionInput} (hfits : s.HeadFits codec input) :
    (s.step codec input).Pipeline codec := by
  cases input with
  | socket input => exact h.socketStep input
  | emit payload => exact h.emit payload
  | emitOther payload => exact h.emitOther payload
  | fence => exact h.setFence
  | enqueue item => exact h.enqueue item
  | forward => exact h.forward
  | ingest size payloads => exact h.ingest hfits
  | control => exact h.control hfits
  | _ => exact h.ofTask trivial

end Pipeline

/-! ## The reads of a sync -/

/-- The reads that follow the turn answer the same after both lists of events. -/
structure SameAround (p : Provider) (turn : Option p.Turn) (events events' : List Json) :
    Prop where
  history : p.history events' turn = p.history events turn
  enrich : p.enrich events' turn = p.enrich events turn

/-- An event between the reads of a sync changes nothing on the other side of the fence. -/
def Undisturbed (s : Companion p) : CompanionInput → Prop
  | .emit payload =>
    let later := s.emitted ++ [payload]
    match s.task with
    | .shell access shell _ =>
      if p.fencesTurn access shell then p.shell later = p.shell s.emitted
      else
        p.activeTurn access shell later = p.activeTurn access shell s.emitted ∧
          SameAround p (p.activeTurn access shell s.emitted) s.emitted later
    | .turn _ _ turn _ => SameAround p turn s.emitted later
    | .history _ _ turn _ _ => p.enrich later turn = p.enrich s.emitted turn
    | _ => True
  | _ => True

instance [DecidableEq p.Turn] [DecidableEq p.History] (turn : Option p.Turn)
    (events events' : List Json) : Decidable (SameAround p turn events events') :=
  decidable_of_iff (p.history events' turn = p.history events turn ∧
    p.enrich events' turn = p.enrich events turn)
    ⟨fun h => ⟨h.1, h.2⟩, fun h => ⟨h.history, h.enrich⟩⟩

instance [DecidableEq p.Shell] [DecidableEq p.Turn] [DecidableEq p.History] (s : Companion p)
    (input : CompanionInput) : Decidable (s.Undisturbed input) := by
  unfold Undisturbed
  cases input with
  | emit payload => cases s.task <;> dsimp only <;> infer_instance
  | _ => exact isTrue trivial

/-- A fence of a task that runs since the journal's head was `since`. -/
structure OwnFence (s : Companion p) (since : Nat) (fence : Fence) : Prop where
  since_le : since ≤ fence.head
  events_le : fence.events ≤ s.emitted.length

/-- Every part the task holds is the one at its fence, and what it still reads answers as it did
there. -/
def TaskInv (since : Nat) (s : Companion p) : SyncTask p → Prop
  | .idle => True
  | .started => True
  | .shell access shell fence =>
    let events := s.emitted.take fence.events
    if p.fencesTurn access shell then shell = p.shell s.emitted
    else
      s.OwnFence since fence ∧ shell = p.shell events ∧
        p.activeTurn access shell s.emitted = p.activeTurn access shell events ∧
        SameAround p (p.activeTurn access shell events) events s.emitted
  | .turn access shell turn fence =>
    let events := s.emitted.take fence.events
    s.OwnFence since fence ∧ shell = p.shell events ∧
      turn = p.activeTurn access shell events ∧ SameAround p turn events s.emitted
  | .history access shell turn history fence =>
    let events := s.emitted.take fence.events
    s.OwnFence since fence ∧ shell = p.shell events ∧
      turn = p.activeTurn access shell events ∧ history = p.history events turn ∧
      p.enrich s.emitted turn = p.enrich events turn
  | .enriched access shell turn history fence =>
    let events := s.emitted.take fence.events
    s.OwnFence since fence ∧ shell = p.shell events ∧
      history = p.history events (p.activeTurn access shell events) ∧
      turn = p.enrich events (p.activeTurn access shell events)
  | .done answer =>
    ∃ fence, (fence, answer.throughCursor) ∈ s.resolved ∧ s.OwnFence since fence ∧
      answer = p.answerAt answer.throughCursor answer.access (s.emitted.take fence.events)
  | .failed => True

structure Extends (s s' : Companion p) : Prop where
  emitted : s'.emitted = s.emitted
  resolved : ∀ r ∈ s.resolved, r ∈ s'.resolved

lemma TaskInv.of_extends {s' : Companion p} {since : Nat} {task : SyncTask p}
    (h : TaskInv since s task) (hext : Extends s s') : TaskInv since s' task := by
  have hfence : ∀ fence, s.OwnFence since fence → s'.OwnFence since fence := by
    intro fence hown
    refine ⟨hown.since_le, ?_⟩
    rw [hext.emitted]
    exact hown.events_le
  cases task with
  | idle | started | failed => trivial
  | shell access shell fence =>
    unfold TaskInv at h ⊢
    rw [hext.emitted]
    dsimp only at h ⊢
    split
    · rename_i hfences
      rw [if_pos hfences] at h
      exact h
    · rename_i hfences
      rw [if_neg hfences] at h
      exact ⟨hfence fence h.1, h.2⟩
  | turn access shell turn fence | history access shell turn history fence
  | enriched access shell turn history fence =>
    unfold TaskInv at h ⊢
    rw [hext.emitted]
    exact ⟨hfence fence h.1, h.2⟩
  | done answer =>
  obtain ⟨fence, hmem, hown, heq⟩ := h
  unfold TaskInv
  rw [hext.emitted]
  exact ⟨fence, hext.resolved _ hmem, hfence fence hown, heq⟩

lemma TaskInv.emit {since : Nat} (h : TaskInv since s s.task) {payload : Json}
    (hcalm : s.Undisturbed (.emit payload)) :
    TaskInv since (s.step codec (.emit payload)) s.task := by
  have htake : ∀ fence : Fence, fence.events ≤ s.emitted.length →
      (s.emitted ++ [payload]).take fence.events = s.emitted.take fence.events := by
    intro fence hle
    exact take_append_of_le_length hle
  have hfence : ∀ fence, s.OwnFence since fence →
      (s.step codec (.emit payload)).OwnFence since fence := by
    intro fence hown
    refine ⟨hown.since_le, ?_⟩
    change _ ≤ (s.emitted ++ [payload]).length
    rw [length_append]
    exact le_trans hown.events_le (Nat.le_add_right _ _)
  have hemitted : (s.step codec (.emit payload)).emitted = s.emitted ++ [payload] := rfl
  unfold Undisturbed at hcalm
  unfold TaskInv at h ⊢
  rw [hemitted]
  cases htask : s.task with
  | idle | started | failed => trivial
  | shell access shell fence =>
    rw [htask] at h hcalm
    dsimp only at h hcalm ⊢
    split
    · rename_i hfences
      rw [if_pos hfences] at h hcalm
      rw [hcalm]
      exact h
    rename_i hfences
    rw [if_neg hfences] at h hcalm
    obtain ⟨hown, hshell, hturn, hsame⟩ := h
    obtain ⟨hturn', hsame'⟩ := hcalm
    rw [htake fence hown.events_le]
    rw [hturn] at hturn' hsame'
    exact ⟨hfence fence hown, hshell, hturn',
      hsame'.history.trans hsame.history, hsame'.enrich.trans hsame.enrich⟩
  | turn access shell turn fence =>
    rw [htask] at h hcalm
    dsimp only at h hcalm ⊢
    obtain ⟨hown, hshell, hturn, hsame⟩ := h
    rw [htake fence hown.events_le]
    exact ⟨hfence fence hown, hshell, hturn,
      hcalm.history.trans hsame.history, hcalm.enrich.trans hsame.enrich⟩
  | history access shell turn history fence =>
    rw [htask] at h hcalm
    dsimp only at h hcalm ⊢
    obtain ⟨hown, hshell, hturn, hhistory, henrich⟩ := h
    rw [htake fence hown.events_le]
    exact ⟨hfence fence hown, hshell, hturn, hhistory, hcalm.trans henrich⟩
  | enriched access shell turn history fence =>
    rw [htask] at h
    dsimp only at h ⊢
    obtain ⟨hown, hparts⟩ := h
    rw [htake fence hown.events_le]
    exact ⟨hfence fence hown, hparts⟩
  | done answer =>
  rw [htask] at h
  obtain ⟨fence, hmem, hown, heq⟩ := h
  refine ⟨fence, hmem, hfence fence hown, ?_⟩
  rw [htake fence hown.events_le]
  exact heq

/-! ## Runs -/

lemma socket_cases {input : CompanionInput} (hfits : s.HeadFits codec input) :
    (s.step codec input).socket = s.socket ∨
      ∃ i, (s.step codec input).socket = s.socket.step codec i ∧ s.socket.HeadFits codec i := by
  have htask : OfTask input → (s.step codec input).socket = s.socket := by
    intro hinput
    obtain ⟨task, heq | heq⟩ := @step_ofTask codec p s input hinput
    · rw [heq]
    · rw [heq]
      rfl
  cases input with
  | socket input =>
    cases input with
    | journal op => exact .inl rfl
    | receive message => exact .inr ⟨.receive message, rfl, trivial⟩
    | signal sig => exact .inr ⟨.signal sig, rfl, trivial⟩
    | takeInterest => exact .inr ⟨.takeInterest, rfl, trivial⟩
    | deliver projected => exact .inr ⟨.deliver projected, rfl, trivial⟩
    | drop => exact .inr ⟨.drop, rfl, trivial⟩
  | ingest size payloads =>
    change (s.ingest codec size payloads).socket = _ ∨
      ∃ i, (s.ingest codec size payloads).socket = _ ∧ _
    unfold Companion.ingest
    dsimp only
    split
    · split
      · exact .inl rfl
      · exact .inl rfl
    · split
      · exact .inl rfl
      · exact .inr ⟨.journal (.append payloads limits), rfl, hfits⟩
  | control =>
    unfold HeadFits at hfits
    change (s.control codec).socket = _ ∨ ∃ i, (s.control codec).socket = _ ∧ _
    unfold Companion.control
    split
    · exact .inl rfl
    · rename_i op rest hqueue
      rw [hqueue] at hfits
      exact .inr ⟨.journal op, rfl, hfits⟩
    · exact .inl rfl
  | forward =>
    refine .inl ?_
    change s.forward.socket = s.socket
    unfold Companion.forward
    split <;> rfl
  | enqueue item =>
    refine .inl ?_
    change (s.enqueue item).socket = s.socket
    unfold Companion.enqueue
    split <;> rfl
  | emit payload | emitOther payload | fence => exact .inl rfl
  | _ => exact .inl (htask trivial)

/-- Steps that are not the task's keep the task, and all but an emission of the thread keep
the events emitted. -/
lemma extends_step {input : CompanionInput} (htask : ¬ OfTask input)
    (hemit : ∀ payload, input ≠ .emit payload) :
    Extends s (s.step codec input) ∧ (s.step codec input).task = s.task := by
  have hkeeps : ∀ s' : Companion p, s'.emitted = s.emitted → s'.resolved = s.resolved →
      s'.task = s.task → Extends s s' ∧ s'.task = s.task := by
    intro s' hemitted hres hsame
    refine ⟨⟨hemitted, ?_⟩, hsame⟩
    intro r hr
    rw [hres]
    exact hr
  cases input with
  | socket input => cases input <;> exact hkeeps _ rfl rfl rfl
  | emit payload => exact absurd rfl (hemit payload)
  | emitOther payload | fence => exact hkeeps _ rfl rfl rfl
  | enqueue item =>
    change Extends s (s.enqueue item) ∧ (s.enqueue item).task = s.task
    unfold Companion.enqueue
    split
    all_goals exact hkeeps _ rfl rfl rfl
  | forward =>
    change Extends s s.forward ∧ s.forward.task = s.task
    unfold Companion.forward
    split
    all_goals exact hkeeps _ rfl rfl rfl
  | ingest size payloads =>
    change Extends s (s.ingest codec size payloads) ∧ (s.ingest codec size payloads).task = s.task
    unfold Companion.ingest
    dsimp only
    split
    · split
      all_goals exact hkeeps _ rfl rfl rfl
    · split
      all_goals exact hkeeps _ rfl rfl rfl
  | control =>
    change Extends s (s.control codec) ∧ (s.control codec).task = s.task
    unfold Companion.control
    split
    · refine ⟨⟨rfl, ?_⟩, rfl⟩
      intro r hr
      exact mem_append_left _ hr
    all_goals exact hkeeps _ rfl rfl rfl
  | _ => exact absurd trivial htask

lemma ownFence_newFence {since : Nat} (hsince : since ≤ s.journal.store.head) (s' : Companion p)
    (hemitted : s'.emitted = s.emitted) : s'.OwnFence since s.newFence := by
  refine ⟨hsince, ?_⟩
  rw [hemitted]
  exact le_rfl

lemma take_newFence (s : Companion p) : s.emitted.take s.newFence.events = s.emitted :=
  take_length

namespace TaskInv

variable {since : Nat}

section

variable (h : TaskInv since s s.task)
include h

lemma readShell (hsince : since ≤ s.journal.store.head)
    (access : Access) : TaskInv since (s.readShell access) (s.readShell access).task := by
  unfold Companion.readShell
  split
  · unfold TaskInv
    dsimp only
    have hemitted : s.setFence.emitted = s.emitted := rfl
    rw [hemitted, take_newFence]
    split
    · rfl
    · exact ⟨ownFence_newFence hsince _ rfl, rfl, rfl, rfl, rfl⟩
  · exact h

lemma readTurn (hsince : since ≤ s.journal.store.head) :
    TaskInv since s.readTurn s.readTurn.task := by
  unfold Companion.readTurn
  split
  · rename_i access shell fence htask
    rw [htask] at h
    unfold TaskInv at h
    dsimp only at h ⊢
    split
    · rename_i hfences
      rw [if_pos hfences] at h
      split
      · trivial
      have hemitted : s.setFence.emitted = s.emitted := rfl
      unfold TaskInv
      dsimp only
      rw [hemitted, take_newFence]
      exact ⟨ownFence_newFence hsince _ rfl, h, rfl, rfl, rfl⟩
    rename_i hfences
    rw [if_neg hfences] at h
    obtain ⟨hown, hshell, hturn, hsame⟩ := h
    unfold TaskInv
    dsimp only
    rw [hturn]
    exact ⟨⟨hown.since_le, hown.events_le⟩, hshell, rfl, hsame⟩
  · exact h

lemma readHistory : TaskInv since s.readHistory s.readHistory.task := by
  unfold Companion.readHistory
  split
  · rename_i access shell turn fence htask
    rw [htask] at h
    obtain ⟨hown, hshell, hturn, hsame⟩ := h
    exact ⟨⟨hown.since_le, hown.events_le⟩, hshell, hturn, hsame.history, hsame.enrich⟩
  · exact h

lemma enrichTurn : TaskInv since s.enrichTurn s.enrichTurn.task := by
  unfold Companion.enrichTurn
  split
  · rename_i access shell turn history fence htask
    rw [htask] at h
    obtain ⟨hown, hshell, hturn, hhistory, henrich⟩ := h
    rw [hturn] at hhistory henrich
    refine ⟨⟨hown.since_le, hown.events_le⟩, hshell, hhistory, ?_⟩
    rw [hturn]
    exact henrich
  · exact h

lemma finish : TaskInv since s.finish s.finish.task := by
  unfold Companion.finish
  split
  · rename_i access shell turn history fence htask
    rw [htask] at h
    split
    · rw [htask]
      exact h
    rename_i cursor hlookup
    obtain ⟨hown, hshell, hhistory, hturn⟩ := h
    obtain ⟨before, after, heq, -⟩ := lookup_eq_some_iff.mp hlookup
    have hmem : (fence, cursor) ∈ s.resolved := by
      rw [heq]
      exact mem_append_right _ mem_cons_self
    refine ⟨fence, hmem, ⟨hown.since_le, hown.events_le⟩, ?_⟩
    dsimp only
    rw [hhistory, hturn, hshell]
    rfl
  · exact h

end

end TaskInv

/-- The companion since the socket followed the thread. -/
structure Covered (codec : Codec) (thread : String) (since : Nat) (s : Companion p) : Prop where
  pipeline : s.Pipeline codec
  follows : s.socket.Follows codec thread since
  since_le : since ≤ s.journal.log.length
  started : ∃ start, s.socket.trace.start = some start ∧ start ≤ since
  task : TaskInv since s s.task

/-- The journal keeps a cursor, no read of the sync is disturbed, and the thread stays followed. -/
def Calm (codec : Codec) (thread : String) (s : Companion p) (input : CompanionInput) : Prop :=
  s.HeadFits codec input ∧ s.Undisturbed input ∧
    thread ∈ (s.step codec input).socket.interest.threads

instance [DecidableEq p.Shell] [DecidableEq p.Turn] [DecidableEq p.History] (codec : Codec)
    (thread : String) (s : Companion p) (input : CompanionInput) :
    Decidable (s.Calm codec thread input) :=
  inferInstanceAs (Decidable (_ ∧ _ ∧ _))

lemma log_length_step {socket : Socket} (input : SocketInput) :
    socket.journal.log.length ≤ (socket.step codec input).journal.log.length := by
  by_cases hjnl : ∃ op, input = .journal op
  · obtain ⟨op, rfl⟩ := hjnl
    change _ ≤ (socket.journal.log ++ op.written codec socket.journal.store).length
    rw [length_append]
    omega
  · push Not at hjnl
    rw [Socket.journal_step hjnl]

namespace Covered

variable {thread : String} {since : Nat}

lemma begin (h : s.Pipeline codec) (hidle : s.task = .idle)
    (hstarted : s.socket.trace.start.isSome) (hmem : thread ∈ s.socket.interest.threads) :
    Covered codec thread s.journal.log.length s := by
  refine ⟨h, Socket.Follows.begin h.inv hmem, le_rfl, ?_, ?_⟩
  · obtain ⟨start, hstart⟩ := Option.isSome_iff_exists.mp hstarted
    refine ⟨start, hstart, ?_⟩
    rcases h.inv.phase.stream with hempty | ⟨start', position, hstr⟩
    · rw [hempty] at hstart
      exact absurd hstart (by simp [Trace.empty])
    · obtain rfl : start' = start := Option.some.inj (hstr.start_eq.symm.trans hstart)
      exact le_trans (Nat.le_add_right _ _) hstr.covered
  · rw [hidle]
    trivial

lemma taskInv_step (h : Covered codec thread since s) {input : CompanionInput}
    (hcalm : s.Undisturbed input) :
    TaskInv since (s.step codec input) (s.step codec input).task := by
  have hhead : since ≤ s.journal.store.head := by
    have heq : s.journal.store.head = s.journal.log.length := h.pipeline.inv.journal.head
    rw [heq]
    exact h.since_le
  -- Steps of others keep the task and what it rests on.
  have hother : ¬ OfTask input → (∀ payload, input ≠ .emit payload) →
      TaskInv since (s.step codec input) (s.step codec input).task := by
    intro htask hemit
    obtain ⟨hext, hsame⟩ := @extends_step codec p s input htask hemit
    rw [hsame]
    exact h.task.of_extends hext
  cases input with
  | emit payload => exact h.task.emit hcalm
  | startSync =>
    change TaskInv since s.startSync s.startSync.task
    unfold Companion.startSync
    split
    · trivial
    · trivial
    · trivial
    · trivial
    · exact h.task
  | readShell access => exact h.task.readShell hhead access
  | readTurn => exact h.task.readTurn hhead
  | readHistory => exact h.task.readHistory
  | enrichTurn => exact h.task.enrichTurn
  | finish => exact h.task.finish
  | fail =>
    change TaskInv since s.fail s.fail.task
    unfold Companion.fail
    split
    · exact h.task
    · exact h.task
    · trivial
  | _ => exact hother (by simp [OfTask]) (by simp)

lemma step (h : Covered codec thread since s) {input : CompanionInput}
    (hcalm : s.Calm codec thread input) : Covered codec thread since (s.step codec input) := by
  obtain ⟨hfits, hundisturbed, hmem⟩ := hcalm
  obtain ⟨start, hstart, hle⟩ := h.started
  refine ⟨h.pipeline.step hfits, ?_, ?_, ?_, h.taskInv_step hundisturbed⟩
  · rcases socket_cases hfits with heq | ⟨i, heq, hi⟩
    · rw [heq]
      exact h.follows
    · rw [heq] at hmem ⊢
      exact h.follows.step hi hmem
  · change since ≤ (s.step codec input).socket.journal.log.length
    rcases socket_cases hfits with heq | ⟨i, heq, -⟩
    · rw [heq]
      exact h.since_le
    · rw [heq]
      exact le_trans h.since_le (log_length_step i)
  refine ⟨start, ?_, hle⟩
  rcases socket_cases hfits with heq | ⟨i, heq, -⟩
  · rw [heq]
    exact hstart
  · rw [heq]
    exact Socket.start_step h.follows.inv hstart i

/-- The answer of a sync holds exactly the events up to its cursor. -/
lemma answer_eq (h : Covered codec thread since s) {answer : Answer p}
    (hdone : s.task = .done answer) :
    since ≤ answer.throughCursor ∧
      answer = p.answerAt answer.throughCursor answer.access (s.carried answer.throughCursor) := by
  have htask := h.task
  rw [hdone] at htask
  obtain ⟨fence, hmem, hown, heq⟩ := htask
  have hres := h.pipeline.resolved _ hmem
  refine ⟨le_trans hown.since_le hres.set_le, ?_⟩
  rw [hres.carried]
  exact heq

variable {bytes : Store.Payload}

lemma sent (h : Covered codec thread since s) {start k : Nat} {value : Json}
    (hstart : s.socket.trace.start = some start) (hk : since < k)
    (hhandled : k ≤ start + s.socket.trace.handled.length)
    (hget : s.socket.journal.log[k - 1]? = some bytes) (hparse : codec.parse bytes = some value)
    (hpatch : patchThread value = some thread) :
    (s.socket.trace.frames.filterMap StreamFrame.eventCursor).count k = 1 := by
  obtain ⟨start', hstart', hle⟩ := h.started
  obtain rfl : start' = start := Option.some.inj (hstart'.symm.trans hstart)
  exact h.follows.sent hstart hk (by omega) hhandled hget hparse hpatch

lemma sent_after_turn (h : Covered codec thread since s) {delivered k : Nat} {values : List Json}
    {value : Json} (hlive : s.socket.phase = .live delivered)
    (hbeh : delivered < s.socket.journal.store.head)
    (hfresh : (replayAfter s.socket.journal.store (some delivered)).snapshotRequired = false)
    (hdec : ∀ bytes ∈ s.socket.journal.log, (codec.parse bytes).isSome)
    (hvals : values.length = s.socket.journal.store.head - delivered + 1) (hk : since < k)
    (hhead : k ≤ s.socket.journal.store.head)
    (hget : s.socket.journal.log[k - 1]? = some bytes) (hparse : codec.parse bytes = some value)
    (hpatch : patchThread value = some thread) :
    ((exec (Socket.step codec) s.socket
      (Socket.liveTurn s.socket.journal.store.head values)).trace.frames.filterMap
        StreamFrame.eventCursor).count k = 1 := by
  obtain ⟨start, hstart, hle⟩ := h.started
  have hinputs := Socket.ofLiveTask_liveTurn s.socket.journal.store.head values
  have hphase := Socket.live_turn h.follows.inv hlive hbeh hfresh hdec hvals
  have hstart' := Socket.start_liveTask h.follows.inv hstart hinputs
  obtain ⟨hfol, hjnl⟩ := h.follows.liveTask hinputs
  -- The live task stands at the head, so everything up to it was handled.
  have hinv := hfol.inv.phase
  rw [hphase] at hinv
  obtain ⟨start', hstr, hat, -⟩ := hinv
  obtain rfl : start' = start := Option.some.inj (hstr.start_eq.symm.trans hstart')
  refine hfol.sent hstart' hk (by omega) ?_ ?_ hparse hpatch
  · rw [← hat]
    exact hhead
  · rw [hjnl]
    exact hget

end Covered

/-- A sync answers with exactly the events up to its cursor; the socket sends those behind it once.
-/
theorem sync_covers_thread (codec : Codec) (p : Provider) (thread : String)
    (before after : List CompanionInput)
    (hbefore : Always (Companion.step codec) (HeadFits codec) (initial p) before)
    (hidle : (exec (Companion.step codec) (initial p) before).task = .idle)
    (hstarted : (exec (Companion.step codec) (initial p) before).socket.trace.start.isSome)
    (hmem : thread ∈ (exec (Companion.step codec) (initial p) before).socket.interest.threads)
    (hafter : Always (Companion.step codec) (Calm codec thread)
      (exec (Companion.step codec) (initial p) before) after) :
    let s := exec (Companion.step codec) (exec (Companion.step codec) (initial p) before) after
    ∀ answer, s.task = .done answer →
      answer = p.answerAt answer.throughCursor answer.access (s.carried answer.throughCursor) ∧
      (∀ start k bytes value, s.socket.trace.start = some start → answer.throughCursor < k →
        k ≤ start + s.socket.trace.handled.length → s.journal.log[k - 1]? = some bytes →
        codec.parse bytes = some value → patchThread value = some thread →
        (s.socket.trace.frames.filterMap StreamFrame.eventCursor).count k = 1) ∧
      (∀ delivered values, s.socket.phase = .live delivered →
        delivered < s.journal.store.head →
        (replayAfter s.journal.store (some delivered)).snapshotRequired = false →
        (∀ bytes ∈ s.journal.log, (codec.parse bytes).isSome) →
        values.length = s.journal.store.head - delivered + 1 →
        ∀ k bytes value, answer.throughCursor < k → k ≤ s.journal.store.head →
          s.journal.log[k - 1]? = some bytes → codec.parse bytes = some value →
          patchThread value = some thread →
          ((exec (Socket.step codec) s.socket
            (Socket.liveTurn s.journal.store.head values)).trace.frames.filterMap
              StreamFrame.eventCursor).count k = 1) := by
  have hpipeline : (exec (Companion.step codec) (initial p) before).Pipeline codec :=
    exec_invariant_of_always (fun _ _ h hfits => h.step hfits) pipeline_initial hbefore
  have hcov := exec_invariant_of_always (P := Covered codec thread _)
    (fun _ _ h hcalm => h.step hcalm) (Covered.begin hpipeline hidle hstarted hmem) hafter
  intro s answer hdone
  obtain ⟨hsince, hans⟩ := hcov.answer_eq hdone
  refine ⟨hans, ?_, ?_⟩
  · intro start k bytes value hstart hk hhandled hget hparse hpatch
    exact hcov.sent hstart (lt_of_le_of_lt hsince hk) hhandled hget hparse hpatch
  intro delivered values hlive hbeh hfresh hdec hvals k bytes value hk hhead hget hparse
    hpatch
  exact hcov.sent_after_turn hlive hbeh hfresh hdec hvals
    (lt_of_le_of_lt hsince hk) hhead hget hparse hpatch

/-! ## A provider of turns -/

structure TurnTexts where
  finished : List String
  running : Option String

def TurnTexts.observe (t : TurnTexts) (event : Json) : TurnTexts :=
  let method := (event.get? "method").bind Json.asStr?
  if method = some "turn/started" then { t with running := some "" }
  else if method = some "item/agentMessage/delta" then
    let delta := ((event.getPath? ["params", "delta"]).bind Json.asStr?).getD ""
    { t with running := t.running.map (· ++ delta) }
  else if method = some "turn/completed" then
    ⟨t.finished ++ t.running.toList, none⟩
  else t

def TurnTexts.after (events : List Json) : TurnTexts := events.foldl TurnTexts.observe ⟨[], none⟩

def turnProvider : Provider where
  Shell := Bool
  Turn := String
  History := List String
  native := false
  shell events := (TurnTexts.after events).running.isSome
  active running := running
  turn events :=
    let texts := TurnTexts.after events
    texts.running.or texts.finished.getLast?
  storedTurn events := (TurnTexts.after events).running
  history events _ := (TurnTexts.after events).finished
  enrich _ turn := turn

instance : DecidableEq turnProvider.Shell := inferInstanceAs (DecidableEq Bool)

instance : DecidableEq turnProvider.Turn := inferInstanceAs (DecidableEq String)

instance : DecidableEq turnProvider.History := inferInstanceAs (DecidableEq (List String))

def turnEvent (method : String) : Json := .obj [("method", .str method)]

def deltaEvent (delta : String) : Json :=
  .obj [("method", .str "item/agentMessage/delta"), ("params", .obj [("delta", .str delta)])]

def patchCodec : Codec where
  parse _ := some (.obj [(threadPatchField, .obj [
    ("operation", .obj [("kind", .str "itemTextDelta")]), ("threadId", .str "t")])])
  write _ := []

def followedTurn : List CompanionInput :=
  [.socket (.receive (.obj [("cursor", .int 0), ("interest", .arr []),
      ("listStream", .obj [("visible", .bool true)]), ("protocolVersion", .int 1),
      ("type", .str "hello")])),
    .socket .takeInterest, .socket (.deliver none),
    .emit (turnEvent "turn/started"), .forward, .ingest 1 [[1]],
    .socket (.receive (.obj [("add", .arr [.str "t"]), ("type", .str "interest")]))]

def streamingSync : List CompanionInput :=
  [.startSync, .readShell .observed, .readTurn, .emit (deltaEvent "x"), .readHistory, .enrichTurn,
    .forward, .forward, .forward, .control, .control, .ingest 1 [[1]], .finish]

/-- A turn that streams during the sync disturbs no read. -/
theorem sync_covers_streaming_turn :
    ∃ answer, (exec (Companion.step patchCodec)
        (exec (Companion.step patchCodec) (initial turnProvider) followedTurn)
        streamingSync).task = .done answer ∧
      answer = turnProvider.answerAt answer.throughCursor answer.access
        ((exec (Companion.step patchCodec)
          (exec (Companion.step patchCodec) (initial turnProvider) followedTurn)
          streamingSync).carried answer.throughCursor) := by
  have hdone : (exec (Companion.step patchCodec)
      (exec (Companion.step patchCodec) (initial turnProvider) followedTurn)
      streamingSync).task.answer.isSome := by
    decide
  obtain ⟨answer, hans⟩ := Option.isSome_iff_exists.mp hdone
  have htask := SyncTask.answer_eq_some.mp hans
  have hidle : (exec (Companion.step patchCodec) (initial turnProvider) followedTurn).task =
      .idle := rfl
  exact ⟨answer, htask, (sync_covers_thread patchCodec turnProvider "t" followedTurn streamingSync
    (by decide) hidle (by decide) (by decide) (by decide)
    answer htask).1⟩

/-- A sync during which the turn completes after the shell was read, and another turn runs
after the newest turn was. -/
def changingSync : List CompanionInput :=
  [.startSync, .readShell .observed, .emit (turnEvent "turn/completed"), .readTurn,
    .emit (turnEvent "turn/started"), .emit (deltaEvent "x"), .emit (turnEvent "turn/completed"),
    .readHistory, .enrichTurn,
    .forward, .forward, .forward, .forward, .forward, .forward,
    .control, .ingest 1 [[1]], .control, .ingest 3 [[1], [1], [1]], .finish,
    .socket (.signal (.committed 5)), .socket .takeInterest,
    .socket (.deliver (some .null)), .socket (.deliver (some .null)),
    .socket (.deliver (some .null)), .socket (.deliver (some .null)),
    .socket (.deliver (some .null)), .socket (.deliver none)]

def answerParts (s : Companion turnProvider) : Option (Nat × Bool × List String) :=
  s.task.answer.map (fun answer => (answer.throughCursor, answer.thread, answer.history))

/-- The answer misses the completion at cursor 2 and holds the text at cursor 4. -/
theorem sync_mixes_states :
    let s := exec (Companion.step patchCodec)
      (exec (Companion.step patchCodec) (initial turnProvider) followedTurn) changingSync
    answerParts s = some (2, true, ["", "x"]) ∧
      s.journaled = [(1, turnEvent "turn/started"), (2, turnEvent "turn/completed"),
        (5, turnEvent "turn/started"), (5, deltaEvent "x"), (5, turnEvent "turn/completed")] ∧
      (TurnTexts.after (s.carried 2)).running = none ∧
      (TurnTexts.after (s.carried 2)).finished = [""] ∧
      4 ∈ s.socket.trace.frames.filterMap StreamFrame.eventCursor := by
  decide

end Companion

end CodeWide.Sync
