import CodeWide.Lib.Run
import Mathlib.Data.List.Nodup

/-!
# Turns left in progress

A turn writes its index entry before its first snapshot, and its outcome before the snapshot is
removed.
-/

namespace CodeWide.Claude

open Lib List

inductive ExecutionStatus where
  | inProgress
  | completed
  | failed
  | declined
deriving DecidableEq

inductive CallStatus where
  | inProgress
  | completed
  | failed
deriving DecidableEq

inductive SubagentStatus where
  | running
  | completed
  | failed
  | stopped
deriving DecidableEq

inductive AgentItem where
  | command (itemId : String) (status : ExecutionStatus)
  | fileChange (itemId : String) (status : ExecutionStatus)
  | mcpToolCall (itemId : String) (status : CallStatus)
  | toolCall (itemId : String) (status : CallStatus)
  | subagent (itemId : String) (status : SubagentStatus)
  | other (itemId : String)
deriving DecidableEq

def AgentItem.isOpen : AgentItem → Bool
  | .command _ status | .fileChange _ status => decide (status = .inProgress)
  | .mcpToolCall _ status | .toolCall _ status => decide (status = .inProgress)
  | _ => false

def failOpenItem : AgentItem → AgentItem
  | .subagent id _ => .subagent id .stopped
  | .command id .inProgress => .command id .failed
  | .fileChange id .inProgress => .fileChange id .failed
  | .toolCall id _ => .toolCall id .failed
  | .mcpToolCall id _ => .mcpToolCall id .failed
  | item => item

inductive TurnStatus where
  | inProgress
  | completed
  | interrupted
  | failed
deriving DecidableEq

inductive TurnOutcomeRecord where
  | failed (error : String)
  | completed
  | inProgress
  | interrupted
deriving DecidableEq

def TurnOutcomeRecord.status : TurnOutcomeRecord → TurnStatus
  | .failed _ => .failed
  | .completed => .completed
  | .inProgress => .inProgress
  | .interrupted => .interrupted

inductive TurnOutcome where
  | completed
  | interrupted
  | failed (error : String)
deriving DecidableEq

def outcomeRecord : TurnOutcome → TurnOutcomeRecord
  | .completed => .completed
  | .interrupted => .interrupted
  | .failed error => .failed error

structure TurnRecord where
  turnId : String
  completedAt : Option Int
  outcome : TurnOutcomeRecord
deriving DecidableEq

structure AgentTurn where
  turnId : String
  status : TurnStatus
  completedAt : Option Int
  items : List AgentItem
deriving DecidableEq

structure StoredThread where
  turns : List TurnRecord
  activeTurn : Option AgentTurn
deriving DecidableEq

def putTurnRecord (record : TurnRecord) : List TurnRecord → List TurnRecord
  | [] => [record]
  | turn :: rest =>
    if turn.turnId = record.turnId then record :: rest else turn :: putTurnRecord record rest

def seconds (ms : Int) : Int := ms / 1000

def interruptRecord (turnId : String) (completedAt : Int) : List TurnRecord → List TurnRecord
  | [] => []
  | turn :: rest =>
    if turn.turnId = turnId then
      { turn with completedAt := some completedAt, outcome := .interrupted } :: rest
    else turn :: interruptRecord turnId completedAt rest

def interruptedTurn (snapshot : AgentTurn) (nowMs : Int) : AgentTurn :=
  { snapshot with
    completedAt := some (seconds nowMs)
    items := snapshot.items.map (fun item => if item.isOpen then failOpenItem item else item)
    status := .interrupted }

/-- The first write of a startup: the index entry. -/
def StoredThread.recordInterrupted (stored : StoredThread) (nowMs : Int) : StoredThread :=
  match stored.activeTurn with
  | none => stored
  | some snapshot =>
    { stored with turns := interruptRecord snapshot.turnId (seconds nowMs) stored.turns }

def StoredThread.load (stored : StoredThread) (nowMs : Int) : StoredThread × Option AgentTurn :=
  ({ stored.recordInterrupted nowMs with activeTurn := none },
    stored.activeTurn.map (fun snapshot => interruptedTurn snapshot nowMs))

inductive Phase where
  | idle
  /-- The entry of the turn is written, its snapshot is not. -/
  | begun (turnId : String)
  | running (turnId : String)
  | ended (turnId : String)
deriving DecidableEq

structure Restart where
  crashes : List StoredThread
  after : StoredThread
  completion : Option AgentTurn
  /-- The turns that earlier startups completed. -/
  earlier : List String

structure Durable where
  stored : StoredThread
  phase : Phase
  returned : List String
  last : Option Restart

inductive Write where
  | begin (turnId : String)
  | snapshot (items : List AgentItem)
  | record
  | finish (outcome : TurnOutcome) (nowMs : Int)
  | clear
  /-- A crash, startups that crash between their two writes, and one that completes. -/
  | restart (attempts : List Int) (nowMs : Int)

def crashes (stored : StoredThread) : List Int → List StoredThread
  | [] => [stored]
  | nowMs :: rest => stored :: crashes (stored.recordInterrupted nowMs) rest

def found (stored : StoredThread) (attempts : List Int) : StoredThread :=
  attempts.foldl StoredThread.recordInterrupted stored

namespace Durable

def step (s : Durable) : Write → Durable
  | .begin turnId =>
    if s.phase = .idle ∧ turnId ∉ s.stored.turns.map TurnRecord.turnId then
      { s with
        stored := { s.stored with turns := putTurnRecord ⟨turnId, none, .inProgress⟩ s.stored.turns }
        phase := .begun turnId }
    else s
  | .snapshot items =>
    match s.phase with
    | .begun turnId | .running turnId =>
      { s with
        stored := { s.stored with activeTurn := some ⟨turnId, .inProgress, none, items⟩ }
        phase := .running turnId }
    | _ => s
  | .record =>
    match s.phase with
    | .running turnId =>
      { s with
        stored :=
          { s.stored with turns := putTurnRecord ⟨turnId, none, .inProgress⟩ s.stored.turns } }
    | _ => s
  | .finish outcome nowMs =>
    match s.phase with
    | .running turnId =>
      { s with
        stored :=
          { s.stored with
            turns := putTurnRecord ⟨turnId, some (seconds nowMs), outcomeRecord outcome⟩
              s.stored.turns }
        phase := .ended turnId }
    | _ => s
  | .clear =>
    match s.phase with
    | .ended _ => { s with stored := { s.stored with activeTurn := none }, phase := .idle }
    | _ => s
  | .restart attempts nowMs =>
    let (after, completion) := (found s.stored attempts).load nowMs
    { stored := after, phase := .idle
      returned := s.returned ++ (completion.map AgentTurn.turnId).toList
      last := some ⟨crashes s.stored attempts, after, completion, s.returned⟩ }

end Durable

section Index

variable {turns : List TurnRecord} {record r : TurnRecord} {turnId : String} {time : Int}

lemma map_turnId_putTurnRecord_of_mem (h : record.turnId ∈ turns.map TurnRecord.turnId) :
    (putTurnRecord record turns).map TurnRecord.turnId = turns.map TurnRecord.turnId := by
  induction turns with
  | nil => cases h
  | cons turn rest ih =>
  rw [putTurnRecord]
  split
  · next heq => rw [map_cons, map_cons, heq]
  · next hne =>
    rw [map_cons, mem_cons] at h
    rw [map_cons, map_cons, ih (h.resolve_left (fun heq => hne heq.symm))]

lemma putTurnRecord_of_not_mem (h : record.turnId ∉ turns.map TurnRecord.turnId) :
    putTurnRecord record turns = turns ++ [record] := by
  induction turns with
  | nil => rfl
  | cons turn rest ih =>
    rw [map_cons, mem_cons, not_or] at h
    rw [putTurnRecord, if_neg (fun heq => h.1 heq.symm), ih h.2, cons_append]

lemma mem_putTurnRecord (h : r ∈ putTurnRecord record turns) : r = record ∨ r ∈ turns := by
  induction turns with
  | nil => exact .inl (mem_singleton.mp h)
  | cons turn rest ih =>
  rw [putTurnRecord] at h
  split at h
  · rcases mem_cons.mp h with heq | hmem
    · exact .inl heq
    · exact .inr (mem_cons_of_mem _ hmem)
  · rcases mem_cons.mp h with heq | hmem
    · exact .inr (heq ▸ mem_cons_self)
    · exact (ih hmem).imp_right (mem_cons_of_mem _)

lemma putTurnRecord_self : record ∈ putTurnRecord record turns := by
  induction turns with
  | nil => exact mem_singleton.mpr rfl
  | cons turn rest ih =>
  rw [putTurnRecord]
  split
  · exact mem_cons_self
  · exact mem_cons_of_mem _ ih

lemma eq_of_mem_putTurnRecord (hdist : (turns.map TurnRecord.turnId).Nodup)
    (h : r ∈ putTurnRecord record turns) (hid : r.turnId = record.turnId) : r = record := by
  induction turns with
  | nil => exact mem_singleton.mp h
  | cons turn rest ih =>
  rw [map_cons, nodup_cons] at hdist
  rw [putTurnRecord] at h
  split at h
  · next heq =>
    rcases mem_cons.mp h with hr | hmem
    · exact hr
    · have hmap : r.turnId ∈ rest.map TurnRecord.turnId := mem_map_of_mem hmem
      rw [hid, ← heq] at hmap
      exact absurd hmap hdist.1
  next hne =>
  rcases mem_cons.mp h with hr | hmem
  · exact absurd (hr ▸ hid) hne
  · exact ih hdist.2 hmem

lemma map_turnId_interruptRecord (turnId : String) (time : Int) (turns : List TurnRecord) :
    (interruptRecord turnId time turns).map TurnRecord.turnId = turns.map TurnRecord.turnId := by
  induction turns with
  | nil => rfl
  | cons turn rest ih =>
  rw [interruptRecord]
  split
  · rfl
  · rw [map_cons, map_cons, ih]

lemma interruptRecord_interruptRecord (turnId : String) (time later : Int)
    (turns : List TurnRecord) :
    interruptRecord turnId later (interruptRecord turnId time turns) =
      interruptRecord turnId later turns := by
  induction turns with
  | nil => rfl
  | cons turn rest ih =>
  rw [interruptRecord]
  split
  · next heq => rw [interruptRecord, if_pos heq, interruptRecord, if_pos heq]
  · next hne => rw [interruptRecord, if_neg hne, ih, interruptRecord, if_neg hne]

lemma mem_interruptRecord_iff (hdist : (turns.map TurnRecord.turnId).Nodup) :
    r ∈ interruptRecord turnId time turns ↔ r ∈ turns ∧ r.turnId ≠ turnId ∨
        r = ⟨turnId, some time, .interrupted⟩ ∧ turnId ∈ turns.map TurnRecord.turnId := by
  induction turns with
  | nil => simp [interruptRecord]
  | cons turn rest ih =>
  rw [map_cons, nodup_cons] at hdist
  rw [interruptRecord]
  split
  · next heq =>
    have hrest : ∀ x ∈ rest, x.turnId ≠ turnId := by
      intro x hx hid
      exact hdist.1 (by rw [heq, ← hid]; exact mem_map_of_mem hx)
    have hnew : ({ turn with completedAt := some time, outcome := .interrupted } : TurnRecord) =
        ⟨turnId, some time, .interrupted⟩ := by
      rw [← heq]
    rw [mem_cons, hnew, mem_cons, map_cons, mem_cons]
    constructor
    · rintro (hr | hr)
      · exact .inr ⟨hr, .inl heq.symm⟩
      · exact .inl ⟨.inr hr, hrest r hr⟩
    rintro (⟨hr | hr, hne⟩ | ⟨hr, -⟩)
    · exact absurd (hr ▸ heq) hne
    · exact .inr hr
    · exact .inl hr
  next hne =>
  rw [mem_cons, ih hdist.2, mem_cons, map_cons, mem_cons]
  constructor
  · rintro (hr | ⟨hr, hid⟩ | ⟨hr, hid⟩)
    · exact .inl ⟨.inl hr, by rw [hr]; exact hne⟩
    · exact .inl ⟨.inr hr, hid⟩
    · exact .inr ⟨hr, .inr hid⟩
  rintro (⟨hr | hr, hid⟩ | ⟨hr, hid | hid⟩)
  · exact .inl hr
  · exact .inr (.inl ⟨hr, hid⟩)
  · exact absurd hid.symm hne
  · exact .inr (.inr ⟨hr, hid⟩)

end Index

lemma isOpen_failOpenItem (item : AgentItem) : (failOpenItem item).isOpen = false := by
  cases item with
  | command id status | fileChange id status => cases status <;> rfl
  | _ => rfl

lemma isOpen_of_mem_interruptedTurn {snapshot : AgentTurn} {nowMs : Int} {item : AgentItem}
    (h : item ∈ (interruptedTurn snapshot nowMs).items) : item.isOpen = false := by
  obtain ⟨old, -, rfl⟩ := mem_map.mp h
  cases hopen : old.isOpen with
  | true =>
    rw [if_pos rfl]
    exact isOpen_failOpenItem old
  | false =>
    rw [if_neg Bool.false_ne_true]
    exact hopen

namespace StoredThread

variable {stored : StoredThread} {snapshot : AgentTurn}

lemma recordInterrupted_of_none (h : stored.activeTurn = none) (nowMs : Int) :
    stored.recordInterrupted nowMs = stored := by
  unfold recordInterrupted
  rw [h]

lemma recordInterrupted_of_some (h : stored.activeTurn = some snapshot) (nowMs : Int) :
    stored.recordInterrupted nowMs =
      ⟨interruptRecord snapshot.turnId (seconds nowMs) stored.turns, some snapshot⟩ := by
  unfold recordInterrupted
  rw [h]

lemma recordInterrupted_recordInterrupted (stored : StoredThread) (nowMs later : Int) :
    (stored.recordInterrupted nowMs).recordInterrupted later = stored.recordInterrupted later := by
  cases h : stored.activeTurn with
  | none => rw [recordInterrupted_of_none h]
  | some snapshot =>
    rw [recordInterrupted_of_some h, recordInterrupted_of_some h,
      recordInterrupted_of_some rfl, interruptRecord_interruptRecord]

lemma activeTurn_recordInterrupted (stored : StoredThread) (nowMs : Int) :
    (stored.recordInterrupted nowMs).activeTurn = stored.activeTurn := by
  unfold recordInterrupted
  split <;> rfl

lemma load_recordInterrupted (stored : StoredThread) (nowMs later : Int) :
    (stored.recordInterrupted nowMs).load later = stored.load later := by
  unfold load
  rw [recordInterrupted_recordInterrupted, activeTurn_recordInterrupted]

end StoredThread

open StoredThread

lemma load_found (stored : StoredThread) (attempts : List Int) (nowMs : Int) :
    (found stored attempts).load nowMs = stored.load nowMs := by
  unfold found
  induction attempts generalizing stored with
  | nil => rfl
  | cons first rest ih => rw [foldl_cons, ih, load_recordInterrupted]

lemma mem_crashes {stored crash : StoredThread} {attempts : List Int} :
    crash ∈ crashes stored attempts ↔
      crash = stored ∨ ∃ nowMs ∈ attempts, crash = stored.recordInterrupted nowMs := by
  induction attempts generalizing stored with
  | nil => simp [crashes]
  | cons first rest ih =>
    rw [crashes, mem_cons, ih]
    simp only [recordInterrupted_recordInterrupted, mem_cons, exists_eq_or_imp]

structure Restart.Finalized (r : Restart) : Prop where
  settled : ∀ record ∈ r.after.turns, record.outcome ≠ .inProgress
  kept : ∀ crash ∈ r.crashes, ∀ record ∈ crash.turns, record.outcome ≠ .inProgress →
    record ∈ r.after.turns
  cleared : r.after.activeTurn = none
  status : ∀ turn ∈ r.completion, ∃ record ∈ r.after.turns,
    record.turnId = turn.turnId ∧ turn.status = record.outcome.status
  closed : ∀ turn ∈ r.completion, ∀ item ∈ turn.items, item.isOpen = false
  once : ∀ turn ∈ r.completion, turn.turnId ∉ r.earlier
  again : ∀ later, r.after.load later = (r.after, none)

lemma load_of_none {stored : StoredThread} (h : stored.activeTurn = none) (nowMs : Int) :
    stored.load nowMs = (stored, none) := by
  unfold load
  rw [recordInterrupted_of_none h, h]
  cases stored
  cases h
  rfl

namespace Durable

/-- What holds of the files between two writes. -/
structure Inv (s : Durable) : Prop where
  distinct : (s.stored.turns.map TurnRecord.turnId).Nodup
  known : ∀ id ∈ s.returned, id ∈ s.stored.turns.map TurnRecord.turnId
  idle : s.phase = .idle →
    s.stored.activeTurn = none ∧ ∀ record ∈ s.stored.turns, record.outcome ≠ .inProgress
  begun : ∀ turnId, s.phase = .begun turnId → s.stored.activeTurn = none ∧
    turnId ∉ s.returned ∧ (∃ record ∈ s.stored.turns, record.turnId = turnId ∧
      record.outcome = .inProgress) ∧
    ∀ record ∈ s.stored.turns, record.outcome = .inProgress → record.turnId = turnId
  running : ∀ turnId, s.phase = .running turnId → turnId ∉ s.returned ∧
    (∃ snapshot, s.stored.activeTurn = some snapshot ∧ snapshot.turnId = turnId) ∧
    (∃ record ∈ s.stored.turns, record.turnId = turnId ∧ record.outcome = .inProgress) ∧
    ∀ record ∈ s.stored.turns, record.outcome = .inProgress → record.turnId = turnId
  ended : ∀ turnId, s.phase = .ended turnId → turnId ∉ s.returned ∧
    (∃ snapshot, s.stored.activeTurn = some snapshot ∧ snapshot.turnId = turnId) ∧
    turnId ∈ s.stored.turns.map TurnRecord.turnId ∧
    ∀ record ∈ s.stored.turns, record.outcome ≠ .inProgress
  last : ∀ r ∈ s.last, r.Finalized

/-- The restart is not between two writes, unless the turn was interrupted in its second. -/
def Meets (s : Durable) : Write → Prop
  | .restart attempts nowMs =>
    match s.phase with
    | .idle => True
    | .begun _ => False
    | .running _ => ∀ attempt ∈ attempts, seconds attempt = seconds nowMs
    | .ended turnId =>
      (∀ record ∈ s.stored.turns, record.turnId = turnId →
        record = ⟨turnId, some (seconds nowMs), .interrupted⟩) ∧
      ∀ attempt ∈ attempts, seconds attempt = seconds nowMs
  | _ => True

def Safe (s : Durable) : Prop := ∀ r ∈ s.last, r.Finalized

variable {s : Durable}

lemma inv_start : Inv ⟨⟨[], none⟩, .idle, [], none⟩ where
  distinct := nodup_nil
  known id h := by cases h
  idle _ := ⟨rfl, fun record h => by cases h⟩
  begun turnId h := by cases h
  running turnId h := by cases h
  ended turnId h := by cases h
  last r h := by cases h

lemma inv_begin (h : s.Inv) (turnId : String) : (s.step (.begin turnId)).Inv := by
  unfold step
  simp only
  split
  · next hnew =>
    obtain ⟨hidle, hfresh⟩ := hnew
    have hturns : putTurnRecord ⟨turnId, none, .inProgress⟩ s.stored.turns =
        s.stored.turns ++ [⟨turnId, none, .inProgress⟩] :=
      putTurnRecord_of_not_mem hfresh
    obtain ⟨hact, hterm⟩ := h.idle hidle
    refine ⟨?_, fun id hid => ?_, fun hother => (by cases hother), fun id hother => ?_,
      fun id hother => (by cases hother), fun id hother => (by cases hother), h.last⟩
    · rw [hturns, map_append]
      refine nodup_append'.mpr ⟨h.distinct, nodup_singleton _, fun x hx hx' => ?_⟩
      rw [mem_singleton.mp hx'] at hx
      exact hfresh hx
    · rw [hturns, map_append]
      exact mem_append_left _ (h.known id hid)
    cases hother
    refine ⟨hact, fun hret => hfresh (h.known turnId hret),
      ⟨_, putTurnRecord_self, rfl, rfl⟩, fun record hrec hopen => ?_⟩
    rcases mem_putTurnRecord hrec with rfl | hold
    · rfl
    · exact absurd hopen (hterm record hold)
  · exact h

lemma inv_snapshot (h : s.Inv) (items : List AgentItem) : (s.step (.snapshot items)).Inv := by
  unfold step
  simp only
  split
  · next turnId hphase =>
    obtain ⟨-, hret, hopen, honly⟩ := h.begun turnId hphase
    exact ⟨h.distinct, h.known, fun hphase => (by cases hphase), fun id hphase => (by cases hphase),
      fun id hphase => (by cases hphase; exact ⟨hret, ⟨_, rfl, rfl⟩, hopen, honly⟩),
      fun id hphase => (by cases hphase), h.last⟩
  · next turnId hphase =>
    obtain ⟨hret, -, hopen, honly⟩ := h.running turnId hphase
    exact ⟨h.distinct, h.known, fun hphase => (by cases hphase), fun id hphase => (by cases hphase),
      fun id hphase => (by cases hphase; exact ⟨hret, ⟨_, rfl, rfl⟩, hopen, honly⟩),
      fun id hphase => (by cases hphase), h.last⟩
  · exact h

lemma Inv.put (h : s.Inv) {turnId : String} (hphase : s.phase = .running turnId) {r : TurnRecord}
    (hr : r.turnId = turnId) :
    let ids := (putTurnRecord r s.stored.turns).map TurnRecord.turnId
    turnId ∈ ids ∧ ids.Nodup ∧ ∀ id ∈ s.returned, id ∈ ids := by
  obtain ⟨-, -, ⟨old, hold, hid, -⟩, -⟩ := h.running turnId hphase
  have hmem : r.turnId ∈ s.stored.turns.map TurnRecord.turnId := hr ▸ hid ▸ mem_map_of_mem hold
  intro ids
  have hids : ids = s.stored.turns.map TurnRecord.turnId := map_turnId_putTurnRecord_of_mem hmem
  rw [hids]
  exact ⟨hr ▸ hmem, h.distinct, h.known⟩

lemma inv_record (h : s.Inv) : (s.step .record).Inv := by
  unfold step
  simp only
  split
  · next turnId hphase =>
    obtain ⟨hret, hsnap, -, honly⟩ := h.running turnId hphase
    obtain ⟨-, hdist, hknown⟩ := h.put hphase (r := ⟨turnId, none, .inProgress⟩) rfl
    refine ⟨hdist, hknown,
      fun hother => ?_, fun id hother => ?_, fun id hother => ?_, fun id hother => ?_, h.last⟩
    · rw [hphase] at hother
      cases hother
    · rw [hphase] at hother
      cases hother
    · rw [hphase] at hother
      cases hother
      refine ⟨hret, hsnap, ⟨_, putTurnRecord_self, rfl, rfl⟩, fun record hrec hopen => ?_⟩
      rcases mem_putTurnRecord hrec with rfl | hmem
      · rfl
      · exact honly record hmem hopen
    · rw [hphase] at hother
      cases hother
  · exact h

lemma outcomeRecord_ne (outcome : TurnOutcome) : outcomeRecord outcome ≠ .inProgress := by
  cases outcome <;> exact fun h => by cases h

lemma inv_finish (h : s.Inv) (outcome : TurnOutcome) (nowMs : Int) :
    (s.step (.finish outcome nowMs)).Inv := by
  unfold step
  simp only
  split
  · next turnId hphase =>
    obtain ⟨hret, hsnap, -, honly⟩ := h.running turnId hphase
    obtain ⟨hmem, hdist, hknown⟩ :=
      h.put hphase (r := ⟨turnId, some (seconds nowMs), outcomeRecord outcome⟩) rfl
    refine ⟨hdist, hknown, fun hother => (by cases hother), fun id hother => (by cases hother),
      fun id hother => (by cases hother), fun id hother => ?_, h.last⟩
    cases hother
    refine ⟨hret, hsnap, hmem, fun record hrec hopen => ?_⟩
    have hrecordId : record.turnId = turnId := by
      rcases mem_putTurnRecord hrec with rfl | hmem
      · rfl
      · exact honly record hmem hopen
    rw [eq_of_mem_putTurnRecord h.distinct hrec hrecordId] at hopen
    exact outcomeRecord_ne outcome hopen
  · exact h

lemma inv_clear (h : s.Inv) : (s.step .clear).Inv := by
  unfold step
  simp only
  split
  · next turnId hphase =>
    obtain ⟨-, -, -, hterm⟩ := h.ended turnId hphase
    exact ⟨h.distinct, h.known, fun _ => ⟨rfl, hterm⟩, fun id hother => (by cases hother),
      fun id hother => (by cases hother), fun id hother => (by cases hother), h.last⟩
  · exact h

lemma step_restart_last (s : Durable) (attempts : List Int) (nowMs : Int) :
    (s.step (.restart attempts nowMs)).last =
      some ⟨crashes s.stored attempts, (s.stored.load nowMs).1, (s.stored.load nowMs).2,
        s.returned⟩ := by
  simp only [step, load_found]

lemma finalized_of_idle (h : s.Inv) (hphase : s.phase = .idle) (attempts : List Int) (nowMs : Int) :
    (Restart.mk (crashes s.stored attempts) (s.stored.load nowMs).1 (s.stored.load nowMs).2
      s.returned).Finalized := by
  obtain ⟨hact, hterm⟩ := h.idle hphase
  rw [load_of_none hact]
  refine ⟨hterm, fun crash hcrash record hrec _ => ?_, hact,
    fun turn hturn => (by cases hturn), fun turn hturn => (by cases hturn),
    fun turn hturn => (by cases hturn), load_of_none hact⟩
  rcases mem_crashes.mp hcrash with rfl | ⟨time, -, rfl⟩
  · exact hrec
  · rwa [recordInterrupted_of_none hact] at hrec

lemma load_of_some {stored : StoredThread} {snapshot : AgentTurn}
    (h : stored.activeTurn = some snapshot) (nowMs : Int) :
    stored.load nowMs = (⟨interruptRecord snapshot.turnId (seconds nowMs) stored.turns, none⟩,
        some (interruptedTurn snapshot nowMs)) := by
  unfold load
  rw [recordInterrupted_of_some h, h]
  rfl

/-- What was stored of the turn at a crash stays exactly when the startup records it. -/
lemma finalized_iff_of_snapshot (h : s.Inv) {snapshot : AgentTurn}
    (hact : s.stored.activeTurn = some snapshot)
    (hmem : snapshot.turnId ∈ s.stored.turns.map TurnRecord.turnId)
    (hret : snapshot.turnId ∉ s.returned)
    (honly : ∀ record ∈ s.stored.turns, record.outcome = .inProgress →
      record.turnId = snapshot.turnId) (attempts : List Int) (nowMs : Int) :
    (Restart.mk (crashes s.stored attempts) (s.stored.load nowMs).1 (s.stored.load nowMs).2
      s.returned).Finalized ↔
      (∀ record ∈ s.stored.turns, record.turnId = snapshot.turnId → record.outcome ≠ .inProgress →
          record = ⟨snapshot.turnId, some (seconds nowMs), .interrupted⟩) ∧
      ∀ attempt ∈ attempts, seconds attempt = seconds nowMs := by
  rw [load_of_some hact]
  constructor
  · intro hfinal
    refine ⟨fun record hrec hid hterm => ?_, fun attempt hattempt => ?_⟩
    · have hkept := hfinal.kept s.stored (mem_crashes.mpr (.inl rfl)) record hrec hterm
      rcases (mem_interruptRecord_iff h.distinct).mp hkept with ⟨-, hne⟩ | ⟨heq, -⟩
      · exact absurd hid hne
      · exact heq
    have hcrash := mem_crashes.mpr
      (.inr ⟨attempt, hattempt, (recordInterrupted_of_some hact attempt).symm⟩)
    have hkept := hfinal.kept _ hcrash ⟨snapshot.turnId, some (seconds attempt), .interrupted⟩
      ((mem_interruptRecord_iff h.distinct).mpr (.inr ⟨rfl, hmem⟩)) (fun heq => by cases heq)
    rcases (mem_interruptRecord_iff h.distinct).mp hkept with ⟨-, hne⟩ | ⟨heq, -⟩
    · exact absurd rfl hne
    · exact Option.some.inj (congrArg TurnRecord.completedAt heq)
  rintro ⟨hreco, hseconds⟩
  have hnew : (⟨snapshot.turnId, some (seconds nowMs), .interrupted⟩ : TurnRecord) ∈
      interruptRecord snapshot.turnId (seconds nowMs) s.stored.turns :=
    (mem_interruptRecord_iff h.distinct).mpr (.inr ⟨rfl, hmem⟩)
  refine ⟨fun record hrec hopen => ?_, fun crash hcrash record hrec hterm => ?_, rfl,
    fun turn hturn => ?_, fun turn hturn item hitem => ?_, fun turn hturn => ?_,
    load_of_none rfl⟩
  · rcases (mem_interruptRecord_iff h.distinct).mp hrec with ⟨hold, hne⟩ | ⟨heq, -⟩
    · exact hne (honly record hold hopen)
    · rw [heq] at hopen
      cases hopen
  · rcases mem_crashes.mp hcrash with rfl | ⟨attempt, hattempt, rfl⟩
    · by_cases hid : record.turnId = snapshot.turnId
      · rw [hreco record hrec hid hterm]
        exact hnew
      · exact (mem_interruptRecord_iff h.distinct).mpr (.inl ⟨hrec, hid⟩)
    · rw [recordInterrupted_of_some hact, hseconds attempt hattempt] at hrec
      exact hrec
  · cases hturn
    exact ⟨_, hnew, rfl, rfl⟩
  · cases hturn
    exact isOpen_of_mem_interruptedTurn hitem
  · cases hturn
    exact hret

lemma finalized_iff_meets (h : s.Inv) (attempts : List Int) (nowMs : Int) :
    (Restart.mk (crashes s.stored attempts) (s.stored.load nowMs).1 (s.stored.load nowMs).2
      s.returned).Finalized ↔ s.Meets (.restart attempts nowMs) := by
  unfold Meets
  simp only
  cases hphase : s.phase with
  | idle => exact iff_of_true (finalized_of_idle h hphase attempts nowMs) trivial
  | begun turnId =>
    obtain ⟨hact, -, ⟨record, hrec, -, hopen⟩, -⟩ := h.begun turnId hphase
    refine iff_of_false (fun hfinal => ?_) id
    rw [load_of_none hact] at hfinal
    exact hfinal.settled record hrec hopen
  | running turnId =>
    obtain ⟨hret, ⟨snapshot, hact, rfl⟩, ⟨old, hold, hid, hopen⟩, honly⟩ :=
      h.running turnId hphase
    rw [finalized_iff_of_snapshot h hact (hid ▸ mem_map_of_mem hold) hret honly]
    refine and_iff_right (fun record hrec hsame hterm => ?_)
    have hrecordOld : record = old :=
      inj_on_of_nodup_map h.distinct hrec hold (hsame.trans hid.symm)
    exact absurd (hrecordOld ▸ hopen) hterm
  | ended turnId =>
  obtain ⟨hret, ⟨snapshot, hact, rfl⟩, hmem, hterm⟩ := h.ended turnId hphase
  rw [finalized_iff_of_snapshot h hact hmem hret
    (fun record hrec hopen => absurd hopen (hterm record hrec))]
  refine and_congr_left (fun _ => ?_)
  exact ⟨fun hall record hrec hid => hall record hrec hid (hterm record hrec),
    fun hall record hrec hid _ => hall record hrec hid⟩

lemma inv_restart (h : s.Inv) {attempts : List Int} {nowMs : Int}
    (hmeets : s.Meets (.restart attempts nowMs)) : (s.step (.restart attempts nowMs)).Inv := by
  have hfinal := (finalized_iff_meets h attempts nowMs).mpr hmeets
  have hlast := step_restart_last s attempts nowMs
  have hsto : (s.step (.restart attempts nowMs)).stored = (s.stored.load nowMs).1 := by
    simp only [step, load_found]
  have hret : (s.step (.restart attempts nowMs)).returned =
      s.returned ++ ((s.stored.load nowMs).2.map AgentTurn.turnId).toList := by
    simp only [step, load_found]
  have hids : ((s.stored.load nowMs).1.turns).map TurnRecord.turnId =
      s.stored.turns.map TurnRecord.turnId := by
    cases hact : s.stored.activeTurn with
    | none => rw [load_of_none hact]
    | some snapshot =>
      rw [load_of_some hact]
      exact map_turnId_interruptRecord _ _ _
  refine ⟨?_, fun id hid => ?_, fun _ => ?_, fun id hphase => (by cases hphase),
    fun id hphase => (by cases hphase), fun id hphase => (by cases hphase), fun r hr => ?_⟩
  · rw [hsto, hids]
    exact h.distinct
  · rw [hsto, hids]
    rw [hret, mem_append] at hid
    rcases hid with hold | hnew
    · exact h.known id hold
    obtain ⟨turn, hturn, rfl⟩ := Option.map_eq_some_iff.mp (Option.mem_toList.mp hnew)
    obtain ⟨record, hrec, hsame, -⟩ := hfinal.status turn hturn
    rw [← hids, ← hsame]
    exact mem_map_of_mem hrec
  · rw [hsto]
    exact ⟨hfinal.cleared, hfinal.settled⟩
  · rw [hlast] at hr
    cases hr
    exact hfinal

lemma inv_step (h : s.Inv) {w : Write} (hmeets : s.Meets w) : (s.step w).Inv := by
  cases w with
  | begin turnId => exact inv_begin h turnId
  | snapshot items => exact inv_snapshot h items
  | record => exact inv_record h
  | finish outcome nowMs => exact inv_finish h outcome nowMs
  | clear => exact inv_clear h
  | restart attempts nowMs => exact inv_restart h hmeets

lemma meets_of_safe_step (h : s.Inv) {w : Write} (hsafe : (s.step w).Safe) : s.Meets w := by
  cases w with
  | restart attempts nowMs =>
    exact (finalized_iff_meets h attempts nowMs).mp (hsafe _ (step_restart_last s attempts nowMs))
  | _ => trivial

/-- Every restart finalizes the turns exactly when none comes between two writes. -/
theorem restarts_finalize_iff (writes : List Write) :
    (∀ done rest, writes = done ++ rest → (exec step ⟨⟨[], none⟩, .idle, [], none⟩ done).Safe) ↔
      Always step Meets ⟨⟨[], none⟩, .idle, [], none⟩ writes :=
  always_iff_of_guarded (T := Inv) (P := Safe) (Q := Meets) (fun _ h => h.last)
    (fun _ _ h hmeets => inv_step h hmeets) (fun _ _ h hsafe => meets_of_safe_step h hsafe)
    inv_start writes

def lostAtTheEnd : List Write :=
  [.begin "u", .snapshot [], .finish .completed 5000, .restart [] 9000]

/-- The outcome of the turn is written over. -/
theorem completed_turn_rewritten :
    (exec step ⟨⟨[], none⟩, .idle, [], none⟩ lostAtTheEnd).stored.turns =
      [⟨"u", some 9, .interrupted⟩] ∧
    ¬ (exec step ⟨⟨[], none⟩, .idle, [], none⟩ lostAtTheEnd).Safe := by
  refine ⟨by decide, fun hsafe => ?_⟩
  have hkept := (hsafe _ rfl).kept ⟨[⟨"u", some 5, .completed⟩], some ⟨"u", .inProgress, none, []⟩⟩
    (by decide) ⟨"u", some 5, .completed⟩ (by decide) (by decide)
  exact absurd hkept (by decide)

end Durable

end CodeWide.Claude
