import Mathlib
import CodeWide.Transcript.Builder

/-!
# The life of items

The board of a turn, and the moves a builder may make on it (`ItemBoard.Move`).
-/

namespace CodeWide.Transcript

open Lib List

variable {Call : Type}

def startedIds (log : List (AgentEvent Call)) : List String :=
  log.filterMap (fun event => match event with
    | .itemStarted item => some item.itemId
    | _ => none)

def completedIds (log : List (AgentEvent Call)) : List String :=
  log.filterMap (fun event => match event with
    | .itemCompleted item => some item.itemId
    | _ => none)

variable (l m : List (AgentEvent Call))

@[simp] lemma startedIds_append :
    startedIds (l ++ m) = startedIds l ++ startedIds m := filterMap_append

@[simp] lemma completedIds_append :
    completedIds (l ++ m) = completedIds l ++ completedIds m := filterMap_append

variable (event : AgentEvent Call)

@[simp] lemma startedIds_cons (log : List (AgentEvent Call)) : startedIds (event :: log) =
      (match event with
        | .itemStarted item => [item.itemId]
        | _ => []) ++ startedIds log := by
  cases event <;> rfl

@[simp] lemma completedIds_cons (log : List (AgentEvent Call)) : completedIds (event :: log) =
      (match event with
        | .itemCompleted item => [item.itemId]
        | _ => []) ++ completedIds log := by
  cases event <;> rfl

@[simp] lemma startedIds_nil : startedIds ([] : List (AgentEvent Call)) = [] := rfl

@[simp] lemma completedIds_nil : completedIds ([] : List (AgentEvent Call)) = [] := rfl

def ItemDelta.fits : ItemDelta → ItemBody Call → Bool
  | .text _, .agentMessage .. => true
  | .reasoning .., .reasoning .. => true
  | _, _ => false

def Allowed (finalAfter : Option (List (AgentEvent Call))) (log : List (AgentEvent Call)) :
    AgentEvent Call → Prop
  | .turnStarted _ => log = []
  | .itemStarted item => item.itemId ∉ startedIds log
  | .itemCompleted item =>
    item.itemId ∈ startedIds log ∧ item.itemId ∉ completedIds log ∧
      (item.body.isFinal = true → finalAfter = some log)
  | .itemDelta itemId delta =>
    itemId ∉ completedIds log ∧
      ∃ item, .itemStarted item ∈ log ∧ item.itemId = itemId ∧ delta.fits item.body = true
  | .turnCompleted _ => ∀ id ∈ startedIds log, id ∈ completedIds log
  | .planUpdated _ => True
  | .usageUpdated .. => True

def StartNames (calls : List TurnBuilder.BuilderCall) (id : String) : Prop :=
  ∃ frame, .frame (.taskStarted frame) ∈ calls ∧ frame.toolUseId = some id

def ReportNames (calls : List TurnBuilder.BuilderCall) (id : String) : Prop :=
  ∃ report, .frame (.taskNotification report) ∈ calls ∧ report.toolUseId = some id

/-- A sub-agent with its thread as a task start among the calls may change it. -/
structure SubagentFollows (calls : List TurnBuilder.BuilderCall) (id : String)
    (before after : SubagentItem) : Prop where
  rest : after = { before with agentThreadId := after.agentThreadId, status := after.status }
  thread : after.agentThreadId ≠ before.agentThreadId → StartNames calls id
  status : after.status ≠ before.status → ReportNames calls id

lemma SubagentFollows.refl (calls : List TurnBuilder.BuilderCall) (id : String)
    (item : SubagentItem) : SubagentFollows calls id item item :=
  ⟨rfl, fun h => absurd rfl h, fun h => absurd rfl h⟩

lemma SubagentFollows.trans {calls : List TurnBuilder.BuilderCall} {id : String}
    {first second third : SubagentItem} (h : SubagentFollows calls id first second)
    (h' : SubagentFollows calls id second third) : SubagentFollows calls id first third where
  rest := by
    rw [h'.rest, h.rest]
  thread := by
    intro hne
    by_cases heq : second.agentThreadId = first.agentThreadId
    · exact h'.thread (heq ▸ hne)
    · exact h.thread heq
  status := by
    intro hne
    by_cases heq : second.status = first.status
    · exact h'.status (heq ▸ hne)
    · exact h.status heq

/-- The item shows what it showed when it was completed, up to a sub-agent's later changes. -/
def Shows (calls : List TurnBuilder.BuilderCall) (id : String) (done now : ItemBody Call) : Prop :=
  now = done ∨ ∃ before after, done = .subagent before ∧ now = .subagent after ∧
    SubagentFollows calls id before after

structure ItemBoard (Call : Type) where
  turnId : String
  slots : Table String (ItemSlot Call)
  order : List String
  held : Option String
  reports : Nat
  compaction : Option (AgentItem Call)

def TurnBuilder.board (b : TurnBuilder Call) : ItemBoard Call where
  turnId := b.context.turnId
  slots := b.slots
  order := b.order
  held := b.heldAgentMessage
  reports := b.notificationCount
  compaction := b.openCompaction

def notificationId (turnId : String) (n : Nat) : String :=
  turnId ++ ":notification:" ++ toString n

lemma notificationId_injective {turnId : String} {m n : Nat}
    (h : notificationId turnId m = notificationId turnId n) : m = n := by
  have h : toString m = toString n := (String.append_right_inj (turnId ++ ":notification:")).mp h
  exact Nat.repr_inj.mp h

namespace ItemBody

def isNotification : ItemBody Call → Bool
  | .taskNotification .. => true
  | _ => false

end ItemBody

namespace ItemBoard

/-- Neither a final message nor a report: what calls start and complete. -/
def Plain (body : ItemBody Call) : Prop := body.isFinal = false ∧ body.isNotification = false

def Completes (board : ItemBoard Call) (slot : ItemSlot Call) (item : AgentItem Call) : Prop :=
  Plain item.body ∨ item = slot.item ∨ board.compaction = some item

inductive Move (calls : List TurnBuilder.BuilderCall) :
    ItemBoard Call → List (AgentEvent Call) → ItemBoard Call → Prop where
  | start {board : ItemBoard Call} {item : AgentItem Call}
      (hfresh : board.slots.get? item.itemId = none) (hheld : board.held = none)
      (hplain : Plain item.body) :
      Move calls board [.itemStarted item]
        { board with
          slots := board.slots.insert item.itemId ⟨false, item⟩
          order := board.order ++ [item.itemId] }
  | complete {board : ItemBoard Call} {item : AgentItem Call} {slot : ItemSlot Call}
      (hslot : board.slots.get? item.itemId = some slot) (hopen : slot.completed = false)
      (hitem : board.Completes slot item) (hphase : item.body.isFinal = false)
      (hmessage : board.held = some item.itemId → item.body.isAgentMessage = false) :
      Move calls board [.itemCompleted item]
        { board with slots := board.slots.insert item.itemId ⟨true, item⟩ }
  | hold {board : ItemBoard Call} {item : AgentItem Call} {slot : ItemSlot Call}
      (hslot : board.slots.get? item.itemId = some slot) (hopen : slot.completed = false)
      (hitem : board.Completes slot item) (hmessage : item.body.isAgentMessage = true)
      (hheld : board.held = none ∨ board.held = some item.itemId) :
      Move calls board []
        { board with
          slots := board.slots.insert item.itemId ⟨false, item⟩
          held := some item.itemId }
  | release {board : ItemBoard Call} {id text : String} {slot : ItemSlot Call}
      {phase : MessagePhase}
      (hheld : board.held = some id) (hslot : board.slots.get? id = some slot)
      (hbody : slot.item.body = .agentMessage text phase) :
      Move calls board [.itemCompleted ⟨slot.item.itemId, .agentMessage text .commentary⟩]
        { board with
          slots := board.slots.insert id ⟨true, ⟨slot.item.itemId, .agentMessage text .commentary⟩⟩
          held := none }
  | drop {board : ItemBoard Call} {id : String} (hheld : board.held = some id)
      (hslot : ∀ slot, board.slots.get? id = some slot → slot.item.body.isAgentMessage = false) :
      Move calls board [] { board with held := none }
  | delta {board : ItemBoard Call} {id : String} {slot : ItemSlot Call} {body : ItemBody Call}
      {delta : ItemDelta}
      (hslot : board.slots.get? id = some slot) (hopen : slot.completed = false)
      (hheld : board.held = some id → slot.item.body.isAgentMessage = false)
      (hfits : delta.fits slot.item.body = true)
      (hsame : ∀ delta : ItemDelta, delta.fits body = delta.fits slot.item.body)
      (hfinal : body.isFinal = slot.item.body.isFinal) :
      Move calls board [.itemDelta id delta]
        { board with slots := board.slots.insert id ⟨false, ⟨slot.item.itemId, body⟩⟩ }
  | amend {board : ItemBoard Call} {id : String} {slot : ItemSlot Call}
      {before after : SubagentItem}
      (hslot : board.slots.get? id = some slot) (hbody : slot.item.body = .subagent before)
      (hafter : SubagentFollows calls id before after) :
      Move calls board []
        { board with
          slots := board.slots.insert id ⟨slot.completed, ⟨slot.item.itemId, .subagent after⟩⟩ }
  | deliver {board : ItemBoard Call} {body : ItemBody Call}
      (hfresh : ∀ slot, board.slots.get? (notificationId board.turnId board.reports) = some slot →
        slot.item.body.isNotification = true) (hphase : body.isFinal = false) :
      Move calls board
        [.itemStarted ⟨notificationId board.turnId board.reports, body⟩,
          .itemCompleted ⟨notificationId board.turnId board.reports, body⟩]
        { board with
          slots := board.slots.insert (notificationId board.turnId board.reports)
            ⟨true, ⟨notificationId board.turnId board.reports, body⟩⟩
          order := board.order ++ [notificationId board.turnId board.reports]
          reports := board.reports + 1 }
  | compaction {board : ItemBoard Call} {item : Option (AgentItem Call)}
      (hitem : ∀ i, item = some i → i.body = .compaction) :
      Move calls board [] { board with compaction := item }
  | plan {board : ItemBoard Call} {plan : List PlanStep} : Move calls board [.planUpdated plan] board

end ItemBoard

variable {calls : List TurnBuilder.BuilderCall} {finalAfter : Option (List (AgentEvent Call))}
  {log events : List (AgentEvent Call)} {board board' : ItemBoard Call}
  {id : String} {slot : ItemSlot Call}

structure SlotRecorded (calls : List TurnBuilder.BuilderCall) (log : List (AgentEvent Call))
    (board : ItemBoard Call) (id : String) (slot : ItemSlot Call) : Prop where
  key : slot.item.itemId = id
  done : id ∈ completedIds log ↔ slot.completed = true
  /-- The item held back is an open message, or something else completed it. -/
  held : board.held = some id → slot.completed = !slot.item.body.isAgentMessage
  started : slot.completed = false → board.held ≠ some id →
    ∃ item, .itemStarted item ∈ log ∧ item.itemId = id ∧
      ∀ delta : ItemDelta, delta.fits slot.item.body = true → delta.fits item.body = true
  phase : slot.completed = false → slot.item.body.isFinal = false
  content : slot.completed = true →
    ∃ item, .itemCompleted item ∈ log ∧ item.itemId = id ∧ Shows calls id item.body slot.item.body
  numbered : slot.item.body.isNotification = true →
    slot.completed = true ∧ ∃ n < board.reports, id = notificationId board.turnId n

structure Recorded (calls : List TurnBuilder.BuilderCall)
    (finalAfter : Option (List (AgentEvent Call))) (log : List (AgentEvent Call))
    (board : ItemBoard Call) : Prop where
  order : startedIds log = board.order
  nodup : board.order.Nodup
  once : (completedIds log).Nodup
  allowed : EachAfter (Allowed finalAfter) log
  listed : ∀ id, id ∈ board.order ↔ (board.slots.get? id).isSome = true
  reached : ∀ id ∈ completedIds log, id ∈ board.order
  holds : ∀ id, board.held = some id → id ∈ board.order
  slots : ∀ id slot, board.slots.get? id = some slot → SlotRecorded calls log board id slot
  compaction : ∀ item, board.compaction = some item → item.body = .compaction
  running : ∀ turn, .turnCompleted turn ∉ log

lemma SlotRecorded.frame (h : SlotRecorded calls log board id slot)
    (hevs : id ∉ completedIds events) (hturn : board'.turnId = board.turnId)
    (hrep : board.reports ≤ board'.reports)
    (hheld : board'.held = some id → board.held = some id)
    (hopen : slot.completed = false → board.held = some id → board'.held = some id) :
    SlotRecorded calls (log ++ events) board' id slot where
  key := h.key
  done := by
    rw [completedIds_append, mem_append, or_iff_left hevs]
    exact h.done
  held := fun hid => h.held (hheld hid)
  started := by
    intro hcomp hid
    obtain ⟨item, hitem, hrest⟩ :=
      h.started hcomp (fun hboard => hid (hopen hcomp hboard))
    exact ⟨item, mem_append_left _ hitem, hrest⟩
  phase := h.phase
  content := by
    intro hcomp
    obtain ⟨item, hitem, hrest⟩ := h.content hcomp
    exact ⟨item, mem_append_left _ hitem, hrest⟩
  numbered := by
    intro hbody
    obtain ⟨hcomp, n, hn, rfl⟩ := h.numbered hbody
    exact ⟨hcomp, n, by omega, by rw [hturn]⟩

namespace Recorded

section

variable (h : Recorded calls finalAfter log board)
include h

lemma get?_eq_none (hid : board.slots.get? id = none) : id ∉ board.order := by
  rw [h.listed, hid]
  simp

lemma still_running (hrun : ∀ turn, .turnCompleted turn ∉ events) :
    ∀ turn, .turnCompleted turn ∉ log ++ events := by
  intro turn hmem
  rcases mem_append.mp hmem with hmem | hmem
  · exact h.running turn hmem
  · exact hrun turn hmem

lemma add (hfresh : board.slots.get? id = none)
    (hslots : board'.slots = board.slots.insert id slot) (horder : board'.order = board.order ++ [id])
    (hstar : startedIds events = [id]) (hcomp : ∀ i ∈ completedIds events, i = id)
    (honce : (completedIds events).Nodup) (hturn : board'.turnId = board.turnId)
    (hrep : board.reports ≤ board'.reports) (hheld : board'.held = board.held)
    (hcompact : board'.compaction = board.compaction)
    (hrun : ∀ turn, .turnCompleted turn ∉ events)
    (hallow : EachAfter (Allowed finalAfter) (log ++ events))
    (hslot : SlotRecorded calls (log ++ events) board' id slot) :
    Recorded calls finalAfter (log ++ events) board' := by
  have hnew : id ∉ board.order := h.get?_eq_none hfresh
  refine ⟨?_, ?_, ?_, hallow, ?_, ?_, ?_, ?_, ?_, h.still_running hrun⟩
  · rw [startedIds_append, h.order, hstar, horder]
  · rw [horder]
    exact nodup_append.mpr ⟨h.nodup, nodup_singleton id, by
      intro a ha b hb
      rw [mem_singleton.mp hb]
      exact fun heq => hnew (heq ▸ ha)⟩
  · rw [completedIds_append]
    refine nodup_append.mpr ⟨h.once, honce, ?_⟩
    intro a ha b hb
    rw [hcomp b hb]
    exact fun heq => hnew (heq ▸ h.reached a ha)
  · intro i
    rw [horder, hslots, Table.get?_insert, mem_append, mem_singleton, h.listed]
    by_cases hi : i = id
    · simp [hi]
    · simp [hi]
  · intro i hi
    rw [completedIds_append, mem_append] at hi
    rw [horder]
    rcases hi with hi | hi
    · exact mem_append_left _ (h.reached i hi)
    · exact mem_append_right _ (mem_singleton.mpr (hcomp i hi))
  · intro i hi
    rw [horder]
    exact mem_append_left _ (h.holds i (hheld ▸ hi))
  · intro i s hs
    rw [hslots, Table.get?_insert] at hs
    split at hs
    · rename_i hi
      rw [hi, ← Option.some.inj hs]
      exact hslot
    rename_i hi
    refine (h.slots i s hs).frame (fun hmem => hi (hcomp i hmem)) hturn hrep ?_ ?_
    · exact fun heq => hheld ▸ heq
    · exact fun _ heq => hheld.symm ▸ heq
  · rw [hcompact]
    exact h.compaction

end

variable {old : ItemSlot Call}

lemma update (h : Recorded calls finalAfter log board) (hold : board.slots.get? id = some old)
    (hslots : board'.slots = board.slots.insert id slot) (horder : board'.order = board.order)
    (hstar : startedIds events = []) (hcomp : ∀ i ∈ completedIds events, i = id)
    (honce : (completedIds (log ++ events)).Nodup) (hturn : board'.turnId = board.turnId)
    (hrep : board'.reports = board.reports)
    (hheld : ∀ i, i ≠ id → (board'.held = some i ↔ board.held = some i))
    (hcompact : board'.compaction = board.compaction)
    (hrun : ∀ turn, .turnCompleted turn ∉ events)
    (hallow : EachAfter (Allowed finalAfter) (log ++ events))
    (hslot : SlotRecorded calls (log ++ events) board' id slot) :
    Recorded calls finalAfter (log ++ events) board' := by
  have hid : id ∈ board.order := by
    rw [h.listed, hold]
    rfl
  refine ⟨?_, ?_, honce, hallow, ?_, ?_, ?_, ?_, ?_, h.still_running hrun⟩
  · rw [startedIds_append, h.order, hstar, horder, append_nil]
  · rw [horder]
    exact h.nodup
  · intro i
    rw [horder, hslots, Table.get?_insert, h.listed]
    by_cases hi : i = id
    · rw [hi, hold]
      simp
    · simp [hi]
  · intro i hi
    rw [completedIds_append, mem_append] at hi
    rw [horder]
    rcases hi with hi | hi
    · exact h.reached i hi
    · exact hcomp i hi ▸ hid
  · intro i hi
    rw [horder]
    by_cases heq : i = id
    · exact heq ▸ hid
    · exact h.holds i ((hheld i heq).mp hi)
  · intro i s hs
    rw [hslots, Table.get?_insert] at hs
    split at hs
    · rename_i hi
      rw [hi, ← Option.some.inj hs]
      exact hslot
    · rename_i hi
      exact (h.slots i s hs).frame (fun hmem => hi (hcomp i hmem)) hturn (le_of_eq hrep.symm)
        (hheld i hi).mp (fun _ => (hheld i hi).mpr)
  · rw [hcompact]
    exact h.compaction

variable {item : AgentItem Call}

lemma allowed_started (h : Recorded calls finalAfter log board)
    (hfresh : board.slots.get? item.itemId = none) :
    EachAfter (Allowed finalAfter) (log ++ [.itemStarted item]) := by
  apply h.allowed.concat
  show item.itemId ∉ startedIds log
  rw [h.order]
  exact h.get?_eq_none hfresh

lemma start (h : Recorded calls finalAfter log board)
    (hfresh : board.slots.get? item.itemId = none) (hheld : board.held = none)
    (hplain : ItemBoard.Plain item.body) :
    Recorded calls finalAfter (log ++ [.itemStarted item]) { board with
        slots := board.slots.insert item.itemId ⟨false, item⟩
        order := board.order ++ [item.itemId] } := by
  refine h.add hfresh (by rfl) (by rfl) (by rfl) (by simp) (by simp) (by rfl) (by rfl) (by rfl)
    (by rfl) (by simp) (h.allowed_started hfresh) ?_
  refine ⟨rfl, ?_, ?_, ?_, ?_, ?_, ?_⟩
  · rw [completedIds_append]
    simpa using fun hmem => h.get?_eq_none hfresh (h.reached _ hmem)
  · intro hid
    exact absurd (hheld.symm.trans hid) (by simp)
  · intro _ _
    exact ⟨item, by simp, rfl, fun _ hfits => hfits⟩
  · exact fun _ => hplain.1
  · exact fun hcomp => absurd hcomp (by simp)
  · exact fun hbody => absurd (hplain.2.symm.trans hbody) (by simp)

lemma close (h : Recorded calls finalAfter log board) {item : AgentItem Call}
    {old : ItemSlot Call} {held : Option String}
    (hold : board.slots.get? item.itemId = some old) (hopen : old.completed = false)
    (hnote : item.body.isNotification = false)
    (hphase : item.body.isFinal = true → finalAfter = some log)
    (hheld : ∀ i, i ≠ item.itemId → (held = some i ↔ board.held = some i))
    (hmessage : held = some item.itemId → item.body.isAgentMessage = false) :
    Recorded calls finalAfter (log ++ [.itemCompleted item]) { board with
        slots := board.slots.insert item.itemId ⟨true, item⟩
        held := held } := by
  have hnot : item.itemId ∉ completedIds log := by
    rw [(h.slots _ _ hold).done, hopen]
    simp
  have hstar : item.itemId ∈ startedIds log := by
    rw [h.order, h.listed, hold]
    rfl
  refine h.update hold (by rfl) (by rfl) (by rfl) (by simp) ?_ (by rfl) (by rfl) hheld (by rfl)
    (by simp) (h.allowed.concat ⟨hstar, hnot, hphase⟩) ?_
  · rw [completedIds_append]
    refine nodup_append.mpr ⟨h.once, by simp, ?_⟩
    intro a ha b hb
    have hb : b = item.itemId := by simpa using hb
    exact fun heq => hnot (hb ▸ heq ▸ ha)
  refine ⟨rfl, by simp, ?_, ?_, ?_, ?_, ?_⟩
  · intro hid
    rw [hmessage hid]
    rfl
  · exact fun hcomp => absurd hcomp (by simp)
  · exact fun hcomp => absurd hcomp (by simp)
  · exact fun _ => ⟨item, by simp, rfl, .inl rfl⟩
  · exact fun hbody => absurd (hnote.symm.trans hbody) (by simp)

section

variable (h : Recorded calls finalAfter log board)
include h

lemma not_notification (hold : board.slots.get? item.itemId = some old)
    (hopen : old.completed = false) (hitem : board.Completes old item) :
    item.body.isNotification = false := by
  rcases hitem with hplain | rfl | hcompact
  · exact hplain.2
  · by_contra hbody
    have hcomp := ((h.slots _ _ hold).numbered (by simpa using hbody)).1
    exact absurd (hopen.symm.trans hcomp) (by simp)
  · rw [h.compaction item hcompact]
    rfl

lemma not_final (hold : board.slots.get? item.itemId = some old)
    (hopen : old.completed = false) (hitem : board.Completes old item) :
    item.body.isFinal = false := by
  rcases hitem with hplain | rfl | hcompact
  · exact hplain.1
  · exact (h.slots _ _ hold).phase hopen
  · rw [h.compaction item hcompact]
    rfl

lemma complete (hold : board.slots.get? item.itemId = some old)
    (hopen : old.completed = false) (hitem : board.Completes old item)
    (hphase : item.body.isFinal = false)
    (hmessage : board.held = some item.itemId → item.body.isAgentMessage = false) :
    Recorded calls finalAfter (log ++ [.itemCompleted item])
      { board with slots := board.slots.insert item.itemId ⟨true, item⟩ } :=
  h.close hold hopen (h.not_notification hold hopen hitem)
    (fun hfinal => absurd (hphase.symm.trans hfinal) (by simp)) (fun _ _ => Iff.rfl) hmessage

end

lemma hold (h : Recorded calls finalAfter log board) {item : AgentItem Call}
    {old : ItemSlot Call} (hold : board.slots.get? item.itemId = some old)
    (hopen : old.completed = false) (hitem : board.Completes old item)
    (hmessage : item.body.isAgentMessage = true)
    (hheld : board.held = none ∨ board.held = some item.itemId) :
    Recorded calls finalAfter (log ++ []) { board with
        slots := board.slots.insert item.itemId ⟨false, item⟩
        held := some item.itemId } := by
  refine h.update hold (by rfl) (by rfl) (by rfl) (by simp) ?_ (by rfl) (by rfl) ?_ (by rfl)
    (by simp) ?_ ?_
  · rw [append_nil]
    exact h.once
  · intro i hi
    rcases hheld with hheld | hheld
    · rw [hheld]
      simp [Ne.symm hi]
    · rw [hheld]
  · rw [append_nil]
    exact h.allowed
  refine ⟨rfl, ?_, ?_, ?_, ?_, ?_, ?_⟩
  · rw [append_nil, (h.slots _ _ hold).done, hopen]
  · intro _
    rw [hmessage]
    rfl
  · exact fun _ hid => absurd rfl hid
  · exact fun _ => h.not_final hold hopen hitem
  · exact fun hcomp => absurd hcomp (by simp)
  · intro hbody
    exact absurd ((h.not_notification hold hopen hitem).symm.trans hbody) (by simp)

section

variable (h : Recorded calls finalAfter log board)
include h

lemma release {text : String} {phase : MessagePhase}
    (hheld : board.held = some id) (hslot : board.slots.get? id = some slot)
    (hbody : slot.item.body = .agentMessage text phase) {given : MessagePhase}
    (hgiven : given = .final → finalAfter = some log) :
    Recorded calls finalAfter (log ++ [.itemCompleted ⟨slot.item.itemId, .agentMessage text given⟩])
      { board with
        slots := board.slots.insert id ⟨true, ⟨slot.item.itemId, .agentMessage text given⟩⟩
        held := none } := by
  have hrec := h.slots _ _ hslot
  have hopen : slot.completed = false := by
    rw [hrec.held hheld, hbody]
    rfl
  rw [hrec.key]
  refine @close _ _ _ _ _ h ⟨id, .agentMessage text given⟩ slot none hslot hopen rfl ?_ ?_ (by simp)
  · intro hfinal
    cases given with
    | commentary => exact absurd hfinal (by simp [ItemBody.isFinal])
    | final => exact hgiven rfl
  · intro i hi
    rw [hheld]
    simp [Ne.symm hi]

/-- Only the board's bookkeeping beside the items changes, and no item event is reported. -/
lemma aside (hslots : board'.slots = board.slots) (horder : board'.order = board.order)
    (hturn : board'.turnId = board.turnId) (hrep : board'.reports = board.reports)
    (hheld : ∀ i, board'.held = some i → board.held = some i)
    (hopen : ∀ i slot, board.slots.get? i = some slot → slot.completed = false →
      board.held = some i → board'.held = some i)
    (hcompact : ∀ item, board'.compaction = some item → item.body = .compaction)
    (hstar : startedIds events = []) (hcomp : completedIds events = [])
    (hrun : ∀ turn, .turnCompleted turn ∉ events)
    (hallow : EachAfter (Allowed finalAfter) (log ++ events)) :
    Recorded calls finalAfter (log ++ events) board' := by
  refine ⟨?_, ?_, ?_, hallow, ?_, ?_, ?_, ?_, hcompact, h.still_running hrun⟩
  · rw [startedIds_append, hstar, append_nil, horder]
    exact h.order
  · rw [horder]
    exact h.nodup
  · rw [completedIds_append, hcomp, append_nil]
    exact h.once
  · rw [horder, hslots]
    exact h.listed
  · rw [completedIds_append, hcomp, append_nil, horder]
    exact h.reached
  · rw [horder]
    exact fun i hi => h.holds i (hheld i hi)
  intro i slot hslot
  rw [hslots] at hslot
  exact (h.slots i slot hslot).frame (by simp [hcomp]) hturn (le_of_eq hrep.symm)
    (hheld i) (hopen i slot hslot)

lemma drop (hheld : board.held = some id)
    (hslot : ∀ slot, board.slots.get? id = some slot → slot.item.body.isAgentMessage = false) :
    Recorded calls finalAfter (log ++ []) { board with held := none } := by
  refine h.aside (by rfl) (by rfl) (by rfl) (by rfl) (by simp) ?_ h.compaction (by rfl) (by rfl)
    (by simp) ?_
  · intro i slot hi hopen hboard
    obtain rfl : i = id := Option.some.inj (hboard.symm.trans hheld)
    have hcomp := (h.slots i slot hi).held hboard
    rw [hslot slot hi, hopen] at hcomp
    exact absurd hcomp (by simp)
  · rw [append_nil]
    exact h.allowed

end

lemma delta (h : Recorded calls finalAfter log board) {body : ItemBody Call}
    {delta : ItemDelta} (hslot : board.slots.get? id = some slot) (hopen : slot.completed = false)
    (hheld : board.held = some id → slot.item.body.isAgentMessage = false)
    (hfits : delta.fits slot.item.body = true)
    (hsame : ∀ delta : ItemDelta, delta.fits body = delta.fits slot.item.body)
    (hfinal : body.isFinal = slot.item.body.isFinal) :
    Recorded calls finalAfter (log ++ [.itemDelta id delta])
      { board with slots := board.slots.insert id ⟨false, ⟨slot.item.itemId, body⟩⟩ } := by
  have hrec := h.slots _ _ hslot
  -- a message held back takes no delta
  have hnot : board.held ≠ some id := by
    intro hid
    have hcomp := hrec.held hid
    rw [hheld hid, hopen] at hcomp
    exact absurd hcomp (by simp)
  obtain ⟨item, hitem, hkey, hkind⟩ := hrec.started hopen hnot
  have hundone : id ∉ completedIds log := by
    rw [hrec.done, hopen]
    simp
  refine h.update hslot (by rfl) (by rfl) (by rfl) (by simp) ?_ (by rfl) (by rfl)
    (fun _ _ => Iff.rfl) (by rfl) (by simp) (h.allowed.concat ?_) ?_
  · rw [completedIds_append]
    simpa using h.once
  · exact ⟨hundone, item, hitem, hkey, hkind delta hfits⟩
  refine ⟨hrec.key, ?_, fun hid => absurd hid hnot, ?_, ?_, ?_, ?_⟩
  · simpa using hundone
  · intro _ _
    refine ⟨item, mem_append_left _ hitem, hkey, ?_⟩
    exact fun d hd => hkind d ((hsame d).symm.trans hd)
  · exact fun _ => hfinal.trans (hrec.phase hopen)
  · exact fun hcomp => absurd hcomp (by simp)
  · intro hbody
    have hdelta := (hsame delta).trans hfits
    cases body <;> cases delta <;> simp_all [ItemBody.isNotification, ItemDelta.fits]

section

variable (h : Recorded calls finalAfter log board)
include h

lemma amend {before after : SubagentItem}
    (hslot : board.slots.get? id = some slot) (hbody : slot.item.body = .subagent before)
    (hafter : SubagentFollows calls id before after) :
    Recorded calls finalAfter (log ++ []) { board with
        slots := board.slots.insert id ⟨slot.completed, ⟨slot.item.itemId, .subagent after⟩⟩ } := by
  have hrec := h.slots _ _ hslot
  refine h.update hslot (by rfl) (by rfl) (by rfl) (by simp) ?_ (by rfl) (by rfl)
    (fun _ _ => Iff.rfl) (by rfl) (by simp) ?_ ?_
  · rw [append_nil]
    exact h.once
  · rw [append_nil]
    exact h.allowed
  rw [append_nil]
  refine ⟨hrec.key, hrec.done, ?_, ?_, ?_, ?_, ?_⟩
  · intro hid
    have hcomp := hrec.held hid
    rw [hbody] at hcomp
    exact hcomp
  · intro hopen hid
    obtain ⟨item, hitem, hkey, hkind⟩ := hrec.started hopen hid
    refine ⟨item, hitem, hkey, ?_⟩
    intro delta hdelta
    cases delta <;> exact absurd hdelta (by simp [ItemDelta.fits])
  · exact fun _ => rfl
  · intro hcomp
    obtain ⟨item, hitem, hkey, hshows⟩ := hrec.content hcomp
    refine ⟨item, hitem, hkey, .inr ?_⟩
    rcases hshows with hsame | ⟨first, second, hfirst, hsnd, hfol⟩
    · exact ⟨before, after, hsame.symm.trans hbody, rfl, hafter⟩
    · have heq : second = before := ItemBody.subagent.inj (hsnd.symm.trans hbody)
      exact ⟨first, after, hfirst, rfl, hfol.trans (heq ▸ hafter)⟩
  · exact fun hnote => absurd hnote (by simp [ItemBody.isNotification])

lemma deliver {body : ItemBody Call}
    (hfresh : ∀ slot, board.slots.get? (notificationId board.turnId board.reports) = some slot →
      slot.item.body.isNotification = true) (hphase : body.isFinal = false) :
    Recorded calls finalAfter
      (log ++ [.itemStarted ⟨notificationId board.turnId board.reports, body⟩,
        .itemCompleted ⟨notificationId board.turnId board.reports, body⟩])
      { board with
        slots := board.slots.insert (notificationId board.turnId board.reports)
          ⟨true, ⟨notificationId board.turnId board.reports, body⟩⟩
        order := board.order ++ [notificationId board.turnId board.reports]
        reports := board.reports + 1 } := by
  -- the reports so far have smaller numbers
  have hnone : board.slots.get? (notificationId board.turnId board.reports) = none := by
    cases hget : board.slots.get? (notificationId board.turnId board.reports) with
    | none => rfl
    | some slot =>
    obtain ⟨-, n, hn, heq⟩ := (h.slots _ _ hget).numbered (hfresh slot hget)
    have := notificationId_injective heq
    omega
  generalize hid : notificationId board.turnId board.reports = id at *
  have hnot : id ∉ completedIds log := fun hmem => h.get?_eq_none hnone (h.reached _ hmem)
  have hallow : EachAfter (Allowed finalAfter)
      (log ++ [.itemStarted ⟨id, body⟩, .itemCompleted ⟨id, body⟩]) := by
    have hstart : EachAfter (Allowed finalAfter) (log ++ [.itemStarted ⟨id, body⟩]) :=
      h.allowed_started hnone
    have hdone : Allowed finalAfter (log ++ [.itemStarted ⟨id, body⟩])
        (.itemCompleted ⟨id, body⟩) :=
      ⟨by simp, by simpa using hnot, fun hfinal => absurd (hphase.symm.trans hfinal) (by simp)⟩
    have hboth := hstart.concat hdone
    rwa [append_assoc] at hboth
  refine h.add hnone (by rfl) (by rfl) (by rfl) (by simp) (by simp) (by rfl) (Nat.le_succ _)
    (by rfl) (by rfl) (by simp) hallow ?_
  refine ⟨rfl, by simp, ?_, ?_, ?_, ?_, ?_⟩
  · exact fun hheld => absurd (h.holds id hheld) (h.get?_eq_none hnone)
  · exact fun hcomp => absurd hcomp (by simp)
  · exact fun hcomp => absurd hcomp (by simp)
  · exact fun _ => ⟨⟨id, body⟩, by simp, rfl, .inl rfl⟩
  · exact fun _ => ⟨rfl, board.reports, Nat.lt_succ_self _, hid.symm⟩

lemma move (hmove : ItemBoard.Move calls board events board') :
    Recorded calls finalAfter (log ++ events) board' := by
  cases hmove with
  | start hfresh hheld hplain => exact h.start hfresh hheld hplain
  | complete hslot hopen hitem hphase hmessage => exact h.complete hslot hopen hitem hphase hmessage
  | hold hslot hopen hitem hmessage hheld => exact h.hold hslot hopen hitem hmessage hheld
  | release hheld hslot hbody => exact h.release hheld hslot hbody (by simp)
  | drop hheld hslot => exact h.drop hheld hslot
  | delta hslot hopen hheld hfits hsame hfinal => exact h.delta hslot hopen hheld hfits hsame hfinal
  | amend hslot hbody hafter => exact h.amend hslot hbody hafter
  | deliver hfresh hphase => exact h.deliver hfresh hphase
  | compaction hitem =>
    refine h.aside (by rfl) (by rfl) (by rfl) (by rfl) (fun _ hi => hi) (fun _ _ _ _ hi => hi) hitem
      (by rfl) (by rfl) (by simp) ?_
    rw [append_nil]
    exact h.allowed
  | plan =>
  refine h.aside (by rfl) (by rfl) (by rfl) (by rfl) (fun _ hi => hi) (fun _ _ _ _ hi => hi)
    h.compaction (by rfl) (by rfl) (by simp) (h.allowed.concat ?_)
  exact trivial

end

end Recorded

end CodeWide.Transcript
