import CodeWide.Agent.Bindings
import CodeWide.Lib.Json
import CodeWide.Lib.Run

/-!
# Changes of a thread on the wire

A full snapshot of a thread becomes only the notifications that say what changed since the last one.
-/

namespace CodeWide.Agent

open Lib

inductive ThreadStatus where
  | idle
  | active
  | notLoaded
  | failed
  | openElsewhere
deriving DecidableEq

structure ThreadSettings where
  model : String
  effort : Option String
  permissionProfile : String
  serviceTier : Option String
deriving DecidableEq

structure ThreadSpawn where
  parentThreadId : AppThreadId
  agentNickname : Option String
  agentRole : Option String

structure AgentThread where
  appThreadId : AppThreadId
  cwd : String
  name : Option String
  archived : Bool
  status : ThreadStatus
  settings : ThreadSettings
  spawn : Option ThreadSpawn

structure ThreadSnapshot where
  status : ThreadStatus
  name : Option String
  archived : Bool
  settings : ThreadSettings

def ThreadSnapshot.of (thread : AgentThread) : ThreadSnapshot :=
  ⟨thread.status, thread.name, thread.archived, thread.settings⟩

def canAcceptDirectInput (thread : AgentThread) : Bool :=
  decide (thread.status ≠ .openElsewhere) && thread.spawn.isNone

def threadStatus : ThreadStatus → Json
  | .idle | .openElsewhere => .ofFields [("type", .str "idle")]
  | .active => .ofFields [("type", .str "active"), ("activeFlags", .arr [])]
  | .notLoaded => .ofFields [("type", .str "notLoaded")]
  | .failed => .ofFields [("type", .str "systemError")]

def sandboxPolicy (profile cwd : String) : Json :=
  if profile = ":read-only" then
    .ofFields [("type", .str "readOnly"), ("networkAccess", .bool false)]
  else if profile = ":full-access" ∨ profile = ":danger-full-access" then
    .ofFields [("type", .str "dangerFullAccess")]
  else
    .ofFields [("type", .str "workspaceWrite"), ("writableRoots", .arr [.str cwd]),
      ("networkAccess", .bool true), ("excludeTmpdirEnvVar", .bool false),
      ("excludeSlashTmp", .bool false)]

def approvalPolicy (profile : String) : String :=
  if profile = ":full-access" ∨ profile = ":danger-full-access" then "never" else "on-request"

def optionStr : Option String → Json
  | some s => .str s
  | none => .null

def threadSettings (settings : ThreadSettings) (cwd modelProvider : String) : Json :=
  .ofFields [
    ("cwd", .str cwd),
    ("approvalPolicy", .str (approvalPolicy settings.permissionProfile)),
    ("approvalsReviewer", .str "user"),
    ("sandboxPolicy", sandboxPolicy settings.permissionProfile cwd),
    ("activePermissionProfile",
      .ofFields [("id", .str settings.permissionProfile), ("extends", .null)]),
    ("model", .str settings.model),
    ("modelProvider", .str modelProvider),
    ("serviceTier", optionStr settings.serviceTier),
    ("effort", optionStr settings.effort),
    ("summary", .null),
    ("collaborationMode", .ofFields [("mode", .str "default"), ("settings", .ofFields
      [("model", .str settings.model), ("reasoning_effort", optionStr settings.effort),
        ("developer_instructions", .null)])]),
    ("multiAgentMode", .str "explicitRequestOnly"),
    ("personality", .null)]

inductive Notification where
  | statusChanged (threadId : AppThreadId) (status : Json) (canAcceptDirectInput : Bool)
  | nameUpdated (threadId : AppThreadId) (threadName : Option String)
  | archived (threadId : AppThreadId)
  | unarchived (threadId : AppThreadId)
  | settingsUpdated (threadId : AppThreadId) (threadSettings : Json)

def Notification.threadId : Notification → AppThreadId
  | .statusChanged id _ _ | .nameUpdated id _ | .archived id | .unarchived id
  | .settingsUpdated id _ => id

def maxTrackedThreads : Nat := 8192

structure EventProjector where
  modelProvider : String
  threads : Table AppThreadId ThreadSnapshot

namespace EventProjector

def observeThread (p : EventProjector) (thread : AgentThread) : EventProjector :=
  let threads := if p.threads.size ≥ maxTrackedThreads then ∅ else p.threads
  { p with threads := threads.insert thread.appThreadId (.of thread) }

def sent (changed : Bool) (payload : Notification) : List Notification :=
  if changed then [payload] else []

def threadUpdated (p : EventProjector) (thread : AgentThread) :
    EventProjector × List Notification :=
  let next := ThreadSnapshot.of thread
  let previous := p.threads.get? thread.appThreadId
  let id := thread.appThreadId
  let status := sent (previous.all (fun previous => decide (previous.status ≠ next.status)))
    (.statusChanged id (threadStatus next.status) (canAcceptDirectInput thread))
  let name := sent
    (match previous with
      | none => next.name.isSome
      | some previous => decide (previous.name ≠ next.name))
    (.nameUpdated id next.name)
  let archived := sent (previous.any (fun previous => decide (previous.archived ≠ next.archived)))
    (if next.archived then .archived id else .unarchived id)
  let settings := sent
    (previous.all (fun previous => decide (previous.settings ≠ next.settings)))
    (.settingsUpdated id (threadSettings next.settings thread.cwd p.modelProvider))
  (p.observeThread thread, status ++ name ++ archived ++ settings)

lemma mem_sent {changed : Bool} {payload n : Notification} (h : n ∈ sent changed payload) :
    n = payload := by
  unfold sent at h
  split at h
  · exact List.mem_singleton.mp h
  · cases h

variable {p : EventProjector} {thread : AgentThread}

lemma threadId_of_mem {n : Notification}
    (h : n ∈ (p.threadUpdated thread).2) : n.threadId = thread.appThreadId := by
  unfold threadUpdated at h
  simp only [List.mem_append] at h
  rcases h with ((h | h) | h) | h
  · rw [mem_sent h]
    rfl
  · rw [mem_sent h]
    rfl
  · rw [mem_sent h]
    split <;> rfl
  · rw [mem_sent h]
    rfl

lemma threadUpdated_same
    (h : p.threads.get? thread.appThreadId = some (.of thread)) : (p.threadUpdated thread).2 = [] := by
  unfold threadUpdated
  simp [h, sent]

end EventProjector

structure ListedThread where
  status : Json
  canAcceptDirectInput : Bool
  name : Option String
  archived : Bool
  settings : Json
deriving DecidableEq

namespace ListedThread

def of (modelProvider : String) (thread : AgentThread) : ListedThread where
  status := threadStatus thread.status
  canAcceptDirectInput := Agent.canAcceptDirectInput thread
  name := thread.name
  archived := thread.archived
  settings := threadSettings thread.settings thread.cwd modelProvider

def apply (row : ListedThread) : Notification → ListedThread
  | .statusChanged _ status canAcceptDirectInput => { row with status, canAcceptDirectInput }
  | .nameUpdated _ threadName => { row with name := threadName }
  | .archived _ => { row with archived := true }
  | .unarchived _ => { row with archived := false }
  | .settingsUpdated _ settings => { row with settings }

def receive (row : ListedThread) (id : AppThreadId) (ns : List Notification) : ListedThread :=
  (ns.filter (fun n => decide (n.threadId = id))).foldl apply row

variable (row : ListedThread) {ns : List Notification}

variable {id : AppThreadId}

lemma receive_of_forall_ne (h : ∀ n ∈ ns, n.threadId ≠ id) : row.receive id ns = row := by
  unfold receive
  rw [List.filter_eq_nil_iff.mpr (fun n hn => by simp [h n hn])]
  rfl

lemma receive_of_forall_eq
    (h : ∀ n ∈ ns, n.threadId = id) : row.receive id ns = ns.foldl apply row := by
  unfold receive
  rw [List.filter_eq_self.mpr (fun n hn => by simp [h n hn])]

lemma apply_sent (changed : Bool) (payload : Notification) :
    (EventProjector.sent changed payload).foldl apply row =
      if changed then row.apply payload else row := by
  unfold EventProjector.sent
  split <;> rfl

end ListedThread

/-- Every field of the snapshot that is not sent is in the row already. -/
def Told (p : EventProjector) (row : ListedThread) (thread : AgentThread) : Prop :=
  match p.threads.get? thread.appThreadId with
  | none => (thread.name = none → row.name = none) ∧ row.archived = thread.archived
  | some previous =>
    (previous.status = thread.status → row.status = threadStatus thread.status ∧
      row.canAcceptDirectInput = canAcceptDirectInput thread) ∧
    (previous.name = thread.name → row.name = thread.name) ∧
    (previous.archived = thread.archived → row.archived = thread.archived) ∧
    (previous.settings = thread.settings →
      row.settings = threadSettings thread.settings thread.cwd p.modelProvider)

instance (p : EventProjector) (row : ListedThread) (thread : AgentThread) :
    Decidable (Told p row thread) := by
  unfold Told
  split <;> infer_instance

lemma field_iff {α : Type} {changed : Bool} {shown next : α} :
    (if changed then next else shown) = next ↔ (changed = false → shown = next) := by
  cases changed <;> simp

lemma receive_threadUpdated (p : EventProjector) (row : ListedThread) (thread : AgentThread) :
    let previous := p.threads.get? thread.appThreadId
    let status := previous.all (fun previous => decide (previous.status ≠ thread.status))
    let name := match previous with
      | none => thread.name.isSome
      | some previous => decide (previous.name ≠ thread.name)
    let archived := previous.any (fun previous => decide (previous.archived ≠ thread.archived))
    let settings := previous.all (fun previous => decide (previous.settings ≠ thread.settings))
    row.receive thread.appThreadId (p.threadUpdated thread).2 =
      ⟨if status then threadStatus thread.status else row.status,
        if status then canAcceptDirectInput thread else row.canAcceptDirectInput,
        if name then thread.name else row.name,
        if archived then thread.archived else row.archived,
        if settings then threadSettings thread.settings thread.cwd p.modelProvider
        else row.settings⟩ := by
  intro previous status name archived settings
  rw [ListedThread.receive_of_forall_eq row (fun n hn => EventProjector.threadId_of_mem hn)]
  change (EventProjector.sent status _ ++ EventProjector.sent name _ ++
    EventProjector.sent archived _ ++ EventProjector.sent settings _).foldl _ row = _
  simp only [List.foldl_append, ListedThread.apply_sent]
  have harch : ∀ r : ListedThread,
      r.apply (if (ThreadSnapshot.of thread).archived then .archived thread.appThreadId
        else .unarchived thread.appThreadId) = { r with archived := thread.archived } := by
    intro r
    unfold ThreadSnapshot.of
    cases thread.archived <;> rfl
  rw [harch]
  cases status <;> cases name <;> cases archived <;> cases settings <;> rfl

lemma receive_threadUpdated_iff (p : EventProjector) (row : ListedThread) (thread : AgentThread) :
    row.receive thread.appThreadId (p.threadUpdated thread).2 = .of p.modelProvider thread ↔
      Told p row thread := by
  rw [receive_threadUpdated]
  unfold ListedThread.of
  rw [ListedThread.mk.injEq, field_iff, field_iff, field_iff, field_iff, field_iff]
  unfold Told
  cases p.threads.get? thread.appThreadId with
  | none => cases thread.name <;> simp
  | some previous =>
  simp only [Option.all_some, Option.any_some, decide_eq_false_iff_not, not_not]
  constructor
  · rintro ⟨hst, hinput, hname, harch, hset⟩
    exact ⟨fun h => ⟨hst h, hinput h⟩, hname, harch, hset⟩
  · rintro ⟨hst, hname, harch, hset⟩
    exact ⟨fun h => (hst h).1, fun h => (hst h).2, hname, harch, hset⟩

inductive Update where
  | updated (thread : AgentThread)
  | observed (thread : AgentThread)

/-- The projector, one thread's row on a device, and the latest snapshot since the row was
listed. -/
structure Followed where
  projector : EventProjector
  row : ListedThread
  latest : Option AgentThread

namespace Followed

def step (id : AppThreadId) (s : Followed) : Update → Followed
  | .observed thread => { s with projector := s.projector.observeThread thread }
  | .updated thread =>
    let (projector, ns) := s.projector.threadUpdated thread
    { projector, row := s.row.receive id ns
      latest := if thread.appThreadId = id then some thread else s.latest }

def Shows (s : Followed) : Prop :=
  ∀ thread ∈ s.latest, s.row = .of s.projector.modelProvider thread

/-- A snapshot of the row's thread finds every field it does not send in the row. -/
def Meets (id : AppThreadId) (s : Followed) : Update → Prop
  | .observed _ => True
  | .updated thread => thread.appThreadId = id → Told s.projector s.row thread

instance (id : AppThreadId) (s : Followed) : (u : Update) → Decidable (Meets id s u)
  | .observed _ => isTrue trivial
  | .updated thread =>
    inferInstanceAs (Decidable (thread.appThreadId = id → Told s.projector s.row thread))

lemma latest_updated (id : AppThreadId) (s : Followed) (thread : AgentThread) :
    (step id s (.updated thread)).latest =
      if thread.appThreadId = id then some thread else s.latest := rfl

lemma shows_step_iff (id : AppThreadId) (s : Followed) (u : Update) (h : s.Shows) :
    (step id s u).Shows ↔ Meets id s u := by
  cases u with
  | observed thread => exact ⟨fun _ => trivial, fun _ => h⟩
  | updated thread =>
  by_cases hid : thread.appThreadId = id
  · have hshows : (step id s (.updated thread)).Shows ↔
        s.row.receive thread.appThreadId (s.projector.threadUpdated thread).2 =
          .of s.projector.modelProvider thread := by
      unfold Shows
      rw [latest_updated, if_pos hid, hid]
      refine ⟨fun hall => hall thread rfl, fun heq other hother => ?_⟩
      cases hother
      exact heq
    rw [hshows, receive_threadUpdated_iff]
    exact ⟨fun htold _ => htold, fun hmeets => hmeets hid⟩
  refine ⟨fun _ heq => absurd heq hid, fun _ other hother => ?_⟩
  have hlat : s.latest = some other := by
    rwa [latest_updated, if_neg hid] at hother
  have hrow : s.row.receive id (s.projector.threadUpdated thread).2 = s.row :=
    ListedThread.receive_of_forall_ne s.row
      (fun n hn => by rw [EventProjector.threadId_of_mem hn]; exact hid)
  exact hrow.trans (h other hlat)

/-- A row shows the latest snapshot exactly when it has what the snapshot does not send. -/
theorem shows_latest_iff (id : AppThreadId) (p : EventProjector) (row : ListedThread)
    (updates : List Update) :
    ((∀ done rest, updates = done ++ rest → (exec (step id) ⟨p, row, none⟩ done).Shows) ↔
      Always (step id) (Meets id) ⟨p, row, none⟩ updates) ∧
    ∀ (q : EventProjector) (thread : AgentThread),
      q.threads.get? thread.appThreadId = some (.of thread) → (q.threadUpdated thread).2 = [] := by
  refine ⟨?_, fun q thread h => EventProjector.threadUpdated_same h⟩
  refine always_iff_forall_reached (T := fun _ => True) (fun _ _ _ => trivial)
    (fun s u _ h => shows_step_iff id s u h) trivial ?_ updates
  intro thread h
  cases h

/-- A thread that a device lists as archived under the name of before. -/
def reopened : AgentThread where
  appThreadId := "t"
  cwd := "/w"
  name := none
  archived := false
  status := .idle
  settings := ⟨"m", none, ":workspace", none⟩
  spawn := none

/-- The device goes on showing the thread as archived and named. -/
theorem stale_row_kept :
    (exec (step "t") ⟨⟨"claude", ∅⟩,
        { ListedThread.of "claude" reopened with name := some "Before", archived := true }, none⟩
        [.updated reopened]).row =
      { ListedThread.of "claude" reopened with name := some "Before", archived := true } ∧
    ¬ (exec (step "t") ⟨⟨"claude", ∅⟩,
        { ListedThread.of "claude" reopened with name := some "Before", archived := true }, none⟩
        [.updated reopened]).Shows := by
  refine ⟨by decide, fun hshows => ?_⟩
  have harch := congrArg ListedThread.archived (hshows reopened rfl)
  exact absurd harch (by decide)

end Followed

end CodeWide.Agent
