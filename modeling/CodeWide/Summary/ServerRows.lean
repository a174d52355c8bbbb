import CodeWide.Lib.Json
import CodeWide.Lib.LinkedMap
import CodeWide.Lib.Run
import CodeWide.Lib.Standing

/-!
# Server-owned summary rows of a device

The generation check of a queued write, its loads, the staging under the race rule and the commit
are steps of their own.
-/

namespace CodeWide.Summary

open Lib

inductive ThreadStatus where
  | notLoaded
  | idle
  | systemError
  | active (activeFlags : List String)

def normalizeThreadStatus (status : Json) : ThreadStatus :=
  match (status.get? "type").bind Json.asStr? with
  | some "active" =>
    .active ((((status.get? "activeFlags").bind Json.asArr?).getD []).filterMap fun flag =>
      match flag.asStr? with
      | some "waitingOnApproval" => some "waitingOnApproval"
      | some "waitingOnUserInput" => some "waitingOnUserInput"
      | _ => none)
  | some "idle" => .idle
  | some "systemError" => .systemError
  | _ => .notLoaded

/-- Server-owned pin state ordered by the Companion replay cursor. -/
structure ThreadPinState where
  cursor : Nat := 0
  pinned : Bool := false

structure Thread where
  id : String
  agentNickname : Option String := none
  agentRole : Option String := none
  codewideAgent : Option Json := none
  codewideCatalogExcluded : Bool := false
  cwd : String
  name : Option String := none
  originUrl : Option String := none
  parentThreadId : Option String := none
  preview : String
  recencyAt : Option Int := none
  status : Json
  threadPin : ThreadPinState := {}
  updatedAt : Int

structure ListRowMeta where
  archived : Bool := false
  cursor : Nat

structure ThreadListRow where
  listMeta : ListRowMeta
  thread : Thread
  threadId : String

structure RowTombstone where
  cursor : Nat
  threadId : String

structure ThreadListRowsFrame where
  removed : List RowTombstone := []
  rows : List ThreadListRow := []

def isCatalogExcluded (thread : Thread) : Bool := thread.codewideCatalogExcluded

structure ServerFields where
  agentNickname : Option String
  agentRole : Option String
  archived : Bool
  cwd : String
  name : Option String
  parentThreadId : Option String
  preview : String
  recencyAt : Option Int
  status : ThreadStatus
  updatedAt : Int

structure DeviceFields where
  activeSubagents : Option Bool := none
  closedQuestionTurnId : Option String := none
  deleteCommandId : Option String := none
  firstUnreadAgentTurnId : Option String := none
  lastSeenCursor : Nat := 0
  latestActivityCursor : Nat := 0
  pendingQuestion : Option Json := none
  pendingRequestCount : Nat := 0
  projectionCursor : Option Nat := some 0
  skippedQuestions : Option Json := none
  submittedQuestions : Option Json := none
  unread : Nat := 0

structure ProvisionalThread where
  thread : Json
  updatedAt : Int

structure StoredThreadSummary extends ServerFields, DeviceFields where
  remoteThreadId : String
  codewideAgent : Option Json := none
  gitOriginUrl : Option String := none
  pinCursor : Option Nat := none
  pinned : Bool := false
  provisionalThread : Option ProvisionalThread := none

def threadSummaryProjectionCursor (row : StoredThreadSummary) : Nat :=
  row.projectionCursor.getD row.latestActivityCursor

/-- The shell of `thread/started` stays until a row shows newer activity than it. -/
def retainedShell (previous : Option StoredThreadSummary) (row : ThreadListRow) :
    Option ProvisionalThread :=
  (previous.bind (·.provisionalThread)).filter fun shell =>
    decide (row.thread.updatedAt ≤ shell.updatedAt)

/-- Device-owned fields a server row never writes. -/
def deviceFields : Option StoredThreadSummary → DeviceFields
  | none => {}
  | some previous =>
    { previous.toDeviceFields with
      projectionCursor := some (threadSummaryProjectionCursor previous) }

/-- The pin carries its own server cursor; an older row cannot undo a newer pin change. -/
def serverPin (thread : Thread) : Option StoredThreadSummary → Nat × Bool
  | some previous =>
    if thread.threadPin.cursor < previous.pinCursor.getD 0 then
      (previous.pinCursor.getD 0, previous.pinned)
    else (thread.threadPin.cursor, thread.threadPin.pinned)
  | none => (thread.threadPin.cursor, thread.threadPin.pinned)

structure Ports where
  plainThreadPreview : String → String
  loadView : Bool → Option String → Nat → Table String StoredThreadSummary → List String
  subagentActivity : Table String StoredThreadSummary →
    Table String (Option StoredThreadSummary) → List (String × Bool)

def rowFields (ports : Ports) (row : ThreadListRow) : ServerFields where
  agentNickname := row.thread.agentNickname
  agentRole := row.thread.agentRole
  archived := row.listMeta.archived
  cwd := row.thread.cwd
  name := row.thread.name
  parentThreadId := row.thread.parentThreadId
  preview := ports.plainThreadPreview row.thread.preview
  recencyAt := row.thread.recencyAt
  status := normalizeThreadStatus row.thread.status
  updatedAt := row.thread.updatedAt

def serverRowSummary (ports : Ports) (row : ThreadListRow)
    (previous : Option StoredThreadSummary) : StoredThreadSummary where
  toServerFields := rowFields ports row
  toDeviceFields := deviceFields previous
  remoteThreadId := row.thread.id
  codewideAgent := row.thread.codewideAgent.or (previous.bind (·.codewideAgent))
  gitOriginUrl := row.thread.originUrl.or (previous.bind (·.gitOriginUrl))
  pinCursor := some (serverPin row.thread previous).1
  pinned := (serverPin row.thread previous).2
  provisionalThread := retainedShell previous row

def maxTombstones : Nat := 1024

abbrev RowReport := Report (Option ThreadListRow)

structure SessionState where
  cursors : Table String Nat := ∅
  generation : Option Nat := none
  tombstones : LinkedMap String Nat := ∅
  reports : List (String × RowReport) := []

namespace SessionState

def report (session : SessionState) (threadId : String) (r : RowReport) : SessionState :=
  { session with reports := session.reports ++ [(threadId, r)] }

def rememberTombstone (session : SessionState) (threadId : String) (cursor : Nat) :
    SessionState :=
  let tombstones := (session.tombstones.erase threadId).put threadId cursor
  { session with
    tombstones :=
      if maxTombstones < tombstones.size then
        match tombstones.entries with
        | oldest :: _ => tombstones.erase oldest.1
        | [] => tombstones
      else tombstones }

def admitCursor (session : SessionState) (threadId : String) (cursor : Nat) :
    SessionState × Bool :=
  if (session.cursors.get? threadId).any (fun entry => decide (cursor < entry)) then
    (session, false)
  else ({ session with cursors := session.cursors.insert threadId cursor }, true)

def admitRow (session : SessionState) (threadId : String) (cursor : Nat) : SessionState × Bool :=
  match session.tombstones.get? threadId with
  | some removedAt =>
    if cursor < removedAt then (session, false)
    else ({ session with tombstones := session.tombstones.erase threadId }).admitCursor threadId cursor
  | none => session.admitCursor threadId cursor

/-- Admits a removal and remembers it against older page rows. -/
def admitTombstone (session : SessionState) (threadId : String) (cursor : Nat) :
    SessionState × Bool :=
  if (session.cursors.get? threadId).any (fun entry => decide (cursor < entry)) then
    (session, false)
  else
    (({ session with cursors := session.cursors.insert threadId cursor }).rememberTombstone
      threadId cursor, true)

/-- A row with a recorded cursor above `cursor` survives a snapshot that omits it. -/
def newerThan (session : SessionState) (threadId : String) (cursor : Nat) : Bool :=
  (session.cursors.get? threadId).any fun entry => decide (cursor < entry)

end SessionState

/-- Staged changes over the stored rows; `none` deletes. -/
abbrev Changes := Table String (Option StoredThreadSummary)

def listed (rows : Table String StoredThreadSummary) (changed : Changes) (threadId : String) :
    Option StoredThreadSummary :=
  match changed.get? threadId with
  | some row => row
  | none => rows.get? threadId

structure RowBatch where
  session : SessionState
  changed : Changes := ∅

def stageRow (ports : Ports) (current : Table String StoredThreadSummary) (batch : RowBatch)
    (row : ThreadListRow) : RowBatch :=
  let (session, admitted) := batch.session.admitRow row.threadId row.listMeta.cursor
  let content := if isCatalogExcluded row.thread then none else some row
  let session := session.report row.threadId (.offer row.listMeta.cursor content)
  if admitted then
    { session
      changed := batch.changed.insert row.threadId
        (content.map fun row => serverRowSummary ports row (current.get? row.threadId)) }
  else { batch with session }

def stageTombstone (batch : RowBatch) (tombstone : RowTombstone) : RowBatch :=
  let (session, admitted) := batch.session.admitTombstone tombstone.threadId tombstone.cursor
  let session := session.report tombstone.threadId (.offer tombstone.cursor none)
  if admitted then { session, changed := batch.changed.insert tombstone.threadId none }
  else { batch with session }

def takeAway (batch : RowBatch) (threadId : String) : RowBatch :=
  { session := batch.session.report threadId .withdraw
    changed := batch.changed.insert threadId none }

def withActiveSubagents (current : Table String StoredThreadSummary) (changed : Changes)
    (root : String × Bool) : Changes :=
  match listed current changed root.1 with
  | some row => changed.insert root.1 (some { row with activeSubagents := some root.2 })
  | none => changed

/-- Adds the roots whose sub-agents the staged rows change. -/
def applySubagentActivity (ports : Ports) (current : Table String StoredThreadSummary)
    (batch : RowBatch) : RowBatch :=
  { batch with
    changed := (ports.subagentActivity current batch.changed).foldl (withActiveSubagents current)
      batch.changed }

def stageServerRows (ports : Ports) (current : Table String StoredThreadSummary)
    (session : SessionState) (frame : ThreadListRowsFrame) : RowBatch :=
  let batch := frame.removed.foldl stageTombstone { session }
  let batch := frame.rows.foldl (stageRow ports current) batch
  applySubagentActivity ports current batch

def threadCatalogPageSize : Nat := 36

structure CatalogPage where
  generation : Option Nat
  rows : List ThreadListRow
  archived : Bool := false
  prefixIds : List String := []
  readChanged : List String := []
  replaceHead : Bool := false
  projectCwd : Option String := none

/-- A catalog head refresh never evicts a row whose live turn or request is open. -/
def catalogHeadEvictable (row : StoredThreadSummary) : Bool :=
  match row.status with
  | .active _ => false
  | _ => decide (row.pendingRequestCount = 0)

def evictableFromHead (page : CatalogPage) (threadId : String) (row : StoredThreadSummary) : Bool :=
  !page.prefixIds.contains threadId && !row.pinned && decide (row.unread = 0) &&
    row.deleteCommandId.isNone && catalogHeadEvictable row && !page.readChanged.contains threadId

/-- Evicts a stale cached head that the first page of a window replaced. -/
def staleHeadEvictions (ports : Ports) (current : Table String StoredThreadSummary)
    (page : CatalogPage) : List String :=
  let count := max threadCatalogPageSize page.prefixIds.length
  (ports.loadView page.archived page.projectCwd count current).filter fun threadId =>
    (current.get? threadId).any (evictableFromHead page threadId)

def evict (batch : RowBatch) (threadId : String) : RowBatch :=
  if batch.changed.contains threadId then batch else takeAway batch threadId

def stageCatalogPage (ports : Ports) (current : Table String StoredThreadSummary)
    (session : SessionState) (page : CatalogPage) : RowBatch :=
  let evictions := if page.replaceHead then staleHeadEvictions ports current page else []
  let batch := page.rows.foldl (stageRow ports current) { session }
  let batch := applySubagentActivity ports current batch
  evictions.foldl evict batch

structure Snapshot where
  cursor : Nat
  rows : List ThreadListRow

/-- Rows outside the global snapshot: pins, started shells and children. -/
def retainThreadSummaryMissingFromSnapshot (summary : StoredThreadSummary) : Bool :=
  (summary.pinned && decide (0 < summary.pinCursor.getD 0)) ||
    summary.provisionalThread.isSome || summary.parentThreadId.isSome

/-- Removes a row the snapshot omits unless it lives outside it or a newer push kept it. -/
def stageSnapshotRemoval (snapshot : Snapshot) (batch : RowBatch)
    (entry : String × StoredThreadSummary) : RowBatch :=
  if (snapshot.rows.map (·.threadId)).contains entry.1 ||
      retainThreadSummaryMissingFromSnapshot entry.2 then batch
  else if batch.session.newerThan entry.1 snapshot.cursor then batch
  else takeAway batch entry.1

def stageSnapshot (ports : Ports) (current : Table String StoredThreadSummary)
    (session : SessionState) (snapshot : Snapshot) : RowBatch :=
  let batch := snapshot.rows.foldl (stageRow ports current) { session }
  let batch := current.entries.foldl (stageSnapshotRemoval snapshot) batch
  applySubagentActivity ports current batch

inductive Write where
  | serverRows (generation : Nat) (frame : ThreadListRowsFrame)
  | catalogPage (page : CatalogPage)
  | snapshot (snapshot : Snapshot)

/-- How far the write at the head of the queue has come. -/
inductive Phase where
  | idle
  | loading (write : Write)
  | staged (changed : Changes)

structure DeviceList where
  session : SessionState := {}
  queue : List Write := []
  phase : Phase := .idle
  rows : Table String StoredThreadSummary := ∅
  disposed : Bool := false

namespace DeviceList

/-- Whether rows read or pushed under `generation` still belong to the current socket. -/
def isCurrent (s : DeviceList) (generation : Option Nat) : Bool :=
  decide (s.session.generation = generation)

def starts (s : DeviceList) : Write → Bool
  | .serverRows generation _ => !s.disposed && s.isCurrent (some generation)
  | .catalogPage page => !s.disposed && s.isCurrent page.generation
  | .snapshot _ => !s.disposed

def stageWrite (ports : Ports) (s : DeviceList) : Write → RowBatch
  | .serverRows _ frame => stageServerRows ports s.rows s.session frame
  | .catalogPage page => stageCatalogPage ports s.rows s.session page
  | .snapshot snapshot => stageSnapshot ports s.rows s.session snapshot

def commit (rows : Table String StoredThreadSummary) (changed : Changes) :
    Table String StoredThreadSummary :=
  changed.entries.foldl
    (fun rows (threadId, row) =>
      match row with
      | some row => rows.insert threadId row
      | none => rows.erase threadId)
    rows

def advance (ports : Ports) (s : DeviceList) : DeviceList :=
  match s.phase with
  | .idle =>
    match s.queue with
    | [] => s
    | write :: queue =>
      if s.starts write then { s with queue, phase := .loading write } else { s with queue }
  | .loading write =>
    let batch := stageWrite ports s write
    { s with session := batch.session, phase := .staged batch.changed }
  | .staged changed => { s with rows := commit s.rows changed, phase := .idle }

inductive ListInput where
  | generation (generation : Nat)
  | rows (generation : Nat) (frame : ThreadListRowsFrame)
  | catalogPage (page : CatalogPage)
  | snapshot (snapshot : Snapshot)
  | forgetConnection
  | advance
  | dispose

def step (ports : Ports) (s : DeviceList) : ListInput → DeviceList
  | .generation generation =>
    if s.session.generation = some generation then s
    else { s with session := { generation := some generation } }
  | .rows generation frame =>
    if s.session.generation = some generation then
      { s with queue := s.queue ++ [.serverRows generation frame] }
    else s
  | .catalogPage page => { s with queue := s.queue ++ [.catalogPage page] }
  | .snapshot snapshot => { s with queue := s.queue ++ [.snapshot snapshot] }
  | .forgetConnection => { s with session := {} }
  | .advance => advance ports s
  | .dispose => { s with disposed := true }

end DeviceList

end CodeWide.Summary
