import CodeWide.Lib.Json
import Mathlib.Data.Prod.Lex

/-!
# The store of thread-list rows

The reduction of a journaled payload to a `RowEvent`, the row store with its eviction index and
tombstones, and the reducer of events and rows onto it.
-/

namespace CodeWide.ThreadList

open Lib Json

def maxTrackedRows : Nat := 4096
def maxTombstones : Nat := 1024

def rowField : String := "codewideList"
def rowSourceKinds : List String := ["cli", "vscode"]

/-- How soon a changed row reaches the subscribers. -/
inductive FlushClass where
  | coalesced
  | urgent
deriving DecidableEq

def FlushClass.max : FlushClass → FlushClass → FlushClass
  | .coalesced, c => c
  | .urgent, _ => .urgent

def userInteractionMethods : List String :=
  ["item/commandExecution/requestApproval", "item/fileChange/requestApproval",
    "item/tool/requestUserInput", "item/permissions/requestApproval",
    "mcpServer/elicitation/request"]

def isUserRequest (method : String) : Bool := decide (method ∈ userInteractionMethods)

def urgentMethods : List String :=
  ["thread/status/changed", "turn/started", "turn/completed", "thread/started",
    "thread/deleted", "thread/archived", "thread/unarchived", "companion/thread/pin/updated",
    "thread/name/updated"]

def methodClass (method : String) : FlushClass :=
  if decide (method ∈ urgentMethods) || isUserRequest method then .urgent else .coalesced

/-- Server-owned row metadata, `codewideList` on the wire. -/
structure ListRowMeta where
  cursor : Nat
  archived : Bool
  liveActivity : Option Json
deriving DecidableEq

def ListRowMeta.toWire (m : ListRowMeta) : Json :=
  .obj [("archived", .bool m.archived), ("cursor", .int m.cursor),
    ("liveActivity", m.liveActivity.getD .null)]

inductive Seed where
  | row (value : Json)
  | excluded

inductive StatusChange where
  | set (status : Json)
  | active
  | idle
  | retire
deriving DecidableEq

inductive FieldChange where
  | set (value : Json)
  | clear
deriving DecidableEq

def FieldChange.of (value : Json) : FieldChange :=
  if value.isNull then .clear else .set value

def FieldChange.intoOption : FieldChange → Option Json
  | .set value => some value
  | .clear => none

structure RowUpdate where
  status : Option StatusChange
  name : Option FieldChange
  archived : Option Bool
  pin : Option (Bool × Nat)
  preview : Option String
  /-- Activity bumps `updatedAt` to the observation time. -/
  activity : Bool
  recencyAt : Option Int
  liveActivity : Option FieldChange
deriving DecidableEq

def RowUpdate.default : RowUpdate :=
  ⟨none, none, none, none, none, false, none, none⟩

def RowUpdate.isActivity (update : RowUpdate) : Bool :=
  update.status.isSome || update.activity || update.preview.isSome || update.liveActivity.isSome

inductive EventKind where
  | started (thread : Json)
  | excluded
  | deleted
  | request
  | update (update : RowUpdate)
deriving DecidableEq

/-- One journaled payload reduced to what a list row needs. -/
structure RowEvent where
  threadId : String
  cursor : Nat
  flushClass : FlushClass
  kind : EventKind
deriving DecidableEq

def RowEvent.isExclusion (event : RowEvent) : Bool := decide (event.kind = .excluded)

def isWhiteSpace (c : Char) : Bool :=
  let n := c.val
  (decide (0x9 ≤ n) && decide (n ≤ 0xd)) || decide (n = 0x20) || decide (n = 0x85) ||
    decide (n = 0xa0) || decide (n = 0x1680) || (decide (0x2000 ≤ n) && decide (n ≤ 0x200a)) ||
    decide (n = 0x2028) || decide (n = 0x2029) || decide (n = 0x202f) || decide (n = 0x205f) ||
    decide (n = 0x3000)

def isBlank (text : String) : Bool := text.toList.all isWhiteSpace

def operationUpdate (operation params : Json) : RowUpdate :=
  let turnActive := (operation.get? "turnActive").bind asBool?
  match (operation.get? "kind").bind asStr? with
  | some "threadStatus" =>
    { RowUpdate.default with
      status := ((params.get? "status").filter isObj).map StatusChange.set }
  | some "turnStarted" => { RowUpdate.default with status := some .active }
  | some "turnCompleted" => { RowUpdate.default with status := some .idle }
  | some "threadProgress" =>
    { RowUpdate.default with
      status := if turnActive = some true then some .active else none }
  | some "threadInvalidated" =>
    { RowUpdate.default with
      status := if turnActive = some false then some .retire else none }
  | some "threadName" =>
    { RowUpdate.default with
      name := some (((params.get? "threadName").filter isStr).elim .clear FieldChange.of) }
  | some "threadArchived" =>
    { RowUpdate.default with archived := (operation.get? "archived").bind asBool? }
  | some "threadPinned" =>
    { RowUpdate.default with
      pin := ((params.get? "pinned").bind asBool?).bind (fun pinned =>
        ((params.get? "pinCursor").bind asU64?).map (fun cursor => (pinned, cursor))) }
  | _ => RowUpdate.default

def summaryUpdate (operation : Json) (update : RowUpdate) : RowUpdate :=
  match (operation.get? "summary").filter
      (fun summary => decide ((summary.get? "activity").bind asBool? = some true)) with
  | some summary =>
    { update with
      activity := true
      preview := ((summary.get? "previewText").bind asStr?).filter (fun text => !isBlank text)
      recencyAt := ((summary.get? "recencyAt").bind asI64?).filter
        (fun value => decide (0 ≤ value)) }
  | none => update

def rowUpdate (payload params : Json) (streamed : Option String) : RowUpdate :=
  let update :=
    match ((payload.get? "codewideThreadPatch").bind (·.get? "operation")).filter isObj with
    | some operation =>
      let update := summaryUpdate operation (operationUpdate operation params)
      match operation.get? "liveActivity" with
      | some activity => { update with liveActivity := some (FieldChange.of activity) }
      | none => update
    | none => RowUpdate.default
  match streamed with
  | some text => { update with activity := true, preview := some text }
  | none => update

def RowEvent.parse (payload : Json) (cursor : Nat) (streamed : Option String)
    (seed : Option Seed) : Option RowEvent := do
  let method ← (payload.get? "method").bind asStr?
  let params ← (payload.get? "params").filter isObj
  let threadId ← ((params.get? "threadId").bind asStr?).or
    (((params.get? "thread").bind (·.get? "id")).bind asStr?)
  let kind ←
    if method = "thread/started" then
      match seed with
      | some .excluded => some .excluded
      | some (.row row) => some (.started row)
      | none => (params.get? "thread").map .started
    else if method = "thread/deleted" then some .deleted
    else if isUserRequest method then some .request
    else
      let update := rowUpdate payload params streamed
      if update = RowUpdate.default then none else some (.update update)
  some { threadId, cursor, flushClass := methodClass method, kind }

structure StoredRow where
  /-- The decorated row object without `codewideList`. -/
  value : Json
  rowMeta : ListRowMeta
deriving DecidableEq

structure RowStore where
  rows : Table String StoredRow
  /-- `(cursor, threadId)` of every row: the eviction order. -/
  byCursor : Table (Nat ×ₗ String) Unit
  tombstones : Table String Nat
  tombstoneOrder : List String
deriving DecidableEq

inductive Applied where
  | unchanged
  | dirty (flushClass : FlushClass)
  | unknown
deriving DecidableEq

def rowValue (value : Json) : Json := (value.insert "turns" (.arr [])).erase rowField

def attachMeta (row : Json) (m : ListRowMeta) : Json := row.insert rowField m.toWire

/-- A CLI or VS Code thread, a child of another thread, or a non-primary provider's row. -/
def streamableValue (row : Json) : Bool :=
  (row.get? "parentThreadId").any (fun parent => !parent.isNull) ||
    ((row.get? "source").bind asStr?).any (fun source => decide (source ∈ rowSourceKinds)) ||
    decide ((row.getPath? ["codewideAgent", "primary"]).bind asBool? = some false)

def statusType (row : Json) : Option String :=
  ((row.get? "status").bind (·.get? "type")).bind asStr?

def recencyAt (row : Json) : Option Int := (row.get? "recencyAt").bind asI64?

def retainStatus (page previous : Json) : Json :=
  if statusType page = some "notLoaded" ∧ statusType previous = some "active" then
    match previous.get? "status" with
    | some status => page.insert "status" status
    | none => page
  else page

def retainRecency (page previous : Json) : Json :=
  match recencyAt previous with
  | some previousRecency =>
    if (recencyAt page).all (fun recency => decide (recency < previousRecency)) then
      page.insert "recencyAt" (.int previousRecency)
    else page
  | none => page

def retainLiveState (page previous : Json) : Json :=
  retainRecency (retainStatus page previous) previous

namespace RowStore

def empty : RowStore := ⟨∅, ∅, ∅, []⟩

def contains (s : RowStore) (threadId : String) : Bool := s.rows.contains threadId

def streamable (s : RowStore) (threadId : String) : Bool :=
  (s.rows.get? threadId).any (fun row => streamableValue row.value)

def wireRow (s : RowStore) (threadId : String) : Option Json :=
  (s.rows.get? threadId).map (fun row => attachMeta row.value row.rowMeta)

def forgetTombstone (s : RowStore) (threadId : String) : RowStore :=
  if s.tombstones.contains threadId then
    { s with
      tombstones := s.tombstones.erase threadId
      tombstoneOrder := s.tombstoneOrder.filter (fun id => decide (id ≠ threadId)) }
  else s

def dropRow (s : RowStore) (threadId : String) : RowStore :=
  match s.rows.get? threadId with
  | some previous =>
    { s with
      rows := s.rows.erase threadId
      byCursor := s.byCursor.erase (toLex (previous.rowMeta.cursor, threadId)) }
  | none => s

/-- The eviction loop. Every round takes an index entry, so their number is enough fuel. -/
def evict : Nat → RowStore → RowStore
  | 0, s => s
  | fuel + 1, s =>
    if s.rows.size ≥ maxTrackedRows then
      match s.byCursor.first? with
      | none => s
      | some (oldest, _) =>
        evict fuel { s with
          byCursor := s.byCursor.erase oldest, rows := s.rows.erase (ofLex oldest).2 }
    else s

def insert (s : RowStore) (threadId : String) (value : Json) (m : ListRowMeta) : RowStore :=
  let s := (s.dropRow threadId).forgetTombstone threadId
  let s := s.evict s.byCursor.size
  { s with
    byCursor := s.byCursor.insert (toLex (m.cursor, threadId)) ()
    rows := s.rows.insert threadId ⟨value, m⟩ }

def trimTombstones (s : RowStore) : RowStore :=
  if s.tombstoneOrder.length ≥ maxTombstones then
    match s.tombstoneOrder with
    | oldest :: rest => { s with tombstones := s.tombstones.erase oldest, tombstoneOrder := rest }
    | [] => s
  else s

def remove (s : RowStore) (threadId : String) (cursor : Nat) : RowStore :=
  let s := ((s.dropRow threadId).forgetTombstone threadId).trimTombstones
  { s with
    tombstones := s.tombstones.insert threadId cursor
    tombstoneOrder := s.tombstoneOrder ++ [threadId] }

def reindex (s : RowStore) (threadId : String) (previous cursor : Nat) : RowStore :=
  if previous ≠ cursor then
    { s with
      byCursor := (s.byCursor.erase (toLex (previous, threadId))).insert
        (toLex (cursor, threadId)) () }
  else s

end RowStore

/-- Sets a field of an object when it differs; the flag tells whether it changed. -/
def replaceField (row : Json) (field : String) (next : Option Json) : Json × Bool :=
  match next with
  | none => (row, false)
  | some next =>
    if !row.isObj then (row, false)
    else if row.get? field = some next then (row, false)
    else (row.insert field next, true)

def StatusChange.next (row : Json) : StatusChange → Option Json
  | .set status => some status
  | .active =>
    if statusType row ≠ some "active" then
      some (.obj [("activeFlags", .arr []), ("type", .str "active")])
    else none
  | .idle => some (.obj [("type", .str "idle")])
  | .retire => if statusType row = some "active" then some (.obj [("type", .str "idle")]) else none

def currentPin (row : Json) : Option (Bool × Nat) :=
  (row.getPath? ["codewide", "threadPin"]).bind (fun pin =>
    ((pin.get? "pinned").bind asBool?).bind (fun pinned =>
      ((pin.get? "cursor").bind asU64?).map (fun cursor => (pinned, cursor))))

def applyPin (row : Json) (pinned : Bool) (cursor : Nat) : Json × Bool :=
  if (currentPin row).any (fun current =>
      decide (current.2 > cursor) ||
        (decide (current.2 = cursor) && decide (current.1 = pinned))) then (row, false)
  else if !row.isObj then (row, false)
  else
    let metadata := (row.get? "codewide").getD (.obj [])
    let pin := .obj [("cursor", .int cursor), ("pinned", .bool pinned), ("version", .int 1)]
    if !metadata.isObj then (row, false)
    else (row.insert "codewide" (metadata.insert "threadPin" pin), true)

namespace RowUpdate

def applyStatus (update : RowUpdate) (row : Json) : Json × Bool :=
  match update.status with
  | some status => replaceField row "status" (status.next row)
  | none => (row, false)

def applyName (update : RowUpdate) (row : Json) : Json × Bool :=
  match update.name with
  | some name => replaceField row "name" (some (name.intoOption.getD .null))
  | none => (row, false)

def applyPinned (update : RowUpdate) (row : Json) : Json × Bool :=
  match update.pin with
  | some (pinned, cursor) => applyPin row pinned cursor
  | none => (row, false)

def applyPreview (update : RowUpdate) (row : Json) : Json × Bool :=
  match update.preview with
  | some preview => replaceField row "preview" (some (.str preview))
  | none => (row, false)

def applyActivity (update : RowUpdate) (nowSecs : Int) (row : Json) : Json × Bool :=
  if update.activity then
    if ((row.get? "updatedAt").bind asI64?).all (fun at_ => decide (at_ < nowSecs)) then
      replaceField row "updatedAt" (some (.int nowSecs))
    else (row, false)
  else (row, false)

def applyRecency (update : RowUpdate) (row : Json) : Json × Bool :=
  match update.recencyAt with
  | some recency =>
    if (ThreadList.recencyAt row).all (fun current => decide (current < recency)) then
      replaceField row "recencyAt" (some (.int recency))
    else (row, false)
  | none => (row, false)

def applyUrgent (update : RowUpdate) (row : Json) : Json × Bool :=
  let status := update.applyStatus row
  let name := update.applyName status.1
  let pin := update.applyPinned name.1
  (pin.1, status.2 || name.2 || pin.2)

def applyCoalesced (update : RowUpdate) (nowSecs : Int) (row : Json) : Json × Bool :=
  let preview := update.applyPreview row
  let activity := update.applyActivity nowSecs preview.1
  let recency := update.applyRecency activity.1
  (recency.1, preview.2 || activity.2 || recency.2)

end RowUpdate

def applyUpdate (row : StoredRow) (update : RowUpdate) (nowSecs : Int) :
    StoredRow × Option FlushClass :=
  let urgent := update.applyUrgent row.value
  let coalesced := update.applyCoalesced nowSecs urgent.1
  let archived := update.archived.getD row.rowMeta.archived
  let liveActivity := update.liveActivity.elim row.rowMeta.liveActivity FieldChange.intoOption
  ({ value := coalesced.1, rowMeta := { row.rowMeta with archived, liveActivity } },
    if urgent.2 || decide (row.rowMeta.archived ≠ archived) then some .urgent
    else if coalesced.2 || decide (row.rowMeta.liveActivity ≠ liveActivity) then some .coalesced
    else none)

namespace RowStore

def applyStarted (s : RowStore) (event : RowEvent) (thread : Json) : RowStore :=
  let previous := s.rows.get? event.threadId
  s.insert event.threadId (rowValue thread)
    { cursor := event.cursor
      archived := previous.any (fun row => row.rowMeta.archived)
      liveActivity := previous.bind (fun row => row.rowMeta.liveActivity) }

end RowStore

def updatedRow (event : RowEvent) (update : RowUpdate) (nowSecs : Int) (row : StoredRow) :
    StoredRow × Option FlushClass :=
  let (updated, changed) := applyUpdate row update nowSecs
  let previous := row.rowMeta.cursor
  let cursor := if changed.isSome then max previous event.cursor else previous
  ({ updated with rowMeta := { updated.rowMeta with cursor } }, changed)

namespace RowStore

/-- Writes an updated row. An unchanged one keeps its cursor, so its index entry stays. -/
def applyToRow (s : RowStore) (event : RowEvent) (update : RowUpdate) (nowSecs : Int)
    (row : StoredRow) : RowStore × Applied :=
  let (stored, changed) := updatedRow event update nowSecs row
  let s := ({ s with rows := s.rows.insert event.threadId stored }).reindex event.threadId
    row.rowMeta.cursor stored.rowMeta.cursor
  match changed.elim event.flushClass (fun c => c.max event.flushClass) with
  | .urgent => (s, .dirty .urgent)
  | .coalesced => (s, if changed.isSome then .dirty .coalesced else .unchanged)

def apply (s : RowStore) (event : RowEvent) (nowSecs : Int) : RowStore × Applied :=
  match event.kind with
  | .started thread => (s.applyStarted event thread, .dirty .urgent)
  | .excluded => (s.remove event.threadId event.cursor, .dirty .urgent)
  | .deleted => (s.remove event.threadId event.cursor, .dirty .urgent)
  | .request => (s, if s.contains event.threadId then .dirty .urgent else .unchanged)
  | .update update =>
    match s.rows.get? event.threadId with
    | none => (s, if update.isActivity then .unknown else .unchanged)
    | some row => s.applyToRow event update nowSecs row

end RowStore

def pageRow (stored : Option StoredRow) (row : Json) (head : Nat) (archived : Bool) : StoredRow where
  value := stored.elim (rowValue row) (fun stored => retainLiveState (rowValue row) stored.value)
  rowMeta :=
    { cursor := head, archived
      liveActivity := stored.bind (fun stored => stored.rowMeta.liveActivity) }

def threadIdOf (row : Json) : Option String := (row.get? "id").bind asStr?

namespace RowStore

/-- One row of a page read after journal head `head`: the store and the answered row. -/
def observeRow (s : RowStore) (row : Json) (head : Nat) (archived : Bool) : RowStore × Json :=
  match threadIdOf row with
  | none => (s, row)
  | some threadId =>
    let stored := s.rows.get? threadId
    if stored.any (fun stored => decide (stored.rowMeta.cursor > head)) then
      (s, (s.wireRow threadId).getD row)
    else if (s.tombstones.get? threadId).any (fun cursor => decide (cursor > head)) then
      (s, attachMeta row { cursor := head, archived, liveActivity := none })
    else
      let fresh := pageRow stored row head archived
      (s.insert threadId fresh.value fresh.rowMeta, attachMeta fresh.value fresh.rowMeta)

def observePage (s : RowStore) (rows : List Json) (head : Nat) (archived : Bool) :
    RowStore × List Json :=
  match rows with
  | [] => (s, [])
  | row :: rest =>
    let (s, answer) := s.observeRow row head archived
    let (s, answers) := s.observePage rest head archived
    (s, answer :: answers)

/-- Stores a row read after journal head `head`, unless a fresher one is stored. -/
def seedRow (s : RowStore) (threadId : String) (value : Json) (head : Nat) : RowStore :=
  match s.rows.get? threadId with
  | none => s.insert threadId (rowValue value) { cursor := head, archived := false, liveActivity := none }
  | some stored =>
    if stored.rowMeta.cursor ≤ head then
      s.insert threadId (retainLiveState (rowValue value) stored.value)
        { cursor := head, archived := stored.rowMeta.archived
          liveActivity := stored.rowMeta.liveActivity }
    else s

def drainEvent (nowSecs : Int) (acc : RowStore × FlushClass) (event : RowEvent) :
    RowStore × FlushClass :=
  let (s, applied) := acc.1.apply event nowSecs
  match applied with
  | .dirty flushClass => (s, acc.2.max flushClass)
  | _ => (s, acc.2)

def seed (s : RowStore) (threadId : String) (value : Json) (head : Nat)
    (buffered : List RowEvent) (nowSecs : Int) : RowStore × FlushClass :=
  buffered.foldl (drainEvent nowSecs) (s.seedRow threadId value head, .urgent)

end RowStore

end CodeWide.ThreadList
