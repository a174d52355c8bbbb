import CodeWide.Device.OrgJson
import CodeWide.Lib.Run

/-!
# The device's journal of Companion deliveries

`NativeFrameStore` (`apps/android/.../remote/NativeFrameStore.kt`): the accepted events of every
connection that the JS projection has not applied yet.
-/

namespace CodeWide.Device

open Lib

structure StoredFrame where
  id : Nat
  cursor : Int
  payload : String
deriving DecidableEq

structure IncomingEvent where
  cursor : Int
  afterCursor : Int
  payload : String
  pendingRequestPayload : Option Json

inductive IncomingJournalEntry where
  | event (e : IncomingEvent)
  | advance (cursor afterCursor : Int)

namespace IncomingJournalEntry

def cursor : IncomingJournalEntry → Int
  | .event e => e.cursor
  | .advance cursor _ => cursor

def afterCursor : IncomingJournalEntry → Int
  | .event e => e.afterCursor
  | .advance _ afterCursor => afterCursor

def event? : IncomingJournalEntry → Option IncomingEvent
  | .event e => some e
  | .advance _ _ => none

end IncomingJournalEntry

inductive JournalAppendStatus where
  | committed
  | nonContiguous
  | overflow
deriving DecidableEq

structure JournalAppendResult where
  status : JournalAppendStatus
  frames : List StoredFrame
  acknowledgedCursor : Option Int
  committedCursor : Option Int

@[ext]
structure JournalTotals where
  frameCount : Nat
  payloadBytes : Nat

structure FrameRow where
  id : Nat
  connectionId : String
  eventCursor : Int
  payload : String

namespace FrameRow

def payloadBytes (row : FrameRow) : Nat := row.payload.utf8ByteSize

def stored (row : FrameRow) : StoredFrame := ⟨row.id, row.eventCursor, row.payload⟩

end FrameRow

structure SyncState where
  cursor : Option Int := none
  snapshotCursor : Option Int := none
  projectedCursor : Option Int := none
  snapshotJson : Option String := none
  pendingRequestsJson : String := "[]"
  journalFrames : Nat := 0
  journalBytes : Nat := 0

structure NativeFrameStore where
  frames : List FrameRow := []
  nextId : Nat := 1
  sync : Table String SyncState := ∅
  totals : JournalTotals := ⟨0, 0⟩

def maxFrames : Nat := 10000

def maxBytes : Nat := 64 * 1024 * 1024

def maxTotalFrames : Nat := 50000

def maxTotalBytes : Nat := 256 * 1024 * 1024

def countFrames (rows : List FrameRow) : JournalTotals :=
  ⟨rows.length, (rows.map FrameRow.payloadBytes).sum⟩

section PendingRequests

variable (org : OrgJson)

def dynamicToolInputMaxBytes : Nat := 65536

/-- The params of a request that stays pending: a tool input over the limit is left out. -/
def pendingRequestParams (method : String) (rawParams : Json) : Json :=
  if method = "item/tool/call" ∧ dynamicToolInputMaxBytes < (org.text rawParams).utf8ByteSize then
    .obj [("threadId", .str (optString org rawParams "threadId")),
      ("__codewideRejected", .str "dynamicToolInputTooLarge")]
  else rawParams

def hasRequestKey (key : String) (request : Json) : Bool :=
  request.isObj && decide (nativeServerRequestKey org (request.get? "id") = key)

def applyPendingRequestEvent (pending : List Json) (payload : Json) : List Json :=
  if optString org payload "method" = "serverRequest/resolved" then
    match (optJSONObject payload "params").bind (·.get? "requestId") with
    | none => pending
    | some requestId =>
      pending.filter (fun request => !hasRequestKey org (nativeServerRequestKey org requestId) request)
  else
    match payload.get? "id", optJSONObject payload "params" with
    | none, _ => pending
    | some .null, _ => pending
    | some _, none => pending
    | some requestId, some rawParams =>
      if pending.any (hasRequestKey org (nativeServerRequestKey org requestId)) then pending
      else pending ++
        [.obj [("id", requestId), ("method", .str (optString org payload "method")),
          ("params", pendingRequestParams org (optString org payload "method") rawParams)]]

end PendingRequests

namespace NativeFrameStore

def upsert (s : NativeFrameStore) (connectionId : String) (f : SyncState → SyncState) :
    NativeFrameStore :=
  { s with sync := s.sync.insert connectionId (f ((s.sync.get? connectionId).getD {})) }

def update (s : NativeFrameStore) (connectionId : String) (f : SyncState → SyncState) :
    NativeFrameStore :=
  match s.sync.get? connectionId with
  | none => s
  | some row => { s with sync := s.sync.insert connectionId (f row) }

def deleteFrames (s : NativeFrameStore) (connectionId : String) : NativeFrameStore :=
  { s with frames := s.frames.filter (fun row => decide (row.connectionId ≠ connectionId)) }

def framesOf (s : NativeFrameStore) (connectionId : String) : List FrameRow :=
  s.frames.filter (fun row => decide (row.connectionId = connectionId))

def journalState (s : NativeFrameStore) (connectionId : String) : SyncState :=
  (s.sync.get? connectionId).getD {}

def decrementTotals (s : NativeFrameStore) (removed : JournalTotals) : NativeFrameStore :=
  { s with totals := ⟨s.totals.frameCount - removed.frameCount,
      s.totals.payloadBytes - removed.payloadBytes⟩ }

def journalCounters (s : NativeFrameStore) (connectionId : String) : JournalTotals :=
  ⟨(s.journalState connectionId).journalFrames, (s.journalState connectionId).journalBytes⟩

def resetJournal (s : NativeFrameStore) (connectionId : String) : NativeFrameStore :=
  ((s.deleteFrames connectionId).update connectionId (fun row =>
    { row with
      cursor := none
      snapshotCursor := none
      projectedCursor := none
      snapshotJson := none
      journalFrames := 0
      journalBytes := 0 })).decrementTotals (s.journalCounters connectionId)

def applyPendingRequestEvents (org : OrgJson) (s : NativeFrameStore) (connectionId : String)
    (payloads : List Json) : NativeFrameStore :=
  if payloads = [] then s
  else
    s.update connectionId (fun row => { row with
      pendingRequestsJson := org.text (.arr (payloads.foldl (applyPendingRequestEvent org)
        ((org.array row.pendingRequestsJson).getD []))) })

/-- The loop of `appendEvents` over a batch: the cursor reached and the fresh events, or
`none` at a break. -/
def chain (cursor : Option Int) : List IncomingJournalEntry → Option (Option Int × List IncomingEvent)
  | [] => some (cursor, [])
  | entry :: rest =>
    if cursor.any (fun c => decide (entry.cursor ≤ c)) then chain cursor rest
    else if cursor.any (fun c => decide (entry.afterCursor ≠ c)) then none
    else (chain (some entry.cursor) rest).map (fun r => (r.1, entry.event?.toList ++ r.2))

def Overflows (s : NativeFrameStore) (connectionId : String) (fresh : List IncomingEvent)
    (payloadBytes : Nat) : Prop :=
  maxFrames < (s.journalState connectionId).journalFrames + fresh.length ∨
    maxBytes < (s.journalState connectionId).journalBytes + payloadBytes ∨
    maxTotalFrames < s.totals.frameCount + fresh.length ∨
    maxTotalBytes < s.totals.payloadBytes + payloadBytes

instance (s : NativeFrameStore) (connectionId : String) (fresh : List IncomingEvent)
    (payloadBytes : Nat) : Decidable (s.Overflows connectionId fresh payloadBytes) := by
  unfold Overflows
  infer_instance

def rowsFor (nextId : Nat) (connectionId : String) (fresh : List IncomingEvent) : List FrameRow :=
  (fresh.zipIdx nextId).map (fun e => ⟨e.2, connectionId, e.1.cursor, e.1.payload⟩)

def freshBytes (fresh : List IncomingEvent) : Nat :=
  (fresh.map (fun event => event.payload.utf8ByteSize)).sum

def commitFresh (s : NativeFrameStore) (connectionId : String) (cursor : Option Int)
    (fresh : List IncomingEvent) : NativeFrameStore :=
  { s with
    frames := s.frames ++ rowsFor s.nextId connectionId fresh
    nextId := s.nextId + fresh.length
    sync := s.sync.insert connectionId
      { s.journalState connectionId with
        cursor
        journalFrames := (s.journalState connectionId).journalFrames + fresh.length
        journalBytes := (s.journalState connectionId).journalBytes + freshBytes fresh }
    totals := ⟨s.totals.frameCount + fresh.length, s.totals.payloadBytes + freshBytes fresh⟩ }

def appendEvents (org : OrgJson) (s : NativeFrameStore) (connectionId : String)
    (incoming : List IncomingJournalEntry) : NativeFrameStore × JournalAppendResult :=
  if incoming = [] then (s, ⟨.committed, [], none, none⟩)
  else
    match chain (s.journalState connectionId).cursor incoming with
    | none => (s, ⟨.nonContiguous, [], none, none⟩)
    | some (cursor, fresh) =>
      let acknowledgedCursor := (incoming.map IncomingJournalEntry.cursor).max?
      if cursor = (s.journalState connectionId).cursor then
        (s, ⟨.committed, [], acknowledgedCursor, none⟩)
      else if s.Overflows connectionId fresh (freshBytes fresh) then
        (s.resetJournal connectionId, ⟨.overflow, [], none, none⟩)
      else
        ((s.commitFresh connectionId cursor fresh).applyPendingRequestEvents org connectionId
            (fresh.filterMap IncomingEvent.pendingRequestPayload),
          ⟨.committed, (rowsFor s.nextId connectionId fresh).map FrameRow.stored,
            acknowledgedCursor, cursor⟩)

def storeSnapshot (s : NativeFrameStore) (connectionId : String) (cursor : Int)
    (snapshotJson : String) : NativeFrameStore :=
  ((s.deleteFrames connectionId).decrementTotals (s.journalCounters connectionId)).upsert
    connectionId (fun row => { row with
      cursor := some cursor
      snapshotCursor := some cursor
      projectedCursor := none
      snapshotJson := some snapshotJson
      journalFrames := 0
      journalBytes := 0 })

def storePendingRequests (s : NativeFrameStore) (connectionId pendingRequestsJson : String) :
    NativeFrameStore :=
  s.upsert connectionId (fun row => { row with pendingRequestsJson })

def accepts (nativeCursor : Int) (previousProjection : Option Int) (candidate : Int) : Bool :=
  decide (candidate ≤ nativeCursor) && previousProjection.all (fun p => decide (p < candidate))

def covered (connectionId : String) (projectionCursor : Int) (row : FrameRow) : Bool :=
  decide (row.connectionId = connectionId) && decide (row.eventCursor ≤ projectionCursor)

def acknowledgeThrough (s : NativeFrameStore) (connectionId : String) (projectionCursor : Int) :
    NativeFrameStore :=
  match s.sync.get? connectionId with
  | none => s
  | some row =>
    match row.cursor with
    | none => s
    | some nativeCursor =>
      if accepts nativeCursor row.projectedCursor projectionCursor then
        let removed := countFrames (s.frames.filter (covered connectionId projectionCursor))
        NativeFrameStore.decrementTotals
          { s with
            frames := s.frames.filter (fun row => !covered connectionId projectionCursor row)
            sync := s.sync.insert connectionId
              { row with
                projectedCursor := some projectionCursor
                journalFrames := row.journalFrames - removed.frameCount
                journalBytes := row.journalBytes - removed.payloadBytes } }
          removed
      else s

def deleteConnection (s : NativeFrameStore) (connectionId : String) : NativeFrameStore :=
  NativeFrameStore.decrementTotals
    { s.deleteFrames connectionId with sync := s.sync.erase connectionId }
    (s.journalCounters connectionId)

end NativeFrameStore

inductive FrameOp where
  | appendEvents (connectionId : String) (incoming : List IncomingJournalEntry)
  | storeSnapshot (connectionId : String) (cursor : Int) (snapshotJson : String)
  | acknowledgeThrough (connectionId : String) (projectionCursor : Int)
  | storePendingRequests (connectionId pendingRequestsJson : String)
  | deleteConnection (connectionId : String)

def frameStep (org : OrgJson) (s : NativeFrameStore) : FrameOp → NativeFrameStore
  | .appendEvents connectionId incoming => (s.appendEvents org connectionId incoming).1
  | .storeSnapshot connectionId cursor snapshotJson =>
    s.storeSnapshot connectionId cursor snapshotJson
  | .acknowledgeThrough connectionId projectionCursor =>
    s.acknowledgeThrough connectionId projectionCursor
  | .storePendingRequests connectionId pendingRequestsJson =>
    s.storePendingRequests connectionId pendingRequestsJson
  | .deleteConnection connectionId => s.deleteConnection connectionId

end CodeWide.Device
