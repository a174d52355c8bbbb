import CodeWide.Lib.Json
import CodeWide.Lib.Saturating

/-!
# The replay journal

The `sync_replay` table (`crates/companion-core/src/store.rs`) with its two counters, and the thread
pins written in the same transactions (`thread_pins.rs`).
-/

namespace CodeWide.Store

open Lib Saturating

abbrev Payload := List UInt8

structure Codec where
  parse : Payload → Option Json
  write : Json → Payload

structure ReplayLimits where
  maxEntries : Nat
  maxBytes : Nat

structure ThreadPin where
  pinned : Bool
  cursor : Nat
deriving DecidableEq

structure ThreadPinRequest where
  threadId : String
  pinned : Bool

structure ReplayStore where
  head : Nat
  bytes : Nat
  replay : Table Nat Payload
  pins : Table String ThreadPin

def ReplayStore.empty : ReplayStore := ⟨0, 0, ∅, ∅⟩

/-- The event of a pin change, with the thread patch every such event carries. -/
def ThreadPinRequest.notification (request : ThreadPinRequest) (cursor : Nat) : Json :=
  .obj [
    ("codewideThreadPatch", .obj [
      ("operation", .obj [("kind", .str "threadPinned")]),
      ("threadId", .str request.threadId),
      ("version", .int 1)]),
    ("method", .str "companion/thread/pin/updated"),
    ("params", .obj [
      ("pinCursor", .int cursor),
      ("pinned", .bool request.pinned),
      ("threadId", .str request.threadId)])]

def deletedThreadId (payload : Json) : Option String :=
  if (payload.get? "method").bind Json.asStr? = some "thread/deleted" then
    ((payload.get? "params").bind (·.get? "threadId")).bind Json.asStr?
  else none

def retirePin (codec : Codec) (pins : Table String ThreadPin) (entry : Payload × Nat) :
    Table String ThreadPin :=
  match (codec.parse entry.1).bind deletedThreadId with
  | some id => pins.insert id ⟨false, entry.2⟩
  | none => pins

def pushEntry (acc : ReplayStore × List Nat) (payload : Payload) : ReplayStore × List Nat :=
  let head := add64 acc.1.head 1
  ({ acc.1 with
      head, bytes := add64 acc.1.bytes payload.length
      replay := acc.1.replay.insert head payload },
    acc.2 ++ [head])

/-- The pruning loop. Every round removes an entry, so the number of entries is enough fuel. -/
def pruneReplay (limits : ReplayLimits) : Nat → ReplayStore → ReplayStore
  | 0, s => s
  | fuel + 1, s =>
    if s.replay.size > limits.maxEntries ∨ s.bytes > limits.maxBytes then
      match s.replay.first? with
      | none => s
      | some (cursor, payload) =>
        pruneReplay limits fuel
          { s with replay := s.replay.erase cursor, bytes := s.bytes - payload.length }
    else s

def appendReplayTransaction (s : ReplayStore) (payloads : List Payload) (limits : ReplayLimits) :
    ReplayStore × List Nat :=
  let (appended, cursors) := payloads.foldl pushEntry (s, [])
  (pruneReplay limits appended.replay.size appended, cursors)

def appendReplayBatch (codec : Codec) (s : ReplayStore) (payloads : List Payload)
    (limits : ReplayLimits) : ReplayStore × List Nat :=
  if payloads.isEmpty then (s, [])
  else
    let (appended, cursors) := appendReplayTransaction s payloads limits
    ({ appended with pins := (payloads.zip cursors).foldl (retirePin codec) appended.pins }, cursors)

def commitThreadPin (codec : Codec) (s : ReplayStore) (request : ThreadPinRequest)
    (limits : ReplayLimits) : ReplayStore × Nat :=
  let cursor := add64 s.head 1
  let (appended, _) :=
    appendReplayTransaction s [codec.write (request.notification cursor)] limits
  ({ appended with pins := appended.pins.insert request.threadId ⟨request.pinned, cursor⟩ }, cursor)

def importPin (codec : Codec) (acc : Table String ThreadPin × Nat × List Payload) (id : String) :
    Table String ThreadPin × Nat × List Payload :=
  let (pins, cursor, payloads) := acc
  if pins.contains id then acc
  else
    let cursor := add64 cursor 1
    (pins.insert id ⟨true, cursor⟩, cursor,
      payloads ++ [codec.write ((⟨id, true⟩ : ThreadPinRequest).notification cursor)])

def importedPins (codec : Codec) (s : ReplayStore) (threadIds : List String) :
    Table String ThreadPin × Nat × List Payload :=
  threadIds.foldl (importPin codec) (s.pins, s.head, [])

def importThreadPins (codec : Codec) (s : ReplayStore) (threadIds : List String)
    (limits : ReplayLimits) : ReplayStore × Nat :=
  let (pins, cursor, payloads) := importedPins codec s threadIds
  ((appendReplayTransaction { s with pins } payloads limits).1, cursor)

structure ReplayPage where
  headCursor : Nat
  oldestCursor : Option Nat
  retainedEntries : Nat
  retainedBytes : Nat
  snapshotRequired : Bool
  entries : List (Nat × Payload)

/-- A cursor behind the head is replayable only when the retained suffix starts at or
before its successor. -/
def snapshotRequired (s : ReplayStore) : Option Nat → Bool
  | none => true
  | some cursor =>
    decide (cursor > s.head) ||
      (decide (cursor < s.head) &&
        (s.replay.first?.map Prod.fst).all
          (fun oldest => decide (oldest > add64 cursor 1)))

def replayAfter (s : ReplayStore) (cursor : Option Nat) : ReplayPage where
  headCursor := s.head
  oldestCursor := s.replay.first?.map Prod.fst
  retainedEntries := s.replay.size
  retainedBytes := s.bytes
  snapshotRequired := snapshotRequired s cursor
  entries :=
    if snapshotRequired s cursor then []
    else
      let start := add64 (cursor.getD 0) 1
      s.replay.entries.filter (fun e => decide (start ≤ e.1))

end CodeWide.Store
