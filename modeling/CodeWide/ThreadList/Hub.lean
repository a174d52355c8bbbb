import CodeWide.ThreadList.Invariant

/-!
# The row hub

`thread_list/mod.rs` with `subscriber.rs`: the shared hub that applies journaled events to the row
store and buffers those of a thread whose first row is being read.
-/

namespace CodeWide.ThreadList

open Lib

def maxMaterializing : Nat := 64
def maxBufferedEvents : Nat := 64
def maxRowsPerFrame : Nat := 100
def coalesceInterval : Nat := 1500
def interestFlushInterval : Nat := 250

/-- One socket's subscription: visibility, dirty rows in marking order, flush timing. -/
structure Subscriber where
  visible : Bool
  dirty : List String
  urgent : Bool
  lastFlush : Option Nat

namespace Subscriber

def new (visible : Bool) : Subscriber := ⟨visible, [], false, none⟩

/-- Applies a `listStream` frame. Hiding drops the dirty rows. -/
def setVisible (s : Subscriber) (visible : Bool) : Subscriber :=
  if visible then { s with visible } else { s with visible, dirty := [], urgent := false }

def mark (s : Subscriber) (threadId : String) (flushClass : FlushClass) : Subscriber :=
  if !s.visible then s
  else
    { s with
      dirty := if decide (threadId ∈ s.dirty) then s.dirty else s.dirty ++ [threadId]
      urgent := s.urgent || decide (flushClass = .urgent) }

def poll (s : Subscriber) (now : Nat) (inInterest : String → Bool) : Subscriber × List String :=
  let since (interval : Nat) := s.lastFlush.elim now (fun last => last + interval)
  let due := since coalesceInterval
  let due := if !s.urgent && s.dirty.any inInterest then min due (since interestFlushInterval)
    else due
  if s.dirty.isEmpty then (s, [])
  else if s.urgent || decide (due ≤ now) then
    ({ s with urgent := false, lastFlush := some now, dirty := [] }, s.dirty)
  else (s, [])

end Subscriber

structure Materializing where
  events : List RowEvent
  overflowed : Bool
deriving DecidableEq

structure Hub where
  store : RowStore
  subscribers : Table Nat Subscriber
  nextSubscriber : Nat
  /-- Threads whose first row is being read, with the events since. -/
  materializing : Table String Materializing
  /-- Threads not to read again until a page or `thread/started` names them. -/
  ignored : List String

structure Frame where
  rows : List Json
  removed : List Json

abbrev Marks := List (String × FlushClass)

namespace Hub

def empty : Hub := ⟨RowStore.empty, ∅, 0, ∅, []⟩

def ignore (h : Hub) (threadId : String) : Hub :=
  let ignored := if h.ignored.length ≥ maxTrackedRows then [] else h.ignored
  { h with ignored := if decide (threadId ∈ ignored) then ignored else threadId :: ignored }

def unignore (h : Hub) (threadId : String) : Hub :=
  { h with ignored := h.ignored.filter (fun id => decide (id ≠ threadId)) }

def markDirty (h : Hub) (dirty : Marks) : Hub :=
  { h with
    subscribers := h.subscribers.entries.foldl (fun t e =>
      t.insert e.1 (dirty.foldl (fun s d => s.mark d.1 d.2) e.2)) h.subscribers }

/-- An event of a thread whose first row is being read waits for it. -/
def buffer (pending : Materializing) (event : RowEvent) : Materializing :=
  if pending.events.length < maxBufferedEvents then
    { pending with events := pending.events ++ [event] }
  else { pending with overflowed := true }

def applyEvent (h : Hub) (event : RowEvent) (nowSecs : Int) : Hub × Option String × Marks :=
  match h.materializing.get? event.threadId with
  | some pending =>
    ({ h with materializing := h.materializing.insert event.threadId (buffer pending event) },
      none, [])
  | none =>
    let (store, applied) := h.store.apply event nowSecs
    let h := { h with store }
    match applied with
    | .unchanged => (h, none, [])
    | .dirty flushClass =>
      let h := if event.isExclusion then h.ignore event.threadId else h.unignore event.threadId
      -- A tombstone always streams; a row only when listed.
      if !store.contains event.threadId || store.streamable event.threadId then
        (h, none, [(event.threadId, flushClass)])
      else (h, none, [])
    | .unknown =>
      if decide (event.threadId ∈ h.ignored) || decide (h.materializing.size ≥ maxMaterializing) then
        (h, none, [])
      else
        ({ h with materializing := h.materializing.insert event.threadId ⟨[event], false⟩ },
          some event.threadId, [])

def applyEvents (h : Hub) (events : List RowEvent) (nowSecs : Int) : Hub × List String × Marks :=
  match events with
  | [] => (h, [], [])
  | event :: rest =>
    let (h, read, marks) := h.applyEvent event nowSecs
    let (h, reads, later) := h.applyEvents rest nowSecs
    (h, read.toList ++ reads, marks ++ later)

structure JournaledRow where
  payload : Json
  cursor : Nat
  streamedPreview : Option String
  seed : Option Seed

def JournaledRow.event? (entry : JournaledRow) : Option RowEvent :=
  RowEvent.parse entry.payload entry.cursor entry.streamedPreview entry.seed

/-- Reduces one committed ingest batch onto the rows; returns the rows to read. -/
def applyJournaled (h : Hub) (entries : List JournaledRow) (nowSecs : Int) : Hub × List String :=
  let (h, reads, marks) := h.applyEvents (entries.filterMap JournaledRow.event?) nowSecs
  (h.markDirty marks, reads)

def observePage (h : Hub) (rows : List Json) (head : Nat) (archived : Bool) : Hub × List Json :=
  let h := (rows.filterMap threadIdOf).foldl unignore h
  let (store, answers) := h.store.observePage rows head archived
  ({ h with store }, answers)

abbrev RowRead := Except String (Option Json)

def settleRead (h : Hub) (threadId : String) (pending : Materializing) (head : Nat) (read : RowRead)
    (nowSecs : Int) : Hub × Marks × Bool :=
  let h := { h with materializing := h.materializing.erase threadId }
  match read with
  | .ok (some row) =>
    let (store, flushClass) := h.store.seed threadId row head pending.events nowSecs
    let h := { h with store }
    let marks := if store.streamable threadId then [(threadId, flushClass)] else []
    if pending.overflowed then
      ({ h with materializing := h.materializing.insert threadId ⟨[], false⟩ }, marks, true)
    else (h, marks, false)
  | .ok none => (h.ignore threadId, [], false)
  | .error _ => (h.ignore threadId, [], false)

/-- Completes the read of a thread's first row taken after journal head `head`. -/
def completeMaterialization (h : Hub) (threadId : String) (head : Nat) (read : RowRead)
    (nowSecs : Int) : Hub × Bool :=
  match h.materializing.get? threadId with
  | none => (h, false)
  | some pending =>
    let (h, marks, again) := h.settleRead threadId pending head read nowSecs
    (h.markDirty marks, again)

def subscribe (h : Hub) (visible : Bool) : Hub × Nat :=
  ({ h with
      nextSubscriber := h.nextSubscriber + 1
      subscribers := h.subscribers.insert h.nextSubscriber (Subscriber.new visible) },
    h.nextSubscriber)

def unsubscribe (h : Hub) (id : Nat) : Hub := { h with subscribers := h.subscribers.erase id }

def setVisible (h : Hub) (id : Nat) (visible : Bool) : Hub :=
  match h.subscribers.get? id with
  | some s => { h with subscribers := h.subscribers.insert id (s.setVisible visible) }
  | none => h

def tombstoneWire (threadId : String) (cursor : Nat) : Json :=
  .obj [("cursor", .int cursor), ("threadId", .str threadId)]

/-- Adds one thread to the frame being filled; one with neither row nor tombstone is skipped. -/
def addToFrame (store : RowStore) (acc : List Frame × Frame) (threadId : String) :
    List Frame × Frame :=
  let (frames, open_) := acc
  let filled : Option Frame :=
    match store.wireRow threadId with
    | some row => some { open_ with rows := open_.rows ++ [row] }
    | none =>
      (store.tombstones.get? threadId).map (fun cursor =>
        { open_ with removed := open_.removed ++ [tombstoneWire threadId cursor] })
  match filled with
  | none => acc
  | some filled =>
    if filled.rows.length + filled.removed.length = maxRowsPerFrame then
      (frames ++ [filled], ⟨[], []⟩)
    else (frames, filled)

def frames (h : Hub) (threadIds : List String) : List Frame :=
  let (closed, open_) := threadIds.foldl (addToFrame h.store) ([], ⟨[], []⟩)
  if open_.rows.isEmpty && open_.removed.isEmpty then closed else closed ++ [open_]

def poll (h : Hub) (id : Nat) (now : Nat) (inInterest : String → Bool) : Hub × List Frame :=
  match h.subscribers.get? id with
  | none => (h, [])
  | some s =>
    let (s, threadIds) := s.poll now inInterest
    let h := { h with subscribers := h.subscribers.insert id s }
    (h, h.frames threadIds)

end Hub

end CodeWide.ThreadList
