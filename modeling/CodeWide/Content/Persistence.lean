import CodeWide.Lib.Run
import CodeWide.Lib.Positions
import Mathlib.Algebra.Ring.Nat
import Mathlib.Data.List.Nodup

/-!
# The private content store

`PrivateContentService` and its persistence worker, which goes on from one lock, or one await, to
the next.
-/

namespace CodeWide.Content

open Lib

inductive PersistenceStatus where
  | memoryOnly
  | queued
  | persisted
deriving DecidableEq

inductive ContentRetention where
  | fallback
  | replay
deriving DecidableEq

structure CachedContent where
  id : String
  length : Nat
  lastAccess : Nat
  persistence : PersistenceStatus
  retention : ContentRetention

structure MemoryCache where
  values : List CachedContent
  bytes : Nat
  clock : Nat

structure PersistRequest where
  id : String
  length : Nat
  retention : ContentRetention

inductive PutStage where
  | remembered
  | queued
  | refused

structure Put where
  request : PersistRequest
  stage : PutStage

inductive Written where
  | proven
  | stored
  | failed

inductive WorkerStage where
  | receiving
  | took (request : PersistRequest)
  /-- The retention is chosen, the canonical source is asked. -/
  | proving (request : PersistRequest) (retention : ContentRetention)
  | writing (request : PersistRequest) (retention : ContentRetention)
  | wrote (request : PersistRequest) (retention : ContentRetention) (written : Written)
  | settled (persisted : Bool)
  | pruning (directory : ContentRetention) (candidates : List String) (persisted : Bool)
  /-- A file is gone, the memory cache is still to be cleared of it. -/
  | removing (directory : ContentRetention) (id : String) (candidates : List String)
    (persisted : Bool)

structure System where
  memory : MemoryCache
  puts : List Put
  writes : List PersistRequest
  worker : WorkerStage
  preferPending : Bool
  fallback : List String
  replay : List String
  /-- Bytes that were put and whose file no later prune removed. -/
  promised : List String
  fallbackPuts : List String
  proven : List String
  since : List (String × ContentRetention)

def maxMemoryBytes : Nat := 64 * 1024 * 1024

def maxPendingWrites : Nat := 64

inductive Input where
  | put (id : String) (length : Nat) (retention : ContentRetention)
  | goOn (put : Nat)
  | load (id : String)
  | receive
  | chooseRetention
  | proved (proven : Bool)
  | write (stored ok : Bool)
  | settle
  | beginPrune (directory : ContentRetention)
  | scan (candidates : List String)
  | removeFile (ok : Bool)
  | clearMemory
  | endPrune
  | takeNext

namespace MemoryCache

def find? (cache : MemoryCache) (id : String) : Option CachedContent :=
  cache.values.find? (fun content => content.id == id)

def has (cache : MemoryCache) (id : String) : Bool := (cache.find? id).isSome

def modify (cache : MemoryCache) (id : String) (f : CachedContent → CachedContent) : MemoryCache :=
  { cache with values := cache.values.map (fun content =>
      if content.id = id then f content else content) }

def remove (cache : MemoryCache) (id : String) : MemoryCache :=
  match cache.find? id with
  | none => cache
  | some removed =>
    { cache with
      values := cache.values.filter (fun content => content.id != id)
      bytes := cache.bytes - removed.length }

def oldest (values : List CachedContent) : Option CachedContent :=
  values.foldl (fun (best : Option CachedContent) content =>
    match best with
    | none => some content
    | some best => if content.lastAccess < best.lastAccess then some content else some best) none

def evict (length : Nat) : Nat → MemoryCache → MemoryCache
  | 0, cache => cache
  | fuel + 1, cache =>
    if cache.bytes + length ≤ maxMemoryBytes then cache
    else
      match oldest cache.values with
      | none => cache
      | some content => evict length fuel (cache.remove content.id)

/-- What a second put changes in the value that is there. -/
def touch (clock : Nat) (persistence : PersistenceStatus) (retention : ContentRetention)
    (existing : CachedContent) : CachedContent :=
  { existing with
    lastAccess := clock
    retention := if retention = .fallback then .fallback else existing.retention
    persistence := if persistence = .persisted then .persisted else existing.persistence }

def remember (cache : MemoryCache) (id : String) (length : Nat) (persistence : PersistenceStatus)
    (retention : ContentRetention) : MemoryCache :=
  if maxMemoryBytes < length then cache
  else
    let clock := cache.clock + 1
    let ticked := { cache with clock }
    if ticked.has id then ticked.modify id (touch clock persistence retention)
    else
      let room := ticked.evict length ticked.values.length
      { room with
        values := room.values ++ [⟨id, length, clock, persistence, retention⟩]
        bytes := room.bytes + length }

def queuePersistence (cache : MemoryCache) (id : String) : MemoryCache × Bool :=
  match cache.find? id with
  | none => (cache, true)
  | some content =>
    if content.persistence = .memoryOnly then
      (cache.modify id (fun content => { content with persistence := .queued }), true)
    else (cache, false)

def markPersistence (cache : MemoryCache) (id : String) (status : PersistenceStatus) :
    MemoryCache :=
  cache.modify id (fun content => { content with persistence := status })

def takePendingRequest (cache : MemoryCache) : Option (MemoryCache × PersistRequest) :=
  match oldest (cache.values.filter (fun content => content.persistence == .memoryOnly)) with
  | none => none
  | some content =>
    some (cache.markPersistence content.id .queued, ⟨content.id, content.length, content.retention⟩)

def pendingRetention (cache : MemoryCache) (id : String) : Option ContentRetention :=
  (cache.find? id).map (fun content => content.retention)

def forgetPersisted (cache : MemoryCache) (id : String) : MemoryCache := cache.remove id

def cached (cache : MemoryCache) (id : String) : MemoryCache :=
  let clock := cache.clock + 1
  { cache with clock }.modify id (fun content => { content with lastAccess := clock })

end MemoryCache

namespace System

def files (s : System) : ContentRetention → List String
  | .fallback => s.fallback
  | .replay => s.replay

def withFiles (s : System) (directory : ContentRetention) (files : List String) : System :=
  match directory with
  | .fallback => { s with fallback := files }
  | .replay => { s with replay := files }

def put (s : System) (id : String) (length : Nat) (retention : ContentRetention) : System :=
  { s with
    memory := s.memory.remember id length .memoryOnly retention
    puts := s.puts ++ [⟨⟨id, length, retention⟩, .remembered⟩]
    promised := s.promised ++ [id]
    fallbackPuts := if retention = .fallback then s.fallbackPuts ++ [id] else s.fallbackPuts
    since := s.since ++ [(id, retention)] }

def goOn (s : System) (i : Nat) (put : Put) : System :=
  match put.stage with
  | .remembered =>
    let (memory, send) := s.memory.queuePersistence put.request.id
    let s := { s with memory }
    if send then { s with puts := s.puts.set i { put with stage := .queued } }
    else { s with puts := s.puts.eraseIdx i }
  | .queued =>
    if s.writes.length < maxPendingWrites then
      { s with writes := s.writes ++ [put.request], puts := s.puts.eraseIdx i }
    else { s with puts := s.puts.set i { put with stage := .refused } }
  | .refused =>
    { s with
      memory := s.memory.markPersistence put.request.id .memoryOnly
      puts := s.puts.eraseIdx i }

def write (s : System) (request : PersistRequest) (retention : ContentRetention)
    (stored ok : Bool) : System :=
  let files := if stored || ok then request.id :: s.files retention else s.files retention
  { s.withFiles retention files with
    worker := .wrote request retention (if ok then .stored else .failed) }

def settle (s : System) (request : PersistRequest) (written : Written) : System :=
  match written with
  | .failed =>
    { s with
      memory := s.memory.markPersistence request.id .memoryOnly
      worker := .settled false }
  | _ => { s with memory := s.memory.forgetPersisted request.id, worker := .settled true }

/-- A prune removes a file; bytes that were put before the prune began are given up. -/
def removeFile (s : System) (directory : ContentRetention) (id : String) : System :=
  let kept (ids : List String) : List String := ids.filter (fun other => other != id)
  let later (retention : Option ContentRetention) : Bool :=
    s.since.any (fun put => put.1 == id && (retention.isNone || retention == some put.2))
  { s.withFiles directory (kept (s.files directory)) with
    promised := if later none then s.promised else kept s.promised
    fallbackPuts :=
      if directory = .replay ∨ later (some .fallback) = true then s.fallbackPuts
      else kept s.fallbackPuts }

def received (s : System) : Option (System × PersistRequest) :=
  match s.writes with
  | [] => none
  | request :: rest => some ({ s with writes := rest }, request)

def pending (s : System) : Option (System × PersistRequest) :=
  match s.memory.takePendingRequest with
  | none => none
  | some (memory, request) => some ({ s with memory }, request)

/-- The next request after a write: of the queue or of the memory cache, in turns. -/
def takeNext (s : System) (persisted : Bool) : System :=
  if persisted then
    let ready := if s.preferPending then s.pending.or s.received else s.received.or s.pending
    match ready with
    | some (taken, request) =>
      { taken with worker := .took request, preferPending := !s.preferPending }
    | none => { s with worker := .receiving, preferPending := !s.preferPending }
  else { s with worker := .receiving }

def step (s : System) : Input → System
  | .put id length retention => s.put id length retention
  | .goOn i =>
    match s.puts[i]? with
    | none => s
    | some put => s.goOn i put
  | .load id => { s with memory := s.memory.cached id }
  | .receive =>
    match s.worker, s.writes with
    | .receiving, request :: rest => { s with writes := rest, worker := .took request }
    | _, _ => s
  | .chooseRetention =>
    match s.worker with
    | .took request =>
      let retention := (s.memory.pendingRetention request.id).getD request.retention
      { s with worker := .proving request retention }
    | _ => s
  | .proved proven =>
    match s.worker with
    | .proving request retention =>
      if proven then
        { s with
          proven := s.proven ++ [request.id]
          worker := .wrote request retention .proven }
      else { s with worker := .writing request retention }
    | _ => s
  | .write stored ok =>
    match s.worker with
    | .writing request retention => s.write request retention stored ok
    | _ => s
  | .settle =>
    match s.worker with
    | .wrote request _ written => s.settle request written
    | _ => s
  | .beginPrune directory =>
    match s.worker with
    | .settled persisted => { s with worker := .pruning directory [] persisted, since := [] }
    | _ => s
  | .scan candidates =>
    match s.worker with
    | .pruning directory [] persisted =>
      let found := candidates.filter (fun id => decide (id ∈ s.files directory))
      { s with worker := .pruning directory found persisted }
    | _ => s
  | .removeFile ok =>
    match s.worker with
    | .pruning directory (id :: rest) persisted =>
      if ok then
        { s.removeFile directory id with worker := .removing directory id rest persisted }
      else { s with worker := .pruning directory rest persisted }
    | _ => s
  | .clearMemory =>
    match s.worker with
    | .removing directory id rest persisted =>
      { s with memory := s.memory.remove id, worker := .pruning directory rest persisted }
    | _ => s
  | .endPrune =>
    match s.worker with
    | .pruning _ _ persisted => { s with worker := .settled persisted }
    | _ => s
  | .takeNext =>
    match s.worker with
    | .settled persisted => s.takeNext persisted
    | _ => s

/-- A store that was just opened over some files. -/
def initial (fallback replay : List String) : System where
  memory := ⟨[], 0, 0⟩
  puts := []
  writes := []
  worker := .receiving
  preferPending := false
  fallback
  replay
  promised := []
  fallbackPuts := []
  proven := []
  since := []

end System

def MemoryCache.Holds (cache : MemoryCache) (id : String) : Prop :=
  ∃ content ∈ cache.values, content.id = id

def MemoryCache.HoldsFallback (cache : MemoryCache) (id : String) : Prop :=
  ∃ content ∈ cache.values, content.id = id ∧ content.retention = .fallback

instance (cache : MemoryCache) (id : String) : Decidable (cache.HoldsFallback id) :=
  inferInstanceAs (Decidable (∃ content ∈ cache.values, _))

def WorkerStage.current : WorkerStage → Option String
  | .took request => some request.id
  | .proving request _ => some request.id
  | .writing request _ => some request.id
  | .wrote request _ _ => some request.id
  | _ => none

def WorkerStage.isPruning : WorkerStage → Bool
  | .pruning .. => true
  | .removing .. => true
  | _ => false

namespace System

/-- A load reads the memory cache, the canonical source and the directories. -/
def Loadable (s : System) (id : String) : Prop :=
  s.memory.Holds id ∨ id ∈ s.proven ∨ id ∈ s.fallback ∨ id ∈ s.replay

def OnItsWay (s : System) (id : String) : Prop :=
  (∃ put ∈ s.puts, put.request.id = id ∧ put.stage ≠ .remembered) ∨
    (∃ request ∈ s.writes, request.id = id) ∨ s.worker.current = some id

structure Kept (s : System) : Prop where
  counter : s.memory.bytes = (s.memory.values.map (fun content => content.length)).sum
  loadable : ∀ id ∈ s.promised, s.Loadable id
  /-- Bytes for the fallback store are given up only once they are there. -/
  fallbackPuts : ∀ id ∈ s.fallbackPuts, s.memory.HoldsFallback id ∨ id ∈ s.fallback ∨ id ∈ s.proven
  /-- The worker finds a value in its queue or among those that are only in memory. -/
  waiting : ∀ content ∈ s.memory.values, content.persistence = .memoryOnly ∨ s.OnItsWay content.id

def Fits (s : System) : Input → Prop
  | .put id length _ => length ≤ maxMemoryBytes ∧
      (s.memory.has id = true ∨ s.memory.bytes + length ≤ maxMemoryBytes)
  | _ => True

def Orderly (s : System) : Input → Prop
  | .settle =>
    match s.worker with
    | .wrote request .replay .stored => ¬ s.memory.HoldsFallback request.id
    | _ => True
  | .clearMemory =>
    match s.worker with
    | .removing _ id _ _ => s.memory.has id = false
    | _ => True
  | _ => True

end System

end CodeWide.Content
