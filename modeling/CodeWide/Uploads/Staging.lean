import CodeWide.Lib.Run
import CodeWide.Lib.Table

/-!
# Workspace upload staging

A durable record for each staged path, leases in memory, and the cancellation channels.
-/

namespace CodeWide.Uploads

open Lib

structure UploadLimits where
  ownerCount : Nat
  ownerBytes : Nat
  globalCount : Nat
  globalBytes : Nat

def UploadLimits.standard : UploadLimits :=
  { ownerCount := 32, ownerBytes := 4 * 1024 * 1024 * 1024, globalCount := 256,
    globalBytes := 32 * 1024 * 1024 * 1024 }

def retentionMs : Nat := 72 * 60 * 60 * 1000

structure UploadRecord where
  owner : String
  rootId : String
  path : String
  uploadId : String
  sha256 : String
  totalBytes : Nat
  expiresAt : Nat
  active : Bool
  reservation : Nat
deriving DecidableEq

/-- A cancellation channel: a sender, until it is forgotten, and its receivers. -/
structure Channel where
  id : Nat
  reservation : Nat

inductive LeasePhase where
  | claimed
  | forgetting
  | finished
deriving DecidableEq

structure Lease (κ : Type) where
  id : Nat
  key : κ
  totalBytes : Nat
  channel : Nat
  reservation : Nat
  phase : LeasePhase
deriving DecidableEq

structure Abort (κ : Type) where
  lease : Nat
  key : κ
  reservation : Nat

inductive Task (κ : Type) where
  | abort (a : Abort κ)
  | cancel (key : κ) (owner uploadId : String)
  | sweep (keys : List κ)
  | forget (key : κ) (rest : List κ)

structure Staging (κ : Type) [LinearOrder κ] where
  records : Table κ UploadRecord
  cancellations : Table κ Channel
  signalled : List Nat
  leases : List (Lease κ)
  aborts : List (Abort κ)
  admission : Option (Task κ)
  nextLease : Nat
  nextReservation : Nat
  nextChannel : Nat

variable {κ : Type} [LinearOrder κ]

def initial : Staging κ :=
  { records := ∅, cancellations := ∅, signalled := [], leases := [], aborts := [],
    admission := none, nextLease := 0, nextReservation := 0, nextChannel := 0 }

def checkedAdd (a b : Nat) : Option Nat := if a + b < 2 ^ 64 then some (a + b) else none

structure Usage where
  ownerCount : Nat
  ownerBytes : Nat
  globalCount : Nat
  globalBytes : Nat

def addUsage (owner : String) (usage : Usage) (record : UploadRecord) : Option Usage := do
  let globalCount ← checkedAdd usage.globalCount 1
  let globalBytes ← checkedAdd usage.globalBytes record.totalBytes
  if record.owner = owner then
    let ownerCount ← checkedAdd usage.ownerCount 1
    let ownerBytes ← checkedAdd usage.ownerBytes record.totalBytes
    some { ownerCount, ownerBytes, globalCount, globalBytes }
  else
    some { usage with globalCount := globalCount, globalBytes := globalBytes }

def enforceQuota (records : Table κ UploadRecord) (owner : String) (candidateBytes : Nat)
    (limits : UploadLimits) : Bool :=
  let first : Usage :=
    { ownerCount := 1, ownerBytes := candidateBytes, globalCount := 1,
      globalBytes := candidateBytes }
  match records.entries.foldlM (fun usage entry => addUsage owner usage entry.2) first with
  | some usage =>
    decide (usage.ownerCount ≤ limits.ownerCount) && decide (usage.ownerBytes ≤ limits.ownerBytes) &&
      decide (usage.globalCount ≤ limits.globalCount) &&
      decide (usage.globalBytes ≤ limits.globalBytes)
  | none => false

structure Descriptor where
  rootId : String
  path : String
  uploadId : String
  sha256 : String
  totalBytes : Nat

inductive Operation where
  | claim (owner : String) (descriptor : Descriptor) (now : Nat)
  | finish (lease : Nat) (completed : Bool)
  /-- The second half of a completed `finish`: the channel. -/
  | finishForget (lease : Nat)
  | drop (lease : Nat)
  | abort (lease : Nat)
  | abortEnter (lease : Nat)
  | cancel (owner rootId path uploadId : String)
  | purgeOwner (owner : String)
  | garbageCollect (now : Nat)
  | purgeAll
  | proceed
  | abandonAbort (lease : Nat)
  | abandon
  | restart

inductive ClaimError where
  | forbidden
  | conflict
  | quotaExceeded

variable (uploadKey : String → String → κ) (limits : UploadLimits)

def Staging.admit (s : Staging κ) (owner : String) (d : Descriptor) (now : Nat) :
    Except ClaimError UploadRecord :=
  match s.records.get? (uploadKey d.rootId d.path) with
  | some existing =>
    if existing.owner ≠ owner then .error .forbidden
    else if existing.rootId ≠ d.rootId ∨ existing.path ≠ d.path ∨ existing.uploadId ≠ d.uploadId ∨
        existing.sha256 ≠ d.sha256 ∨ existing.totalBytes ≠ d.totalBytes ∨
        existing.expiresAt ≤ now then
      .error .conflict
    else if existing.active then .error .conflict
    else .ok { existing with active := true }
  | none =>
    if enforceQuota s.records owner d.totalBytes limits then
      let rootId := d.rootId
      let path := d.path
      let uploadId := d.uploadId
      let sha256 := d.sha256
      let totalBytes := d.totalBytes
      let expiresAt := min (now + retentionMs) (2 ^ 64 - 1)
      let active := true
      let reservation := s.nextReservation
      .ok { owner, rootId, path, uploadId, sha256, totalBytes, expiresAt, active, reservation }
    else .error .quotaExceeded

def Staging.channelOf (s : Staging κ) (key : κ) (reservation : Nat) : Channel :=
  match s.cancellations.get? key with
  | some channel => channel
  | none => { id := s.nextChannel, reservation }

def Staging.claim (s : Staging κ) (owner : String) (d : Descriptor) (now : Nat) : Staging κ :=
  if s.admission.isSome then s
  else
    match s.admit uploadKey limits owner d now with
    | .error _ => s
    | .ok record =>
      let key := uploadKey d.rootId d.path
      let channel := s.channelOf key record.reservation
      let lease : Lease κ :=
        { id := s.nextLease, key, totalBytes := d.totalBytes, channel := channel.id,
          reservation := record.reservation, phase := .claimed }
      { s with
        records := s.records.insert key record
        cancellations := s.cancellations.insert key channel
        leases := s.leases ++ [lease]
        nextLease := s.nextLease + 1
        nextReservation := s.nextReservation + 1
        nextChannel := s.nextChannel + 1 }

def Staging.lease? (s : Staging κ) (id : Nat) : Option (Lease κ) :=
  s.leases.find? (fun lease => decide (lease.id = id))

def Staging.setPhase (s : Staging κ) (id : Nat) (phase : LeasePhase) : Staging κ :=
  { s with
    leases := s.leases.map (fun lease => if lease.id = id then { lease with phase := phase } else lease) }

def Staging.releaseLease (s : Staging κ) (id : Nat) : Staging κ :=
  { s with leases := s.leases.filter (fun lease => decide (lease.id ≠ id)) }

def Staging.resetActive (s : Staging κ) (key : κ) : Staging κ :=
  match s.records.get? key with
  | some record => { s with records := s.records.insert key { record with active := false } }
  | none => s

/-- `sender.send(true)`: nothing is sent without a receiver, and leases are the receivers. -/
def Staging.signal (s : Staging κ) (key : κ) : Staging κ :=
  match s.cancellations.get? key with
  | some channel =>
    if s.leases.any (fun lease => decide (lease.channel = channel.id)) then
      { s with signalled := channel.id :: s.signalled }
    else s
  | none => s

def Staging.forget (s : Staging κ) (key : κ) : Staging κ :=
  { s with cancellations := s.cancellations.erase key }

def Staging.removeRecord (s : Staging κ) (key : κ) : Staging κ :=
  { s with records := s.records.erase key }

def Staging.finish (s : Staging κ) (id : Nat) (completed : Bool) : Staging κ :=
  match s.lease? id with
  | some lease =>
    if lease.phase ≠ .claimed then s
    else if completed then (s.removeRecord lease.key).setPhase id .forgetting
    else (s.resetActive lease.key).setPhase id .finished
  | none => s

def Staging.finishForget (s : Staging κ) (id : Nat) : Staging κ :=
  match s.lease? id with
  | some lease =>
    if lease.phase = .forgetting then (s.forget lease.key).setPhase id .finished else s
  | none => s

def Staging.dropLease (s : Staging κ) (id : Nat) : Staging κ :=
  match s.lease? id with
  | some lease => if lease.phase = .forgetting then s else (s.resetActive lease.key).releaseLease id
  | none => s

def Staging.abort (s : Staging κ) (id : Nat) : Staging κ :=
  match s.lease? id with
  | some lease =>
    if lease.phase ≠ .claimed then s
    else
      let released := ((s.signal lease.key).resetActive lease.key).releaseLease id
      let waiting : Abort κ := ⟨id, lease.key, lease.reservation⟩
      { released with aborts := s.aborts ++ [waiting] }
  | none => s

def Staging.abortEnter (s : Staging κ) (id : Nat) : Staging κ :=
  match s.admission, s.aborts.find? (fun a => decide (a.lease = id)) with
  | none, some a =>
    { s with
      aborts := s.aborts.filter (fun a => decide (a.lease ≠ id))
      admission := some (.abort a) }
  | _, _ => s

def Staging.cancel (s : Staging κ) (owner rootId path uploadId : String) : Staging κ :=
  if s.admission.isSome then s
  else
    let key := uploadKey rootId path
    match s.records.get? key with
    | some record =>
      if record.owner ≠ owner ∨ record.uploadId ≠ uploadId then s
      else { s.signal key with admission := some (.cancel key owner uploadId) }
    | none => s

def Staging.sweep (s : Staging κ) (p : UploadRecord → Bool) : Staging κ :=
  if s.admission.isSome then s
  else
    let keys := (s.records.entries.filter (fun entry => p entry.2)).map Prod.fst
    { keys.foldl Staging.signal s with admission := some (.sweep keys) }

def afterForget (rest : List κ) : Option (Task κ) :=
  if rest = [] then none else some (.sweep rest)

/-- One more step of the holder of the admission lock, once no lease lives. -/
def Staging.proceed (s : Staging κ) : Staging κ :=
  if s.leases ≠ [] then s
  else
    match s.admission with
    | none => s
    | some (.abort a) => { s.removeRecord a.key with admission := some (.forget a.key []) }
    | some (.cancel key owner uploadId) =>
      match s.records.get? key with
      | some record =>
        if record.owner ≠ owner ∨ record.uploadId ≠ uploadId then { s with admission := none }
        else { s.removeRecord key with admission := some (.forget key []) }
      | none => { s with admission := none }
    | some (.sweep []) => { s with admission := none }
    | some (.sweep (key :: rest)) =>
      { s.removeRecord key with admission := some (.forget key rest) }
    | some (.forget key rest) => { s.forget key with admission := afterForget rest }

def openChannels (next : Nat) : List (κ × UploadRecord) → Table κ Channel
  | [] => ∅
  | (key, record) :: rest =>
    (openChannels (next + 1) rest).insert key { id := next, reservation := record.reservation }

def Staging.restart (s : Staging κ) : Staging κ :=
  { s with
    records := s.records.entries.foldl
      (fun records entry => records.insert entry.1 { entry.2 with active := false }) s.records
    cancellations := openChannels s.nextChannel s.records.entries
    leases := []
    aborts := []
    admission := none
    nextChannel := s.nextChannel + s.records.entries.length }

def Staging.step (s : Staging κ) : Operation → Staging κ
  | .claim owner descriptor now => s.claim uploadKey limits owner descriptor now
  | .finish lease completed => s.finish lease completed
  | .finishForget lease => s.finishForget lease
  | .drop lease => s.dropLease lease
  | .abort lease => s.abort lease
  | .abortEnter lease => s.abortEnter lease
  | .cancel owner rootId path uploadId => s.cancel uploadKey owner rootId path uploadId
  | .purgeOwner owner => s.sweep (fun record => decide (record.owner = owner))
  | .garbageCollect now => s.sweep (fun record => decide (record.expiresAt ≤ now))
  | .purgeAll => s.sweep (fun _ => true)
  | .proceed => s.proceed
  | .abandonAbort lease => { s with aborts := s.aborts.filter (fun a => decide (a.lease ≠ lease)) }
  | .abandon => { s with admission := none }
  | .restart => s.restart

def Staging.run (s : Staging κ) (operations : List Operation) : Staging κ :=
  exec (Staging.step uploadKey limits) s operations

/-- The request of a lease finds its upload cancelled: its channel says so, or has no sender. -/
def Staging.cancelled (s : Staging κ) (lease : Lease κ) : Bool :=
  decide (lease.channel ∈ s.signalled) ||
    !(s.cancellations.get? lease.key).any (fun channel => decide (channel.id = lease.channel))

end CodeWide.Uploads
