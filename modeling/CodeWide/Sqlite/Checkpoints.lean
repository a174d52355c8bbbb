import CodeWide.Lib.Layers
import CodeWide.Lib.Run
import Mathlib.Data.String.Basic

/-!
# The checkpoints of the SQLite sync runtime

A flush puts the pending checkpoint behind those in flight; the first of these runs.
-/

namespace CodeWide.Sqlite

open Lib Table

inductive Change (ρ : Type) where
  | insert (value : ρ)
  | update (value : ρ)
  | delete (key : String)

namespace Change

variable {ρ : Type}

def key (getKey : ρ → String) : Change ρ → String
  | .insert value => getKey value
  | .update value => getKey value
  | .delete key => key

def effect : Change ρ → Option ρ
  | .insert value => some value
  | .update value => some value
  | .delete _ => none

end Change

structure PendingCheckpoint (ρ : Type) where
  changes : Table String (Nat × Change ρ) := ∅
  transactionCount : Nat := 0
  waiters : List Nat := []

inductive Phase where
  | running (attempts : Nat)
  | written
  | failed
deriving DecidableEq

structure Flight (ρ : Type) where
  checkpoint : PendingCheckpoint ρ
  phase : Phase

structure Runtime (ρ : Type) where
  pending : Option (PendingCheckpoint ρ) := none
  /-- The checkpoints behind `checkpointTail`; the first one runs. -/
  inFlight : List (Flight ρ) := []
  checkpointTimer : Bool := false
  prepared : Bool := false
  table : Table String ρ
  commits : List (Table String (Change ρ)) := []
  committed : Table String (Nat × Change ρ) := ∅
  resolved : List Nat := []
  rejected : List Nat := []

inductive Input (ρ : Type) where
  | commit (writes : List (Change ρ)) (durable : Bool)
  | flush
  | timer
  | prepare (ok : Bool)
  | attempt (ok : Bool)
  | react

namespace Runtime

variable {ρ : Type}

def changesOf (getKey : ρ → String) (writes : List (Change ρ)) : Table String (Change ρ) :=
  writes.foldl (fun changes change => changes.insert (change.key getKey) change) ∅

def putChanges (number : Nat) (changes : Table String (Change ρ))
    (pending : Table String (Nat × Change ρ)) : Table String (Nat × Change ρ) :=
  changes.entries.foldl (fun pending e => pending.insert e.1 (number, e.2)) pending

def enqueueCheckpoint (s : Runtime ρ) (number : Nat) (changes : Table String (Change ρ)) :
    Runtime ρ :=
  let pending := s.pending.getD {}
  { s with
    pending := some
      { changes := putChanges number changes pending.changes
        transactionCount := pending.transactionCount + 1
        waiters := pending.waiters ++ [number] }
    checkpointTimer := true }

def flushPendingCheckpoint (s : Runtime ρ) : Runtime ρ :=
  match s.pending with
  | none => { s with checkpointTimer := false }
  | some checkpoint =>
    { s with
      pending := none
      checkpointTimer := false
      inFlight := s.inFlight ++ [⟨checkpoint, .running 0⟩] }

def commit (s : Runtime ρ) (changes : Table String (Change ρ)) (durable : Bool) : Runtime ρ :=
  let number := s.commits.length
  let noted :=
    { s with
      commits := s.commits ++ [changes]
      committed := putChanges number changes s.committed }
  if changes.size = 0 then if s.pending.isNone then noted else noted.flushPendingCheckpoint
  else if durable then (noted.enqueueCheckpoint number changes).flushPendingCheckpoint
  else noted.enqueueCheckpoint number changes

def writeChanges (changes : Table String (Nat × Change ρ)) (table : Table String ρ) :
    Table String ρ :=
  changes.entries.foldl (fun table e =>
    match e.2.2.effect with
    | some row => table.insert e.1 row
    | none => table.erase e.1) table

def putMissing (failed pending : Table String (Nat × Change ρ)) : Table String (Nat × Change ρ) :=
  failed.entries.foldl (fun pending e =>
    if pending.contains e.1 then pending else pending.insert e.1 e.2) pending

def attempt (maxAttempts : Nat) (s : Runtime ρ) (ok : Bool) : Runtime ρ :=
  match s.inFlight with
  | ⟨checkpoint, .running attempts⟩ :: rest =>
    if s.prepared = false then s
    else if ok then
      { s with
        inFlight := ⟨checkpoint, .written⟩ :: rest
        table := writeChanges checkpoint.changes s.table }
    else if maxAttempts ≤ attempts + 1 then { s with inFlight := ⟨checkpoint, .failed⟩ :: rest }
    else { s with inFlight := ⟨checkpoint, .running (attempts + 1)⟩ :: rest }
  | _ => s

def prepare (s : Runtime ρ) (ok : Bool) : Runtime ρ :=
  match s.inFlight with
  | ⟨checkpoint, .running _⟩ :: rest =>
    if s.prepared then s
    else if ok then { s with prepared := true }
    else { s with inFlight := ⟨checkpoint, .failed⟩ :: rest }
  | _ => s

def requeue (s : Runtime ρ) (checkpoint : PendingCheckpoint ρ) : Option (PendingCheckpoint ρ) :=
  let pending := s.pending.getD {}
  some
    { pending with
      changes := putMissing checkpoint.changes pending.changes
      transactionCount := pending.transactionCount + checkpoint.transactionCount }

def react (s : Runtime ρ) : Runtime ρ :=
  match s.inFlight with
  | ⟨checkpoint, .written⟩ :: rest =>
    { s with inFlight := rest, resolved := s.resolved ++ checkpoint.waiters }
  | ⟨checkpoint, .failed⟩ :: rest =>
    { s with
      pending := s.requeue checkpoint
      inFlight := rest
      rejected := s.rejected ++ checkpoint.waiters }
  | _ => s

def step (getKey : ρ → String) (maxAttempts : Nat) (s : Runtime ρ) : Input ρ → Runtime ρ
  | .commit writes durable => s.commit (changesOf getKey writes) durable
  | .flush => s.flushPendingCheckpoint
  | .timer => if s.checkpointTimer then s.flushPendingCheckpoint else s
  | .prepare ok => s.prepare ok
  | .attempt ok => s.attempt maxAttempts ok
  | .react => s.react

def layers (s : Runtime ρ) : List (Table String (Nat × Change ρ)) :=
  s.inFlight.map (·.checkpoint.changes) ++ s.pending.toList.map (·.changes)

lemma get?_putChanges (number : Nat) (changes : Table String (Change ρ))
    (pending : Table String (Nat × Change ρ)) (k : String) :
    (putChanges number changes pending).get? k =
      ((changes.get? k).map (number, ·)).or (pending.get? k) := by
  rw [putChanges, @get?_foldl_entries _ _ _ _ _ (fun change _ => some (number, change))]
  · cases changes.get? k <;> rfl
  · intro t e k
    exact get?_insert t e.1 k _

lemma get?_writeChanges (changes : Table String (Nat × Change ρ)) (table : Table String ρ)
    (k : String) :
    (writeChanges changes table).get? k =
      (changes.get? k).elim (table.get? k) (fun change => change.2.effect) := by
  rw [writeChanges, @get?_foldl_entries _ _ _ _ _ (fun change _ => change.2.effect)]
  intro t e k
  split
  · rename_i row hrow
    rw [get?_insert, hrow]
  · rename_i hnone
    rw [get?_erase, hnone]

lemma get?_putMissing (failed pending : Table String (Nat × Change ρ)) (k : String) :
    (putMissing failed pending).get? k = (pending.get? k).or (failed.get? k) := by
  rw [putMissing, @get?_foldl_entries _ _ _ _ _ (fun change old => old.or (some change))]
  · cases failed.get? k <;> simp
  intro t e k
  split
  · rename_i hcont
    split
    · rename_i heq
      subst heq
      obtain ⟨v, hv⟩ := contains_iff.mp hcont
      rw [hv]
      rfl
    · rfl
  rename_i hcont
  rw [get?_insert]
  split
  · rename_i heq
    subst heq
    have hnone : t.get? e.1 = none := by
      cases h : t.get? e.1 with
      | none => rfl
      | some v => exact absurd (contains_iff.mpr ⟨v, h⟩) hcont
    rw [hnone]
    rfl
  · rfl

end Runtime

end CodeWide.Sqlite
