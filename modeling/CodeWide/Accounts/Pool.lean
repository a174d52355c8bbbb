import CodeWide.Lib.Saturating
import Mathlib.Data.List.Basic
import Mathlib.Data.List.Sort
import Mathlib.Order.Nat

/-!
# The account pool

`account_pool.rs`: the profiles, the active one, and the operations that hold the switch lock.
-/

namespace CodeWide.Accounts

open Lib.Saturating

variable {Limits : Type}

inductive BlockingState where
  | available
  | until (reset : Int)
  | indefinite
  deriving DecidableEq

structure LimitRules (Limits : Type) where
  normalize : Limits → Limits
  blocking : Limits → BlockingState
  merge : Option Limits → Limits → Limits

structure AccountProfile (Limits : Type) where
  id : String
  email : Option String := none
  planType : Option String := none
  priority : Nat
  enabled : Bool := true
  active : Bool
  exhaustedUntil : Option Int := none
  exhaustedIndefinitely : Bool := false
  rateLimits : Option Limits := none
  rateLimitsUpdatedAt : Option Int := none
  rateLimitsError : Option String := none
  lastUsedAt : Option Int := none
  deriving DecidableEq

structure PersistedAccountPool (Limits : Type) where
  activeProfileId : Option String := none
  profiles : List (AccountProfile Limits) := []
  deriving DecidableEq

structure RuntimeState (Limits : Type) where
  persisted : PersistedAccountPool Limits := {}
  accountEpoch : Nat := 0

inductive AccountPoolError where
  | invalidRequest (message : String)
  | storage
  | upstream
  | exhausted

/-- The pool in memory and in `state.json`, and how often the active profile has changed. -/
structure World (Limits : Type) where
  state : RuntimeState Limits := {}
  disk : Option (PersistedAccountPool Limits) := none
  activeChanges : Nat := 0

abbrev Result (Limits α : Type) := World Limits × Except AccountPoolError α

def Result.andThen {α β : Type} (r : Result Limits α)
    (f : α → World Limits → Result Limits β) : Result Limits β :=
  match r.2 with
  | .ok a => f a r.1
  | .error e => (r.1, .error e)

namespace AccountProfile

def eligibleAt (p : AccountProfile Limits) (now : Int) : Bool :=
  p.enabled && !p.exhaustedIndefinitely && p.exhaustedUntil.all fun reset => decide (reset ≤ now)

structure AccountResult where
  email : Option String := none
  planType : Option String := none

def applyObservation (rules : LimitRules Limits) (p : AccountProfile Limits)
    (result : AccountResult) (rateSnapshot : Option Limits) (authoritative : Bool)
    (observedAt : Int) : AccountProfile Limits × Option BlockingState :=
  let p := { p with email := result.email.or p.email, planType := result.planType.or p.planType }
  match rateSnapshot with
  | none => (p, none)
  | some snapshot =>
    let normalized := rules.normalize snapshot
    let blocking := rules.blocking normalized
    let p := { p with
      rateLimits := some normalized
      rateLimitsUpdatedAt := some observedAt
      rateLimitsError := none }
    match blocking with
    | .until reset =>
      ({ p with exhaustedUntil := some reset, exhaustedIndefinitely := false }, some blocking)
    | .indefinite =>
      ({ p with exhaustedUntil := none, exhaustedIndefinitely := true }, some blocking)
    | .available =>
      if authoritative then
        ({ p with exhaustedUntil := none, exhaustedIndefinitely := false }, some blocking)
      else (p, some blocking)

def refreshFailed (p : AccountProfile Limits) (error : String) : AccountProfile Limits :=
  { p with rateLimitsError := some (String.ofList (error.toList.take 500)) }

end AccountProfile

open AccountProfile (AccountResult)

def modifyProfile (id : String) (f : AccountProfile Limits → AccountProfile Limits) :
    List (AccountProfile Limits) → List (AccountProfile Limits)
  | [] => []
  | p :: rest => if p.id = id then f p :: rest else p :: modifyProfile id f rest

def pushNew (profiles : List (AccountProfile Limits)) (p : AccountProfile Limits) :
    List (AccountProfile Limits) :=
  if p.id ∈ profiles.map AccountProfile.id then profiles else profiles ++ [p]

def normalizePriorities (profiles : List (AccountProfile Limits)) : List (AccountProfile Limits) :=
  (profiles.insertionSort fun p q => p.priority ≤ q.priority).mapIdx fun i p =>
    { p with priority := min i max32 }

def find (pool : PersistedAccountPool Limits) (id : String) : Option (AccountProfile Limits) :=
  pool.profiles.find? fun p => decide (p.id = id)

def setActiveProfile (s : RuntimeState Limits) (id : String) : RuntimeState Limits :=
  { persisted :=
      { activeProfileId := some id
        profiles := s.persisted.profiles.map fun p => { p with active := decide (p.id = id) } }
    accountEpoch :=
      if s.persisted.activeProfileId = some id then s.accountEpoch
      else (s.accountEpoch + 1) % 2 ^ 64 }

def minByPriority : List (AccountProfile Limits) → Option (AccountProfile Limits)
  | [] => none
  | p :: rest =>
    match minByPriority rest with
    | none => some p
    | some q => if p.priority ≤ q.priority then some p else some q

def selectProfile (pool : PersistedAccountPool Limits) (now : Int) : Option String :=
  let fallback := (minByPriority (pool.profiles.filter fun p => p.eligibleAt now)).map
    AccountProfile.id
  match pool.activeProfileId.bind (find pool) with
  | none => fallback
  | some active =>
    if active.eligibleAt now then
      let resetPrimary := minByPriority <| pool.profiles.filter fun p =>
        decide (p.priority < active.priority) && (p.enabled && !p.exhaustedIndefinitely) &&
          p.exhaustedUntil.any fun reset => decide (reset ≤ now)
      some ((resetPrimary.map AccountProfile.id).getD active.id)
    else fallback

def selectProfileAfterRefresh (pool : PersistedAccountPool Limits) (now : Int)
    (recoveredProfileId : Option String) : Option String :=
  let recovered := recoveredProfileId.bind fun id =>
    pool.profiles.find? fun p => decide (p.id = id) && p.eligibleAt now
  match pool.activeProfileId.bind (find pool), recovered with
  | some active, some recovered =>
    if active.eligibleAt now = true ∧ recovered.priority < active.priority then some recovered.id
    else selectProfile pool now
  | _, _ => selectProfile pool now

namespace World

def put (w : World Limits) (s : RuntimeState Limits) : World Limits :=
  { w with
    state := s
    activeChanges :=
      if s.persisted.activeProfileId = w.state.persisted.activeProfileId then w.activeChanges
      else w.activeChanges + 1 }

/-- `persist` of the pool in memory; the file is replaced as a whole or not at all. -/
def persist (w : World Limits) (written : Bool) : Result Limits Unit :=
  if written then ({ w with disk := some w.state.persisted }, .ok ()) else (w, .error .storage)

end World

inductive LiveAuth where
  | missing
  | unreadable
  | malformed
  | profile (id : String)

structure Capture where
  auth : LiveAuth
  credentialsWritten : Bool
  now : Int

/-- The pool once credentials of a profile are found in use. -/
def capturedState (s : RuntimeState Limits) (id : String) (now : Int) :
    RuntimeState Limits :=
  let profiles := pushNew s.persisted.profiles
    { id := id, priority := min s.persisted.profiles.length max32, active := true,
      lastUsedAt := some now }
  let s' := setActiveProfile { s with persisted := { s.persisted with profiles := profiles } } id
  if s.persisted.profiles.isEmpty then
    { s' with persisted := { s'.persisted with profiles := normalizePriorities s'.persisted.profiles } }
  else s'

/-- `capture_current_credentials_unpublished_locked`; whether the pool changed. -/
def captureUnpublished [DecidableEq Limits] (a : Capture) (w : World Limits) : Result Limits Bool :=
  match a.auth with
  | .missing => (w, .ok false)
  | .unreadable => (w, .error .storage)
  | .malformed => (w, .error .storage)
  | .profile id =>
    if a.credentialsWritten then
      let s := capturedState w.state id a.now
      (w.put s, .ok (decide (s.persisted ≠ w.state.persisted)))
    else (w, .error .storage)

def captureLocked [DecidableEq Limits] (a : Capture) (written : Bool) (w : World Limits) :
    Result Limits Unit :=
  (captureUnpublished a w).andThen fun changed w =>
    if changed then w.persist written else (w, .ok ())

structure Activation (Limits : Type) where
  credentialsRead : Bool
  authRead : Bool
  loggedIn : Bool
  authWritten : Bool
  observation : Except String (AccountResult × Limits)
  observedAt : Int
  usedAt : Int
  written : Bool

def activatedState (rules : LimitRules Limits) (s : RuntimeState Limits) (id : String)
    (a : Activation Limits) : RuntimeState Limits :=
  let s := setActiveProfile s id
  let profiles := modifyProfile id (fun p =>
    let p := { p with
      lastUsedAt := some a.usedAt
      exhaustedUntil := none
      exhaustedIndefinitely := false }
    match a.observation with
    | .ok (result, rateSnapshot) =>
      (p.applyObservation rules result (some rateSnapshot) true a.observedAt).1
    | .error e => p.refreshFailed e) s.persisted.profiles
  { s with persisted := { s.persisted with profiles := profiles } }

/-- `activate_profile_locked`. A failed write of `auth.json` logs the previous credentials in again.
-/
def activateLocked (rules : LimitRules Limits) (id : String) (a : Activation Limits)
    (w : World Limits) : Result Limits Unit :=
  if !a.credentialsRead then (w, .error .storage)
  else if !a.authRead then (w, .error .storage)
  else if !a.loggedIn then (w, .error .upstream)
  else if !a.authWritten then (w, .error .storage)
  else (w.put (activatedState rules w.state id a)).persist a.written

structure Attempt (Limits : Type) where
  now : Int
  activation : Activation Limits

def reconcileFrom (rules : LimitRules Limits) (recoveredProfileId : Option String)
    (answers : Nat → Attempt Limits) : Nat → Nat → World Limits → Result Limits Bool
  | 0, attempt, w => (w, .ok (selectProfile w.state.persisted (answers attempt).now).isSome)
  | left + 1, attempt, w =>
    match selectProfileAfterRefresh w.state.persisted (answers attempt).now
        (if attempt = 0 then recoveredProfileId else none) with
    | none => (w, .ok false)
    | some target =>
      if w.state.persisted.activeProfileId = some target then (w, .ok true)
      else
        (activateLocked rules target (answers attempt).activation w).andThen fun _ w =>
          reconcileFrom rules recoveredProfileId answers left (attempt + 1) w

def reconcile (rules : LimitRules Limits) (recoveredProfileId : Option String)
    (answers : Nat → Attempt Limits) (w : World Limits) : Result Limits Bool :=
  reconcileFrom rules recoveredProfileId answers (max w.state.persisted.profiles.length 1) 0 w

structure Enrolment (Limits : Type) where
  profileId : Option String
  credentialsWritten : Bool
  result : AccountResult
  rateSnapshot : Option Limits
  observedAt : Int
  written : Bool
  activation : Activation Limits

def enrolledState (rules : LimitRules Limits) (s : RuntimeState Limits) (id : String)
    (e : Enrolment Limits) : RuntimeState Limits :=
  let profiles := pushNew s.persisted.profiles
    { id := id, priority := min s.persisted.profiles.length max32, active := false }
  let profiles := modifyProfile id
    (fun p => (p.applyObservation rules e.result e.rateSnapshot true e.observedAt).1) profiles
  { s with persisted := { s.persisted with profiles := normalizePriorities profiles } }

def enrol (rules : LimitRules Limits) (e : Enrolment Limits) (w : World Limits) :
    Result Limits Unit :=
  match e.profileId with
  | none => (w, .error .storage)
  | some id =>
    if !e.credentialsWritten then (w, .error .storage)
    else
      ((w.put (enrolledState rules w.state id e)).persist e.written).andThen fun _ w =>
        if w.state.persisted.activeProfileId = none then activateLocked rules id e.activation w
        else (w, .ok ())

def moveTo (profiles : List (AccountProfile Limits)) (index target : Nat) :
    List (AccountProfile Limits) :=
  match profiles[index]? with
  | none => profiles
  | some p => (profiles.eraseIdx index).insertIdx (min target (profiles.length - 1)) p

def updatedState (s : RuntimeState Limits) (index : Nat) (enabled : Option Bool)
    (priority : Option Nat) : RuntimeState Limits :=
  let profiles := match enabled with
    | some enabled => s.persisted.profiles.modify index fun p => { p with enabled := enabled }
    | none => s.persisted.profiles
  let profiles := match priority with
    | some priority => moveTo profiles index priority
    | none => profiles
  { s with persisted := { s.persisted with profiles := normalizePriorities profiles } }

def updateProfile (id : String) (enabled : Option Bool) (priority : Option Nat) (written : Bool)
    (w : World Limits) : Result Limits Unit :=
  match w.state.persisted.profiles.findIdx? fun p => decide (p.id = id) with
  | none => (w, .error (.invalidRequest "account profile not found"))
  | some index => (w.put (updatedState w.state index enabled priority)).persist written

def activationRequired (pool : PersistedAccountPool Limits) (id : String) :
    Except AccountPoolError Bool :=
  match find pool id with
  | none => .error (.invalidRequest "account profile not found")
  | some p =>
    if !p.enabled then .error (.invalidRequest "a disabled account cannot be activated")
    else .ok (decide (pool.activeProfileId ≠ some id))

def activateProfile [DecidableEq Limits] (rules : LimitRules Limits) (id : String) (a : Capture)
    (captureWritten : Bool) (activation : Activation Limits) (answers : Nat → Attempt Limits)
    (w : World Limits) : Result Limits Unit :=
  (captureLocked a captureWritten w).andThen fun _ w =>
    match activationRequired w.state.persisted id with
    | .error e => (w, .error e)
    | .ok false => (w, .ok ())
    | .ok true =>
      (activateLocked rules id activation w).andThen fun _ w =>
        (reconcile rules none answers w).andThen fun _ w => (w, .ok ())

def removedState (s : RuntimeState Limits) (id : String) : RuntimeState Limits :=
  { s with persisted := { s.persisted with
    profiles := normalizePriorities (s.persisted.profiles.filter fun p => decide (p.id ≠ id)) } }

def removeProfile (id : String) (credentialsRemoved written : Bool) (w : World Limits) :
    Result Limits Unit :=
  if w.state.persisted.activeProfileId = some id then
    (w, .error (.invalidRequest "the active account cannot be removed"))
  else
    let retained := w.state.persisted.profiles.filter fun p => decide (p.id ≠ id)
    if retained.length = w.state.persisted.profiles.length then
      -- the list is the same, since nothing was taken from it
      (w.put { w.state with persisted := { w.state.persisted with profiles := retained } },
        .error (.invalidRequest "account profile not found"))
    else
      let w := w.put (removedState w.state id)
      if credentialsRemoved then w.persist written else (w, .error .storage)

/-- How the refresh of one profile ends; a failed write of its credentials is a failure. -/
inductive ProfileRefresh (Limits : Type) where
  | observed (result : AccountResult) (rateSnapshot : Limits)
  | failed (error : String)

def applyRefreshed (rules : LimitRules Limits) (result : AccountResult) (rateSnapshot : Limits)
    (observedAt : Int) (p : AccountProfile Limits) (recovered : Option (Nat × String)) :
    AccountProfile Limits × Option (Nat × String) :=
  let wasExhausted := p.exhaustedUntil.isSome || p.exhaustedIndefinitely
  let (p', blocking) := p.applyObservation rules result (some rateSnapshot) true observedAt
  if wasExhausted = true ∧ blocking = some .available ∧
      recovered.all (fun current => decide (p'.priority < current.1)) = true then
    (p', some (p'.priority, p'.id))
  else (p', recovered)

def observeProfile (rules : LimitRules Limits) (results : String → ProfileRefresh Limits)
    (observedAt : Int) (acc : List (AccountProfile Limits) × Option (Nat × String)) (id : String) :
    List (AccountProfile Limits) × Option (Nat × String) :=
  match results id with
  | .failed _ => acc
  | .observed result rateSnapshot =>
    match acc.1.find? fun p => decide (p.id = id) with
    | none => acc
    | some p =>
      let refreshed := applyRefreshed rules result rateSnapshot observedAt p acc.2
      (modifyProfile p.id (fun _ => refreshed.1) acc.1, refreshed.2)

def markFailed (results : String → ProfileRefresh Limits) (profiles : List (AccountProfile Limits))
    (id : String) : List (AccountProfile Limits) :=
  match results id with
  | .failed e => modifyProfile id (fun p => p.refreshFailed e) profiles
  | .observed _ _ => profiles

def refreshedPool (rules : LimitRules Limits) (results : String → ProfileRefresh Limits)
    (observedAt : Int) (pool : PersistedAccountPool Limits) :
    PersistedAccountPool Limits × Option (Nat × String) :=
  let ids := pool.profiles.map AccountProfile.id
  let observed := ids.foldl (observeProfile rules results observedAt) (pool.profiles, none)
  ({ pool with profiles := ids.foldl (markFailed results) observed.1 }, observed.2)

def refreshAll [DecidableEq Limits] (rules : LimitRules Limits) (a : Capture)
    (results : String → ProfileRefresh Limits) (observedAt : Int) (written : Bool)
    (w : World Limits) : Result Limits (Option String) :=
  (captureUnpublished a w).andThen fun _ w =>
    let (pool, recovered) := refreshedPool rules results observedAt w.state.persisted
    if pool = w.state.persisted then (w, .ok (recovered.map Prod.snd))
    else
      ((w.put { w.state with persisted := pool }).persist written).andThen fun _ w =>
        (w, .ok (recovered.map Prod.snd))

def refreshAndReconcile [DecidableEq Limits] (rules : LimitRules Limits) (a : Capture)
    (results : String → ProfileRefresh Limits) (observedAt : Int) (written : Bool)
    (answers : Nat → Attempt Limits) (w : World Limits) : Result Limits Unit :=
  (refreshAll rules a results observedAt written w).andThen fun recovered w =>
    (reconcile rules recovered answers w).andThen fun _ w => (w, .ok ())

def applyRateLimitUpdate [DecidableEq Limits] (rules : LimitRules Limits) (update : Option Limits)
    (observedAt : Int) (written : Bool) (answers : Nat → Attempt Limits) (w : World Limits) :
    Result Limits Unit :=
  match update with
  | none => (w, .error .upstream)
  | some update =>
    match w.state.persisted.activeProfileId.bind (find w.state.persisted) with
    | none => (w, .ok ())
    | some p =>
      let p' := (p.applyObservation rules {} (some (rules.merge p.rateLimits update)) true
        observedAt).1
      let w := w.put { w.state with persisted := { w.state.persisted with
        profiles := modifyProfile p.id (fun _ => p') w.state.persisted.profiles } }
      if p' = p then (w, .ok ())
      else
        (w.persist written).andThen fun _ w =>
          (reconcile rules none answers w).andThen fun _ w => (w, .ok ())

def prepareForTurn [DecidableEq Limits] (rules : LimitRules Limits) (a : Capture)
    (captureWritten : Bool) (answers : Nat → Attempt Limits) (w : World Limits) :
    Result Limits Unit :=
  (captureLocked a captureWritten w).andThen fun _ w =>
    (reconcile rules none answers w).andThen fun selected w =>
      if selected then (w, .ok ()) else (w, .error .exhausted)

end CodeWide.Accounts
