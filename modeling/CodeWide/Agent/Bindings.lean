import CodeWide.Lib.Prog
import CodeWide.Lib.Table
import Mathlib.Data.String.Basic

/-!
# Thread bindings

`agent/bindings.rs` and the binding tables of `store/agent_tables.rs`.
-/

namespace CodeWide.Agent

open Lib

abbrev ProviderId := String

abbrev AppThreadId := String

def bindingRecordVersion : Nat := 2

def maxCachedBindings : Nat := 16384

inductive BindingOrigin where
  | created
  | discovered
  | backfilled

structure BindingSegment where
  provider : ProviderId
  nativeThreadId : String
  firstTurnOrdinal : Nat
  lastTurnOrdinal : Option Nat
  handoffRefs : List String

def BindingSegment.first (provider : ProviderId) (nativeThreadId : String) : BindingSegment :=
  ⟨provider, nativeThreadId, 0, none, []⟩

structure BindingRecord where
  v : Nat
  appThreadId : AppThreadId
  segments : List BindingSegment
  activeProvider : ProviderId
  refs : Table ProviderId String
  origin : BindingOrigin
  createdAtMs : Nat

namespace BindingRecord

def withSegments (appThreadId : AppThreadId) (segments : List BindingSegment)
    (origin : BindingOrigin) (createdAtMs : Nat) : BindingRecord where
  v := bindingRecordVersion
  appThreadId := appThreadId
  segments := segments
  activeProvider := (segments.getLast?.map BindingSegment.provider).getD "unknown"
  refs := segments.foldl (fun refs segment => refs.insert segment.provider segment.nativeThreadId) ∅
  origin := origin
  createdAtMs := createdAtMs

def new (appThreadId : AppThreadId) (provider : ProviderId) (origin : BindingOrigin)
    (nowMs : Nat) : BindingRecord :=
  withSegments appThreadId [.first provider appThreadId] origin nowMs

def current (record : BindingRecord) : Bool :=
  decide (bindingRecordVersion ≤ record.v) && !record.segments.isEmpty

def upgraded (record : BindingRecord) : BindingRecord :=
  if record.current then record
  else
    let native := (record.refs.get? record.activeProvider).getD record.appThreadId
    withSegments record.appThreadId [.first record.activeProvider native] record.origin
      record.createdAtMs

def decode (stored : BindingRecord) : BindingRecord := stored.upgraded

def active (record : BindingRecord) : ProviderId :=
  (record.segments.getLast?.map BindingSegment.provider).getD record.activeProvider

end BindingRecord

structure BindingTables where
  agentThreadBindings : Table AppThreadId BindingRecord
  /-- The native id of a segment that is not the first, and its thread. -/
  agentContinuations : Table String AppThreadId
  segmentsUpgraded : Bool

inductive BindingWrite where
  | inserted
  | existing (stored : BindingRecord)

namespace BindingTables

def insertAbsent (tables : BindingTables) (record : AppThreadId × BindingRecord) :
    BindingTables × BindingWrite :=
  match tables.agentThreadBindings.get? record.1 with
  | some stored => (tables, .existing stored)
  | none =>
    ({ tables with
        agentThreadBindings := tables.agentThreadBindings.insert record.1 record.2 }, .inserted)

def agentBindingsInsertAbsent (tables : BindingTables) :
    List (AppThreadId × BindingRecord) → BindingTables × List BindingWrite
  | [] => (tables, [])
  | record :: rest =>
    let (tables, write) := tables.insertAbsent record
    let (tables, writes) := tables.agentBindingsInsertAbsent rest
    (tables, write :: writes)

def agentBindingReplace (tables : BindingTables) (appThreadId : AppThreadId)
    (record : BindingRecord) (continuations : List String) : BindingTables :=
  { tables with
    agentThreadBindings := tables.agentThreadBindings.insert appThreadId record
    agentContinuations :=
      continuations.foldl (fun table native => table.insert native appThreadId)
        tables.agentContinuations }

def agentBindingsUpgrade (tables : BindingTables)
    (upgrade : BindingRecord → Option BindingRecord) : BindingTables :=
  let updates := tables.agentThreadBindings.entries.filterMap
    (fun entry => (upgrade entry.2).map (fun next => (entry.1, next)))
  { tables with
    agentThreadBindings :=
      updates.foldl (fun table update => table.insert update.1 update.2)
        tables.agentThreadBindings }

structure OpenFailures where
  upgrade : Bool
  marker : Bool
  continuations : Bool

def upgradeRecords (tables : BindingTables) (failures : OpenFailures) : BindingTables :=
  if tables.segmentsUpgraded || failures.upgrade then tables
  else
    let tables := tables.agentBindingsUpgrade
      (fun record => if record.current then none else some record.upgraded)
    if failures.marker then tables else { tables with segmentsUpgraded := true }

def activeProvider (tables : BindingTables) (id : AppThreadId) : Option ProviderId :=
  (tables.agentThreadBindings.get? id).map (fun stored => stored.decode.active)

end BindingTables

inductive BindingError where
  | store
  | segments (message : String)

inductive BindOutcome where
  | bound
  | alreadyBound
  | conflict (existing : ProviderId)
  | continuation

inductive ThreadRoute where
  | bound (provider : ProviderId)
  | provisional (provider : ProviderId)
  | unknown

inductive Query where
  | nowMs
  | isContinuation (native : String)
  | cached (id : AppThreadId)
  | remember (id : AppThreadId) (provider : ProviderId)
  | extendContinuations (natives : List String)
  | agentBinding (id : AppThreadId)
  | agentBindingsInsertAbsent (records : List (AppThreadId × BindingRecord))
  | agentBindingReplace (id : AppThreadId) (record : BindingRecord) (natives : List String)
  /-- Whether the provider owns the thread; `none` when it cannot say. -/
  | threadOwns (provider : ProviderId) (id : AppThreadId)

def Answer : Query → Type
  | .nowMs => Nat
  | .isContinuation _ => Bool
  | .cached _ => Option ProviderId
  | .remember _ _ => Unit
  | .extendContinuations _ => Unit
  | .agentBinding _ => Option (Option BindingRecord)
  | .agentBindingsInsertAbsent _ => Option (List BindingWrite)
  | .agentBindingReplace _ _ _ => Option Unit
  | .threadOwns _ _ => Option Bool

abbrev Call := Prog Query Answer

namespace Ask

def nowMs : Call Nat := Prog.query Query.nowMs

def isContinuation (native : String) : Call Bool := Prog.query (Query.isContinuation native)

def cached (id : AppThreadId) : Call (Option ProviderId) := Prog.query (Query.cached id)

def remember (id : AppThreadId) (provider : ProviderId) : Call Unit :=
  Prog.query (Query.remember id provider)

def extendContinuations (natives : List String) : Call Unit :=
  Prog.query (Query.extendContinuations natives)

def agentBinding (id : AppThreadId) : Call (Option (Option BindingRecord)) :=
  Prog.query (Query.agentBinding id)

def agentBindingsInsertAbsent (records : List (AppThreadId × BindingRecord)) :
    Call (Option (List BindingWrite)) :=
  Prog.query (Query.agentBindingsInsertAbsent records)

def agentBindingReplace (id : AppThreadId) (record : BindingRecord) (natives : List String) :
    Call (Option Unit) :=
  Prog.query (Query.agentBindingReplace id record natives)

def threadOwns (provider : ProviderId) (id : AppThreadId) : Call (Option Bool) :=
  Prog.query (Query.threadOwns provider id)

end Ask

def providerOf (id : AppThreadId) : Call (Except BindingError (Option ProviderId)) :=
  (Ask.cached id).bind fun
    | some provider => .pure (.ok (some provider))
    | none => (Ask.agentBinding id).bind fun
      | none => .pure (.error .store)
      | some none => .pure (.ok none)
      | some (some stored) =>
        let provider := stored.decode.active
        (Ask.remember id provider).bind fun _ => .pure (.ok (some provider))

/-- The first loop of `bind_many`: the outcome of an id that needs no record. -/
def checkIds (provider : ProviderId) : List AppThreadId → Call (List (AppThreadId × Option BindOutcome))
  | [] => .pure []
  | id :: rest =>
    (Ask.isContinuation id).bind fun continues =>
      if continues then (checkIds provider rest).bind fun checked =>
        .pure ((id, some .continuation) :: checked)
      else (Ask.cached id).bind fun found =>
        let outcome := match found with
          | some existing =>
            some (if existing = provider then .alreadyBound else .conflict existing)
          | none => none
        (checkIds provider rest).bind fun checked => .pure ((id, outcome) :: checked)

def newRecords (provider : ProviderId) (origin : BindingOrigin) :
    List AppThreadId → Call (List (AppThreadId × BindingRecord))
  | [] => .pure []
  | id :: rest =>
    Ask.nowMs.bind fun nowMs =>
      (newRecords provider origin rest).bind fun records =>
        .pure ((id, BindingRecord.new id provider origin nowMs) :: records)

def settle (provider : ProviderId) : List (AppThreadId × BindingWrite) → Call (List BindOutcome)
  | [] => .pure []
  | (id, .inserted) :: rest =>
    (Ask.remember id provider).bind fun _ =>
      (settle provider rest).bind fun outcomes => .pure (.bound :: outcomes)
  | (id, .existing stored) :: rest =>
    let active := stored.decode.active
    (Ask.remember id active).bind fun _ =>
      (settle provider rest).bind fun outcomes =>
        .pure ((if active ≠ provider then .conflict active else .alreadyBound) :: outcomes)

def mergeOutcomes : List (AppThreadId × Option BindOutcome) → List BindOutcome → List BindOutcome
  | [], _ => []
  | (_, some outcome) :: rest, settled => outcome :: mergeOutcomes rest settled
  | (_, none) :: rest, [] => .alreadyBound :: mergeOutcomes rest []
  | (_, none) :: rest, outcome :: settled => outcome :: mergeOutcomes rest settled

def bindMany (provider : ProviderId) (ids : List AppThreadId) (origin : BindingOrigin) :
    Call (Except BindingError (List BindOutcome)) :=
  (checkIds provider ids).bind fun checked =>
    let pending := (checked.filter (fun c => c.2.isNone)).map Prod.fst
    if pending = [] then .pure (.ok (mergeOutcomes checked []))
    else (newRecords provider origin pending).bind fun records =>
      (Ask.agentBindingsInsertAbsent records).bind fun
        | none => .pure (.error .store)
        | some writes => (settle provider (pending.zip writes)).bind fun settled =>
          .pure (.ok (mergeOutcomes checked settled))

def bind (id : AppThreadId) (provider : ProviderId) (origin : BindingOrigin) :
    Call (Except BindingError BindOutcome) :=
  (bindMany provider [id] origin).bind fun
    | .error error => .pure (.error error)
    | .ok outcomes => .pure (.ok (outcomes.head?.getD .alreadyBound))

def replaceSegments (id : AppThreadId) (segments : List BindingSegment) (origin : BindingOrigin) :
    Call (Except BindingError Unit) :=
  if segments.head?.map BindingSegment.nativeThreadId ≠ some id then
    .pure (.error (.segments "the first segment must be the app thread"))
  else
    let continuations := (segments.drop 1).map BindingSegment.nativeThreadId
    Ask.nowMs.bind fun nowMs =>
      let record := BindingRecord.withSegments id segments origin nowMs
      (Ask.agentBindingReplace id record continuations).bind fun
        | none => .pure (.error .store)
        | some () =>
          (Ask.extendContinuations continuations).bind fun _ =>
            (Ask.remember id record.active).bind fun _ => .pure (.ok ())

def discover (id : AppThreadId) : List ProviderId → Call (Except BindingError ThreadRoute)
  | [] => .pure (.ok .unknown)
  | provider :: rest =>
    (Ask.threadOwns provider id).bind fun
      | some true => (bind id provider .discovered).bind fun
        | .error error => .pure (.error error)
        | .ok _ => .pure (.ok (.bound provider))
      | _ => discover id rest

def route (registry : List ProviderId) (id : AppThreadId) :
    Call (Except BindingError ThreadRoute) :=
  (providerOf id).bind fun
    | .error error => .pure (.error error)
    | .ok (some provider) => .pure (.ok (.bound provider))
    | .ok none => (Ask.isContinuation id).bind fun continues =>
      if continues then .pure (.ok .unknown)
      else match registry with
        | [] => .pure (.ok .unknown)
        | [only] => .pure (.ok (.provisional only))
        | several => discover id several

def parseAppThreadId (value : String) : Option AppThreadId :=
  if value ≠ "" ∧ value.utf8ByteSize ≤ 512 then some value else none

def observeThreads (provider : ProviderId) (ids : List String) : Call Unit :=
  let ids := ids.filterMap parseAppThreadId
  if ids = [] then .pure ()
  else (bindMany provider ids .discovered).bind fun _ => .pure ()

end CodeWide.Agent
