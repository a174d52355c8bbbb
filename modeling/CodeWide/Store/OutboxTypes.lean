import CodeWide.Lib.Json
import CodeWide.Lib.Saturating

/-!
# The command outbox: rows, claims and their checks

The data of the `command_outbox` table and the pure helpers of its operations.
-/

namespace CodeWide.Store

open Lib

inductive StoreError where
  | corruptedIndex (message : String)
  | outboxOwnerQuotaExceeded (limitBytes : Nat)
deriving DecidableEq

inductive OutboxState where
  | queued
  | uncertain
  | failed
  | delivered
deriving DecidableEq

inductive OutboxPresentation where
  | delivery
  | queue
deriving DecidableEq

inductive OutboxQueueInputBlock where
  | text (text : String)
  | attachment (attachmentId name : String)
  | skill (name path : String)
deriving DecidableEq

inductive OutboxClaimKind where
  | dispatch
  | steer
deriving DecidableEq

structure OutboxClaim where
  token : Nat
  kind : OutboxClaimKind
  operationId : Option String
  resolved : Bool
deriving DecidableEq

structure OutboxCommand where
  commandId : String
  remoteThreadId : String
  method : String
  params : Json
  state : OutboxState
  presentation : OutboxPresentation
  workspaceRequestId : Option String
  ownerContext : Option String
  queueInput : Option (List OutboxQueueInputBlock)
  order : Nat
  createdAt : Nat
  updatedAt : Nat
  lastError : Option String
  attempts : Nat
  nextAttemptAt : Nat
  claim : Option OutboxClaim
deriving DecidableEq

abbrev Outbox := Table String OutboxCommand

structure OutboxPutMetadata where
  createdAt : Option Nat
  presentation : OutboxPresentation
  workspaceRequestId : Option String
deriving DecidableEq

inductive OutboxClaimOutcome where
  | acquired (command : OutboxCommand) (token : Nat)
  | duplicate (command : OutboxCommand)
  | unavailable (command : Option OutboxCommand)

inductive OutboxClaimResolution where
  | delivered
  | notSent (retryAfterMs : Nat)
  /-- The provider refused a start because the thread has an active turn. -/
  | busy
  | rejected (error : String)
  | indeterminate (error : String) (retryAfterMs : Nat)
deriving DecidableEq

inductive OutboxClaimResolutionOutcome where
  | applied (command : OutboxCommand)
  | alreadyResolved (command : OutboxCommand)
  | stale (command : Option OutboxCommand)

structure Encoding where
  paramsLen : Json → Nat
  commandLen : OutboxCommand → Nat

def maxOutboxCommandBytes : Nat := 1024 * 1024
def maxOutboxOwnerBytes : Nat := 256 * 1024 * 1024
def maxRetainedDeliveredCommands : Nat := 128

/-- A completed steer claim, reconciled against the full history. -/
def OutboxCommand.hasResolvedSteerClaim (command : OutboxCommand) : Bool :=
  command.claim.any (fun claim => decide (claim.kind = .steer) && claim.resolved)

def isAsciiControl (c : Char) : Bool := decide (c.val < 0x20) || decide (c.val = 0x7f)

def validateOutboxId (value label : String) : Except StoreError Unit :=
  if value.isEmpty || decide (value.utf8ByteSize > 512) || value.toList.any isAsciiControl then
    .error (.corruptedIndex ("invalid " ++ label))
  else .ok ()

def boundedOutboxError (error : String) : String := String.ofList (error.toList.take 500)

def outboxHasInFlightClaim (command : OutboxCommand) : Bool :=
  command.claim.any (fun claim => !claim.resolved)

def outboxRejectsStaleQueueUpdate (command : OutboxCommand) : Bool :=
  (decide (command.state = .failed) || decide (command.state = .delivered)) ||
    outboxHasInFlightClaim command

def ensureOutboxEditable (command : OutboxCommand) : Except StoreError Unit :=
  if command.state ≠ .queued then
    .error (.corruptedIndex "queued command is already dispatching or no longer exists")
  else .ok ()

def validateTurnStartParams (commandId remoteThreadId : String) (params : Json) :
    Except StoreError Unit :=
  if !params.isObj then .error (.corruptedIndex "outbox params must be an object")
  else if (params.get? "threadId").bind Json.asStr? ≠ some remoteThreadId ∨
      (params.get? "clientUserMessageId").bind Json.asStr? ≠ some commandId ∨
      ((params.get? "input").bind Json.asArr?).all List.isEmpty then
    .error (.corruptedIndex "outbox turn/start id or input is invalid")
  else .ok ()

def outboxOwnerBytes (enc : Encoding) (table : Outbox) (ownerContext : Option String) : Nat :=
  table.entries.foldl (fun total e =>
    if e.2.ownerContext = ownerContext then Saturating.add64 total (enc.commandLen e.2)
    else total) 0

def ensureOutboxOwnerQuota (currentBytes incomingBytes : Nat) : Except StoreError Unit :=
  if Saturating.add64 currentBytes incomingBytes > maxOutboxOwnerBytes then
    .error (.outboxOwnerQuotaExceeded maxOutboxOwnerBytes)
  else .ok ()

def ensureOutboxOwnerReplacementQuota (currentBytes replacedBytes replacementBytes : Nat) :
    Except StoreError Unit :=
  ensureOutboxOwnerQuota (currentBytes - replacedBytes) replacementBytes

end CodeWide.Store
