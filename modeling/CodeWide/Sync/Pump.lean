import CodeWide.Lib.Prog
import CodeWide.Store.OutboxRows

/-!
# The outbox pump and the queued steer

`outbox.rs`, `outbox_state.rs` and `handle_queued_steer` as programs that ask the durable store, the
gateway, the provider and the thread view.
-/

namespace CodeWide.Sync

open Lib Store

inductive ProviderStatus where
  | reconnecting
  | live

inductive ProviderError where
  | reconnecting (message : String)
  | backpressure (message : String)
  | disconnected (message : String)
  | protocol (message : String)
  | rejected (message : String)

namespace ProviderError

def message : ProviderError → String
  | reconnecting m | backpressure m | disconnected m | protocol m | rejected m => m

def notSent : ProviderError → Bool
  | reconnecting _ | backpressure _ => true
  | _ => false

end ProviderError

inductive AdmissionError where
  | deferred (reason : String)
  | retryable (error : String)
  | fatal (error : String)

def AdmissionError.message : AdmissionError → String
  | deferred m | retryable m | fatal m => m

inductive DispatchError where
  | admission (error : AdmissionError)
  | transport (error : ProviderError)

inductive OutboxDeliveryError where
  | deferred (reason : String)
  | uncertain (error : String)

def OutboxDeliveryError.ofDispatch : DispatchError → OutboxDeliveryError
  | .admission (.deferred reason) => .deferred reason
  | .admission error => .uncertain error.message
  | .transport error => if error.notSent then .deferred error.message else .uncertain error.message

structure RpcFailure where
  code : Int
  message : String

def errorInvalidRequest : Int := -32600
def errorProviderDisabled : Int := -32070

/-- The provider a thread is routed to; a native one speaks the client's own protocol. -/
structure Target where
  threadId : String
  native : Bool

inductive WorkspacePhase where
  | creating
  | preparing
  | ready
  | failed

structure WorkspaceOperation where
  phase : WorkspacePhase
  error : Option String

inductive ThreadActivity where
  | active
  | idle
  | unavailable

inductive RemoteInputError where
  | fileServiceUnavailable
  | other (message : String)

def RemoteInputError.message : RemoteInputError → String
  | fileServiceUnavailable => "remote file service is unavailable"
  | other m => m

inductive TurnStartResult where
  | started
  | busy

inductive Query where
  | store (op : OutboxOp)
  | list
  | readyHeads
  | operationStatus (requestId : String)
  | resolveThread (threadId : String)
  | checkModelScope (target : Target) (method : String) (params : Json)
  | providerStatus (target : Target)
  | admitTurn (target : Target)
  | activity (threadId : String)
  | neutralTurns (target : Target)
  | fullHistory (threadId : String)
  | summaryHistory (threadId : String)
  | retryDelayMs (attempts : Nat)
  | renderJson (value : Json)
  | injectFork (method : String) (params : Json)
  | prepareRemoteFileInputs (method : String) (params : Json)
  | userContents (input : Json)
  | turnSettingsOverrides (params : Json)
  | threadUpdate (target : Target) (change : Json)
  | steerOperationId (requestId : Json) (commandId expectedTurnId : String)
  | dispatchTurnStart (claimed : OutboxCommand) (params : Json)
  | turnStart (target : Target) (claimed : OutboxCommand) (input : Json)
  | sendSteer (claimed : OutboxCommand) (input : Json) (expectedTurnId : String)

abbrev Query.Answer : Query → Type
  | store op => Except StoreError op.Answer
  | list | readyHeads => Except StoreError (List OutboxCommand)
  | operationStatus _ => Option (Except String (Option WorkspaceOperation))
  | resolveThread _ => Except RpcFailure Target
  | checkModelScope .. => Except RpcFailure Unit
  | providerStatus _ => ProviderStatus
  | admitTurn _ => Except AdmissionError Unit
  | activity _ => Except String ThreadActivity
  | neutralTurns _ => Except String (List Json)
  | fullHistory _ => Except String Json
  | summaryHistory _ => Option (Except String Json)
  | retryDelayMs _ => Nat
  | renderJson _ => String
  | injectFork .. => Json
  | prepareRemoteFileInputs .. => Except RemoteInputError Json
  | userContents _ => Except String Json
  | turnSettingsOverrides _ => Option Json
  | threadUpdate .. => Except ProviderError Unit
  | steerOperationId .. => String
  | dispatchTurnStart .. => Except DispatchError Json
  | turnStart .. => Except ProviderError TurnStartResult
  | sendSteer .. => Except ProviderError Json

def Query.handsOver? : Query → Option OutboxCommand
  | dispatchTurnStart claimed _ | turnStart _ claimed _ | sendSteer claimed _ _ => some claimed
  | _ => none

abbrev Task := Prog Query Query.Answer

def ask (q : Query) : Task q.Answer := Prog.query q

def outboxPollIntervalMs : Nat := 500
def outboxAccountSwitchWaitMs : Nat := 1000

def writeOutbox (op : OutboxOp) : Task Unit := do
  let _ ← ask (.store op)
  pure ()

def setOutboxState (commandId : String) (state : OutboxState) (error : Option String) : Task Unit :=
  writeOutbox (.setState commandId state error)

def deferOutbox (commandId : String) (state : OutboxState) (error : String) (delayMs : Nat) :
    Task Unit :=
  writeOutbox (.defer commandId state error delayMs)

def waitOutbox (commandId : String) (state : OutboxState) (error : Option String) (delayMs : Nat) :
    Task Unit :=
  writeOutbox (.wait commandId state error delayMs)

def failQueuedOutbox (commandId error : String) : Task Unit :=
  writeOutbox (.failQueued commandId error)

def resolveOutboxClaim (commandId : String) (token : Nat) (resolution : OutboxClaimResolution) :
    Task Unit :=
  writeOutbox (.resolve commandId token resolution)

def acquired? : Except StoreError OutboxClaimOutcome → Option (OutboxCommand × Nat)
  | .ok (.acquired command token) => some (command, token)
  | _ => none

def claimOutboxDispatch (commandId : String) : Task (Option (OutboxCommand × Nat)) := do
  let answer ← ask (.store (.claimDispatch commandId))
  pure (acquired? answer)

def turnsContainClientMessage (turns : List Json) (clientId : String) : Bool :=
  turns.any (fun turn => ((turn.get? "items").bind Json.asArr?).any (fun items =>
    items.any (fun item =>
      decide ((item.get? "type").bind Json.asStr? = some "userMessage") &&
        decide ((item.get? "clientId").bind Json.asStr? = some clientId))))

def rpcErrorMessage (response : Json) : Task String := do
  let error := (response.get? "error").getD response
  match (error.get? "message").bind Json.asStr? with
  | some message => pure (boundedOutboxError message)
  | none => do
    let text ← ask (.renderJson error)
    pure (boundedOutboxError text)

def workspaceReady (command : OutboxCommand) : Task Bool :=
  match command.workspaceRequestId with
  | none => pure true
  | some requestId => do
    match ← ask (.operationStatus requestId) with
    | none => do
      waitOutbox command.commandId .queued none outboxPollIntervalMs
      pure false
    | some (.ok (some operation)) =>
      match operation.phase with
      | .ready => pure true
      | .failed => do
        setOutboxState command.commandId .failed
          (operation.error.or (some "workspace preparation failed"))
        pure false
      | _ => do
        waitOutbox command.commandId .queued none outboxPollIntervalMs
        pure false
    | some (.ok none) => do
      setOutboxState command.commandId .failed (some "workspace operation was not found")
      pure false
    | some (.error error) => do
      let delay ← ask (.retryDelayMs command.attempts)
      deferOutbox command.commandId .queued error delay
      pure false

def commandTarget (command : OutboxCommand) : Task (Option Target) := do
  match ← ask (.resolveThread command.remoteThreadId) with
  | .ok target => pure (some target)
  | .error failure =>
    if failure.code = errorProviderDisabled ∨ failure.code = errorInvalidRequest then do
      setOutboxState command.commandId .failed (some failure.message)
      pure none
    else pure none

def admitCommand (target : Target) (command : OutboxCommand) : Task Bool := do
  match ← ask (.admitTurn target) with
  | .ok () => pure true
  | .error (.deferred _) => do
    waitOutbox command.commandId .queued none outboxAccountSwitchWaitMs
    pure false
  | .error (.retryable error) => do
    let delay ← ask (.retryDelayMs command.attempts)
    deferOutbox command.commandId .queued error delay
    pure false
  | .error (.fatal error) => do
    setOutboxState command.commandId .failed (some error)
    pure false

def historyContainsClientMessage (target : Target) (command : OutboxCommand) :
    Task (Except String Bool) :=
  if !target.native then do
    match ← ask (.neutralTurns target) with
    | .error error => pure (.error error)
    | .ok turns => pure (.ok (turnsContainClientMessage turns command.commandId))
  else if command.hasResolvedSteerClaim then do
    match ← ask (.fullHistory command.remoteThreadId) with
    | .error error => pure (.error error)
    | .ok response =>
      if (response.get? "error").isSome then do
        let message ← rpcErrorMessage response
        pure (.error message)
      else
        match ((response.get? "result").bind (·.get? "data")).bind Json.asArr? with
        | none => pure (.error "upstream full history returned no turns page")
        | some turns => pure (.ok (turnsContainClientMessage turns command.commandId))
  else do
    match ← ask (.summaryHistory command.remoteThreadId) with
    | none => pure (.error "local summary history is unavailable")
    | some (.error error) => pure (.error error)
    | some (.ok page) =>
      match (page.get? "data").bind Json.asArr? with
      | none => pure (.error "local summary history returned no turns page")
      | some turns => pure (.ok (turnsContainClientMessage turns command.commandId))

def nativeResolution (delivered : Except DispatchError Json) (claimed : OutboxCommand) :
    Task OutboxClaimResolution :=
  match delivered with
  | .ok response =>
    if (response.get? "error").isSome then do
      let message ← rpcErrorMessage response
      pure (.rejected message)
    else pure .delivered
  | .error error =>
    match OutboxDeliveryError.ofDispatch error with
    | .deferred _ => pure (.notSent outboxAccountSwitchWaitMs)
    | .uncertain error => do
      let delay ← ask (.retryDelayMs claimed.attempts)
      pure (.indeterminate error delay)

/-- The turn's settings overrides, applied to the thread first; a resolution ends the attempt. -/
def updateTurnSettings (target : Target) (claimed : OutboxCommand) (params : Json) :
    Task (Option OutboxClaimResolution) := do
  match ← ask (.turnSettingsOverrides params) with
  | none => pure none
  | some change => do
    match ← ask (.threadUpdate target change) with
    | .ok () => pure none
    | .error (.rejected message) => pure (some (.rejected message))
    | .error _ => do
      let delay ← ask (.retryDelayMs claimed.attempts)
      pure (some (.notSent delay))

def neutralTurnStart (target : Target) (claimed : OutboxCommand) (input : Json) :
    Task OutboxClaimResolution := do
  match ← ask (.turnStart target claimed input) with
  | .ok .started => pure .delivered
  | .ok .busy => pure .busy
  | .error (.rejected message) => pure (.rejected message)
  | .error error =>
    if error.notSent then pure (.notSent outboxAccountSwitchWaitMs)
    else do
      let delay ← ask (.retryDelayMs claimed.attempts)
      pure (.indeterminate error.message delay)

def neutralResolution (target : Target) (claimed : OutboxCommand) (params : Json) :
    Task OutboxClaimResolution := do
  match ← ask (.userContents ((params.get? "input").getD .null)) with
  | .error message => pure (.rejected message)
  | .ok input => do
    match ← updateTurnSettings target claimed params with
    | some resolution => pure resolution
    | none => neutralTurnStart target claimed input

/-- The parameters the claimed row is sent with, prepared again when it was edited. -/
def refreshParams (command claimed : OutboxCommand) (prepared : Json) :
    Task (Except RemoteInputError Json) :=
  if claimed.params ≠ command.params then do
    let injected ← ask (.injectFork claimed.method claimed.params)
    ask (.prepareRemoteFileInputs claimed.method injected)
  else pure (.ok prepared)

def sendClaimed (target : Target) (command claimed : OutboxCommand) (token : Nat)
    (prepared : Json) : Task Unit := do
  match ← refreshParams command claimed prepared with
  | .error error => resolveOutboxClaim claimed.commandId token (.rejected error.message)
  | .ok params =>
    if target.native then do
      let delivered ← ask (.dispatchTurnStart claimed params)
      let resolution ← nativeResolution delivered claimed
      resolveOutboxClaim claimed.commandId token resolution
    else do
      let resolution ← neutralResolution target claimed params
      resolveOutboxClaim claimed.commandId token resolution

def deliverOutboxStart (target : Target) (command : OutboxCommand) : Task Unit := do
  let injected ← ask (.injectFork command.method command.params)
  match ← ask (.prepareRemoteFileInputs command.method injected) with
  | .error .fileServiceUnavailable => pure ()
  | .error error => failQueuedOutbox command.commandId error.message
  | .ok prepared => do
    match ← claimOutboxDispatch command.commandId with
    | none => pure ()
    | some (claimed, token) => sendClaimed target command claimed token prepared

def reconcileUncertain (target : Target) (command : OutboxCommand) : Task Unit := do
  match ← historyContainsClientMessage target command with
  | .ok true => setOutboxState command.commandId .delivered none
  | _ => waitOutbox command.commandId .uncertain command.lastError outboxPollIntervalMs

def queueTurnReady (command : OutboxCommand) : Task Bool :=
  if command.presentation = .queue then do
    match ← ask (.activity command.remoteThreadId) with
    | .ok .idle => pure true
    | _ => do
      waitOutbox command.commandId .queued none outboxPollIntervalMs
      pure false
  else pure true

/-- The part of the pass after routing and admission. -/
def reconcileAdmitted (target : Target) (command : OutboxCommand) : Task Unit :=
  if command.state = .uncertain then reconcileUncertain target command
  else do
    match ← queueTurnReady command with
    | false => pure ()
    | true => deliverOutboxStart target command

/-- A command naming another provider's model fails once; one of a provider that is not live
waits. -/
def reconcileRouted (target : Target) (command : OutboxCommand) : Task Unit := do
  match ← ask (.checkModelScope target command.method command.params) with
  | .error failure => setOutboxState command.commandId .failed (some failure.message)
  | .ok () => do
    match ← ask (.providerStatus target) with
    | .reconnecting => pure ()
    | .live => do
      match ← admitCommand target command with
      | false => pure ()
      | true => reconcileAdmitted target command

def reconcileOutboxCommand (command : OutboxCommand) : Task Unit := do
  match ← workspaceReady command with
  | false => pure ()
  | true => do
    match ← commandTarget command with
    | none => pure ()
    | some target => reconcileRouted target command

def pumpStart : Task Unit := do
  let _ ← ask (.store .prune)
  let _ ← ask (.store .recoverLegacy)
  pure ()

def pumpPass : Task Unit := do
  match ← ask .readyHeads with
  | .ok heads => Prog.each heads reconcileOutboxCommand
  | .error _ => pure ()

def sendClaimedSteer (claimed : OutboxCommand) (token : Nat) (input : Json)
    (expectedTurnId : String) : Task Unit := do
  match ← ask (.sendSteer claimed input expectedTurnId) with
  | .error error => do
    let delay ← ask (.retryDelayMs claimed.attempts)
    resolveOutboxClaim claimed.commandId token (.indeterminate error.message delay)
  | .ok response =>
    if (response.get? "error").isSome then do
      let message ← rpcErrorMessage response
      resolveOutboxClaim claimed.commandId token (.rejected message)
    else resolveOutboxClaim claimed.commandId token .delivered

/-- The claimed steer: prepared again when the row was edited since it was read. -/
def steerClaimed (command claimed : OutboxCommand) (token : Nat) (prepared : Json)
    (expectedTurnId : String) : Task Unit :=
  if claimed.params ≠ command.params then do
    match ← ask (.prepareRemoteFileInputs "turn/steer" claimed.params) with
    | .error error => resolveOutboxClaim claimed.commandId token (.rejected error.message)
    | .ok prepared =>
      sendClaimedSteer claimed token ((prepared.get? "input").getD (.arr [])) expectedTurnId
  else sendClaimedSteer claimed token ((prepared.get? "input").getD (.arr [])) expectedTurnId

def handleQueuedSteer (requestId : Json) (commandId expectedTurnId : String) : Task Unit := do
  match ← ask .list with
  | .error _ => pure ()
  | .ok commands =>
    match commands.find? (fun command => decide (command.commandId = commandId)) with
    | none => pure ()
    | some command =>
      if command.state ≠ .queued then pure ()
      else do
        match ← ask (.prepareRemoteFileInputs "turn/steer" command.params) with
        | .error _ => pure ()
        | .ok prepared => do
          let operationId ← ask (.steerOperationId requestId command.commandId expectedTurnId)
          let answer ← ask (.store (.claimSteer command.commandId operationId))
          match acquired? answer with
          | none => pure ()
          | some (claimed, token) => steerClaimed command claimed token prepared expectedTurnId

end CodeWide.Sync
