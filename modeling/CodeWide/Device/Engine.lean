import CodeWide.Lib.Json
import CodeWide.Lib.LinkedMap
import CodeWide.Lib.Run

/-!
# The RPC calls of the device's protocol engine

A completion may call the engine again before it returns: `Action` is what it does, and `perform`
runs it in the middle of the engine's own loops.
-/

namespace CodeWide.Device

open Lib

inductive Outcome where
  | success (value : Json)
  | failure (message : String)
  | rpcFailure (code : Int) (message : String)

inductive RequestId where
  | number (text : String)
  | text (value : String)

def requestKey : RequestId → String
  | .number text => "number:" ++ text
  | .text value => "string:" ++ value

/-- What caller code does with the engine: the two calls, and the loss of the upstream that
a failed snapshot reports. -/
inductive Action where
  | rpc (method : String) (params : Json) (timeoutMs : Nat) (completion : Outcome → List Action)
  | respondToServerRequest (requestId : RequestId) (result : Json)
      (completion : Outcome → List Action)
  | snapshotFailed

abbrev Completion := Outcome → List Action

inductive Timer where
  | rpc (id : String)
  | serverResponse (key : String)
  | deferred (id : String)
deriving DecidableEq

structure PendingRpc where
  method : String
  call : Nat
  timeout : Timer
  completion : Completion

structure Rpc where
  method : String
  params : Json
  timeoutMs : Nat
  call : Nat
  completion : Completion

structure DeferredRpc extends Rpc where
  liveTimeout : Timer

structure SentRpc where
  id : String
  method : String
  params : Json
  call : Nat
  /-- The call had waited for the connection. -/
  deferred : Bool

structure Engine where
  requestIds : Nat
  pendingRpcs : LinkedMap String PendingRpc
  pendingServerResponses : LinkedMap String PendingRpc
  deferredRpcs : LinkedMap String DeferredRpc
  upstreamLive : Bool
  posted : List (Timer × Nat)
  /-- What `sendFrame` answers next; without a socket it answers `false`. -/
  sends : List Bool
  made : Nat
  completed : List (Nat × Outcome)
  sent : List SentRpc
  answered : List (RequestId × Json)

def rpcTimeoutMs : Nat := 30000
def dictationFinishRpcTimeoutMs : Nat := 5 * 60000
def workspaceCreateRpcTimeoutMs : Nat := 10 * 60000
def threadForkRpcTimeoutMs : Nat := 10 * 60000
def rpcLiveWaitTimeoutMs : Nat := 12000
def maxDeferredRpcs : Nat := 128

def ephemeralControlMethods : List String :=
  ["turn/interrupt", "thread/realtime/start", "thread/realtime/stop", "thread/realtime/appendText"]

def isEphemeral (method : String) : Bool := decide (method ∈ ephemeralControlMethods)

def effectiveTimeoutMs (method : String) (timeoutMs : Nat) : Nat :=
  if method = "companion/dictation/finish" then max timeoutMs dictationFinishRpcTimeoutMs
  else if method = "companion/workspace/create" then max timeoutMs workspaceCreateRpcTimeoutMs
  else if method = "thread/fork" then max timeoutMs threadForkRpcTimeoutMs
  else timeoutMs

def nativeId (n : Nat) : String := "native:" ++ toString n

def deferredId (n : Nat) : String := "deferred:" ++ toString n

def notLive : Outcome := .failure "Connection is not live"

def queueFull : Outcome := .failure "Connection recovery queue is full"

namespace Engine

def initial (requestIds : Nat) : Engine :=
  ⟨requestIds, ∅, ∅, ∅, false, [], [], 0, [], [], []⟩

def sendFrame (s : Engine) : Engine × Bool :=
  match s.sends with
  | [] => (s, false)
  | answer :: rest => ({ s with sends := rest }, answer)

def postDelayed (s : Engine) (timer : Timer) (delayMs : Nat) : Engine :=
  { s with posted := s.posted ++ [(timer, delayMs)] }

def removeCallbacks (s : Engine) (timer : Timer) : Engine :=
  { s with posted := s.posted.filter (fun e => decide (e.1 ≠ timer)) }

def deferRpc (s : Engine) (rpc : Rpc) : Engine × Option Outcome :=
  if s.deferredRpcs.size ≥ maxDeferredRpcs then (s, some queueFull)
  else
    let requestIds := s.requestIds + 1
    let id := deferredId requestIds
    let liveTimeout := Timer.deferred id
    let s := { s with requestIds, deferredRpcs := s.deferredRpcs.put id { rpc with liveTimeout } }
    (s.postDelayed liveTimeout rpcLiveWaitTimeoutMs, none)

def dispatchRpc (s : Engine) (rpc : Rpc) (deferred : Bool) : Engine × Option Outcome :=
  let requestIds := s.requestIds + 1
  let id := nativeId requestIds
  let timeout := Timer.rpc id
  let s := ({ s with requestIds }).postDelayed timeout rpc.timeoutMs
  let s := { s with
    pendingRpcs := s.pendingRpcs.put id ⟨rpc.method, rpc.call, timeout, rpc.completion⟩ }
  let (s, sent) := s.sendFrame
  if sent then
    ({ s with sent := s.sent ++ [⟨id, rpc.method, rpc.params, rpc.call, deferred⟩] }, none)
  else
    let s := s.removeCallbacks timeout
    let s := { s with pendingRpcs := s.pendingRpcs.erase id, upstreamLive := false }
    if isEphemeral rpc.method then (s, some (.failure "Live control transport interrupted"))
    else s.deferRpc rpc

def rpc (s : Engine) (method : String) (params : Json) (timeoutMs : Nat)
    (completion : Completion) : Engine × Option Outcome :=
  let rpc : Rpc := ⟨method, params, effectiveTimeoutMs method timeoutMs, s.made, completion⟩
  let s := { s with made := s.made + 1 }
  if !s.upstreamLive then
    if isEphemeral method then (s, some notLive) else s.deferRpc rpc
  else s.dispatchRpc rpc false

def respondToServerRequest (s : Engine) (requestId : RequestId) (result : Json)
    (completion : Completion) : Engine × Option Outcome :=
  let call := s.made
  let s := { s with made := s.made + 1 }
  if !s.upstreamLive then (s, some notLive)
  else
    let key := requestKey requestId
    if s.pendingServerResponses.contains key then
      (s, some (.failure "Server request response is already pending"))
    else
      let timeout := Timer.serverResponse key
      let s := { s with
        pendingServerResponses :=
          s.pendingServerResponses.put key ⟨"serverResponse", call, timeout, completion⟩ }
      let s := s.postDelayed timeout rpcTimeoutMs
      let (s, sent) := s.sendFrame
      if sent then ({ s with answered := s.answered ++ [(requestId, result)] }, none)
      else
        let s := s.removeCallbacks timeout
        ({ s with pendingServerResponses := s.pendingServerResponses.erase key }, some notLive)

def note (s : Engine) (call : Nat) (outcome : Outcome) : Engine :=
  { s with completed := s.completed ++ [(call, outcome)] }

mutual

def perform (s : Engine) : Action → Engine
  | .rpc method params timeoutMs completion =>
    match s.rpc method params timeoutMs completion with
    | (next, some outcome) => performAll (next.note s.made outcome) (completion outcome)
    | (next, none) => next
  | .respondToServerRequest requestId result completion =>
    match s.respondToServerRequest requestId result completion with
    | (next, some outcome) => performAll (next.note s.made outcome) (completion outcome)
    | (next, none) => next
  | .snapshotFailed => { s with upstreamLive := false }

def performAll (s : Engine) : List Action → Engine
  | [] => s
  | action :: rest => performAll (perform s action) rest

end

def complete (s : Engine) (call : Nat) (completion : Completion) (outcome : Outcome) : Engine :=
  performAll (s.note call outcome) (completion outcome)

def rejectPending (failure : Outcome) (s : Engine) (pending : PendingRpc) : Engine :=
  (s.removeCallbacks pending.timeout).complete pending.call pending.completion failure

def rejectInFlight (s : Engine) (message : String) : Engine :=
  let failure := Outcome.failure message
  let s := s.pendingRpcs.values.foldl (rejectPending failure) s
  let s := { s with pendingRpcs := ∅ }
  let s := s.pendingServerResponses.values.foldl (rejectPending failure) s
  { s with pendingServerResponses := ∅ }

def rejectWaiting (failure : Outcome) (s : Engine) (deferred : DeferredRpc) : Engine :=
  (s.removeCallbacks deferred.liveTimeout).complete deferred.call deferred.completion failure

def rejectDeferred (s : Engine) (message : String) : Engine :=
  let s := s.deferredRpcs.values.foldl (rejectWaiting (.failure message)) s
  { s with deferredRpcs := ∅ }

def dispatchDeferred (s : Engine) (deferred : DeferredRpc) : Engine :=
  match (s.removeCallbacks deferred.liveTimeout).dispatchRpc deferred.toRpc true with
  | (next, some outcome) => next.complete deferred.call deferred.completion outcome
  | (next, none) => next

def dispatchDeferredRpcs (s : Engine) : Engine :=
  if !s.upstreamLive || s.deferredRpcs.entries.isEmpty then s
  else s.deferredRpcs.values.foldl dispatchDeferred { s with deferredRpcs := ∅ }

def resolveRpc (s : Engine) (id : String) (outcome : Outcome) : Engine :=
  match s.pendingRpcs.get? id with
  | none => s
  | some pending =>
    (({ s with pendingRpcs := s.pendingRpcs.erase id }).removeCallbacks pending.timeout).complete
      pending.call pending.completion outcome

def resolveServerResponse (s : Engine) (requestId : RequestId) (accepted : Bool)
    (reason : String) : Engine :=
  let key := requestKey requestId
  match s.pendingServerResponses.get? key with
  | none => s
  | some pending =>
    (({ s with
        pendingServerResponses := s.pendingServerResponses.erase key }).removeCallbacks
      pending.timeout).complete pending.call pending.completion
        (if accepted then .success .null
        else .rpcFailure (-32000) ("Server response rejected: " ++ reason))

/-- A runnable runs, even one that is no longer posted. -/
def timeout (s : Engine) : Timer → Engine
  | .rpc id =>
    match s.pendingRpcs.get? id with
    | none => s
    | some pending =>
      ({ s with pendingRpcs := s.pendingRpcs.erase id }).complete pending.call pending.completion
        (.failure ("RPC timed out: " ++ pending.method))
  | .serverResponse key =>
    match s.pendingServerResponses.get? key with
    | none => s
    | some pending =>
      ({ s with pendingServerResponses := s.pendingServerResponses.erase key }).complete
        pending.call pending.completion (.failure "Server request response timed out")
  | .deferred id =>
    match s.deferredRpcs.get? id with
    | none => s
    | some deferred =>
      ({ s with deferredRpcs := s.deferredRpcs.erase id }).complete deferred.call
        deferred.completion (.failure ("Connection did not recover within " ++
          toString (rpcLiveWaitTimeoutMs / 1000) ++ " seconds"))

def onSocketOpen (s : Engine) : Engine := { s with upstreamLive := false }

def onSocketClosed (s : Engine) (message : String) : Engine :=
  ({ s with upstreamLive := false }).rejectInFlight message

def close (s : Engine) (message : String) : Engine :=
  (({ s with upstreamLive := false }).rejectInFlight message).rejectDeferred message

def onTransportState (s : Engine) (next : String) (message : Option String) : Engine :=
  if next = "live" then s
  else
    let s := { s with upstreamLive := false }
    if next = "authRequired" then s.rejectDeferred (message.getD "Authorization required") else s

/-- `handleStatus`; `flush` is what `sendFrame` answers to the calls that waited. -/
def handleStatus (s : Engine) (next : String) (error : Option String) (snapshot : List Action)
    (flush : List Bool) : Engine :=
  if next = "live" then
    let s := performAll { s with upstreamLive := true } snapshot
    ({ s with sends := flush }).dispatchDeferredRpcs
  else
    let s := ({ s with upstreamLive := false }).rejectInFlight "Connection unavailable"
    if next = "authRequired" then s.rejectDeferred (error.getD "Authorization required") else s

end Engine

inductive Input where
  | call (action : Action)
  | rpcResponse (id : String) (outcome : Outcome)
  | serverResponse (requestId : RequestId) (accepted : Bool) (reason : String)
  | timeout (timer : Timer)
  | socketOpen
  | socketClosed (message : String)
  | close (message : String)
  | transportState (next : String) (message : Option String)
  | status (next : String) (error : Option String) (snapshot : List Action) (flush : List Bool)

namespace Engine

def run (s : Engine) : Input → Engine
  | .call action => s.perform action
  | .rpcResponse id outcome => s.resolveRpc id outcome
  | .serverResponse requestId accepted reason => s.resolveServerResponse requestId accepted reason
  | .timeout timer =>
    ({ s with posted := s.posted.filter (fun e => decide (e.1 ≠ timer)) }).timeout timer
  | .socketOpen => s.onSocketOpen
  | .socketClosed message => s.onSocketClosed message
  | .close message => s.close message
  | .transportState next message => s.onTransportState next message
  | .status next error snapshot flush => s.handleStatus next error snapshot flush

def step (s : Engine) (input : Input × List Bool) : Engine :=
  ({ s with sends := input.2 }).run input.1

end Engine

end CodeWide.Device
