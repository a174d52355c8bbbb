import CodeWide.Lib.Json
import CodeWide.Lib.Run
import CodeWide.Lib.Positions

/-!
# The upstream connection

Callers put a command into a bounded channel; the task answers it from what the socket delivers.
-/

namespace CodeWide.Transport

open Lib

inductive ConnectionStatus where
  | live
  | reconnecting
deriving DecidableEq

inductive UpstreamError where
  | reconnecting
  | backpressure
  | disconnected
  | protocol (message : String)

inductive Reply where
  | response (value : Json)
  | delivered

abbrev Outcome := Except UpstreamError Reply

/-- The provider has not seen the command, which can be sent again. -/
def refuses : Outcome → Bool
  | .error .reconnecting => true
  | .error .backpressure => true
  | _ => false

inductive UpstreamCommand where
  | request (request : Json) (fenced : Bool)
  | serverResponse (response : Json)

structure Call where
  token : Nat
  command : UpstreamCommand

structure PendingUpstreamRequest where
  upstreamId : String
  token : Nat
  fenced : Bool
deriving DecidableEq

inductive OrderedUpstreamEvent where
  | notification (value : Json)
  | fence (token : Nat) (response : Json)
deriving DecidableEq

structure Entry where
  stream : Nat
  frame : Nat
  event : OrderedUpstreamEvent
deriving DecidableEq

structure Connection where
  counter : Nat
  pending : List PendingUpstreamRequest
  publishing : Option Entry
deriving DecidableEq

inductive Phase where
  | connecting
  | connected (connection : Connection)
  | rejecting
  | sleeping
  | stopped
deriving DecidableEq

/-- A frame of a call on a socket, and how many frames had been received before it. -/
structure Written where
  token : Nat
  generation : Nat
  upstreamId : Option String
  frame : Json
  seen : Nat

structure Received where
  generation : Nat
  value : Json
  stream : Option Nat

structure State where
  status : ConnectionStatus
  generation : Nat
  phase : Phase
  commands : List Call
  /-- Calls that found the status live and have not tried to send. -/
  admitted : List Call
  stream : Option Nat
  streams : Nat
  dropped : List Nat
  events : List Json
  outcomes : List (Nat × Outcome)
  cancelled : List Nat
  next : Nat
  ordered : List Entry
  written : List Written
  received : List Received
  connections : List Nat

inductive Frame where
  | value (value : Json)
  | ignored
  | error
  | closed

inductive Input where
  | call (command : UpstreamCommand)
  | submit (i : Nat)
  | cancel (token : Nat)
  | takeOrderedEvents
  | dropOrderedEvents (stream : Nat)
  | connect
  | connectFails
  | outbound (sent : Bool)
  | cleanup
  | inbound (frame : Frame)
  | publish
  | reject
  | wake
  | stop

def requestQueueCapacity : Nat := 256

def initial : State where
  status := .reconnecting
  generation := 0
  phase := .connecting
  commands := []
  admitted := []
  stream := none
  streams := 0
  dropped := []
  events := []
  outcomes := []
  cancelled := []
  next := 0
  ordered := []
  written := []
  received := []
  connections := []

def Entry.token? (entry : Entry) : Option Nat :=
  match entry.event with
  | .notification _ => none
  | .fence token _ => some token

def Connection.tokens (connection : Connection) : List Nat :=
  connection.pending.map (fun pending => pending.token) ++
    (connection.publishing.bind Entry.token?).toList

def Phase.tokens : Phase → List Nat
  | .connected connection => connection.tokens
  | _ => []

namespace State

def finish (s : State) (tokens : List Nat) (outcome : Outcome) : State :=
  { s with
    outcomes := s.outcomes ++
      (tokens.filter (fun token => decide (token ∉ s.cancelled))).map (fun token =>
        (token, outcome)) }

/-- `request_with_fence` and `respond` up to the status check. -/
def call (s : State) (command : UpstreamCommand) : State :=
  let s' := { s with next := s.next + 1 }
  if s.status = .live then { s' with admitted := s.admitted ++ [⟨s.next, command⟩] }
  else s'.finish [s.next] (.error .reconnecting)

/-- `try_send` of a call that found the status live. -/
def submit (s : State) (i : Nat) : State :=
  match s.admitted[i]? with
  | none => s
  | some call =>
    let s' := { s with admitted := s.admitted.eraseIdx i }
    if s.phase = .stopped then s'.finish [call.token] (.error .reconnecting)
    else if requestQueueCapacity ≤ s.commands.length then
      s'.finish [call.token] (.error .backpressure)
    else { s' with commands := s.commands ++ [call] }

def inFlight (s : State) : List Nat :=
  s.admitted.map (fun call => call.token) ++ s.commands.map (fun call => call.token) ++
    s.phase.tokens

/-- A caller drops its future. Between its status check and `try_send` it does not wait. -/
def cancel (s : State) (token : Nat) : State :=
  if token ∈ s.commands.map (fun call => call.token) ++ s.phase.tokens ∧ token ∉ s.cancelled then
    { s with cancelled := s.cancelled ++ [token] }
  else s

def takeOrderedEvents (s : State) : State :=
  match s.stream with
  | some _ => s
  | none => { s with stream := some s.streams, streams := s.streams + 1 }

def connect (s : State) : State :=
  match s.phase with
  | .connecting =>
    { s with
      generation := s.generation + 1
      status := .live
      phase := .connected ⟨0, [], none⟩
      connections := s.connections ++ [s.generation + 1] }
  | _ => s

/-- `run_connection` returns; what is pending is dropped or answered. -/
def lose (s : State) (tokens : List Nat) (status : ConnectionStatus) : State :=
  { s.finish tokens (.error .disconnected) with status, phase := .rejecting }

def insertPending (s : State) (connection : Connection) (counter : Nat)
    (pending : PendingUpstreamRequest) : State :=
  let same (other : PendingUpstreamRequest) : Bool := other.upstreamId == pending.upstreamId
  let replaced := (connection.pending.filter same).map (fun other => other.token)
  { s.finish replaced (.error .disconnected) with
    phase := .connected { connection with
      counter
      pending := connection.pending.filter (fun other => !same other) ++ [pending] } }

def upstreamId (counter : Nat) : String := "codewide-rs:" ++ toString counter

def write (s : State) (token : Nat) (id : Option String) (frame : Json) : State :=
  { s with written := s.written ++ [⟨token, s.generation, id, frame, s.received.length⟩] }

def outboundRequest (s : State) (connection : Connection) (token : Nat) (request : Json)
    (fenced sent : Bool) : State :=
  if token ∈ s.cancelled then s
  else
    let counter := (connection.counter + 1) % 2 ^ 64
    let id := upstreamId counter
    if request.isObj = false then
      { s.finish [token] (.error (.protocol "request is not an object")) with
        phase := .connected { connection with counter } }
    else
      let s' := s.write token (some id) (request.insert "id" (.str id))
      if sent then s'.insertPending connection counter ⟨id, token, fenced⟩
      else s'.lose (token :: connection.tokens) s.status

def validResponse (response : Json) : Bool :=
  (response.get? "id").isSome &&
    ((response.get? "result").isSome || (response.get? "error").isSome) &&
    (response.get? "method").isNone

def outboundResponse (s : State) (connection : Connection) (token : Nat) (response : Json)
    (sent : Bool) : State :=
  if validResponse response = false then
    s.finish [token] (.error (.protocol "invalid server response"))
  else
    let s' := s.write token none response
    if sent then s'.finish [token] (.ok .delivered)
    else s'.lose (token :: connection.tokens) s.status

def outbound (s : State) (connection : Connection) (sent : Bool) : State :=
  match s.commands with
  | [] => s
  | call :: rest =>
    let s' := { s with commands := rest }
    match call.command with
    | .request request fenced => s'.outboundRequest connection call.token request fenced sent
    | .serverResponse response => s'.outboundResponse connection call.token response sent

def cleanup (s : State) (connection : Connection) : State :=
  { s with phase := .connected { connection with
      pending := connection.pending.filter (fun pending =>
        decide (pending.token ∉ s.cancelled)) } }

def responseId (render : Json → String) (value : Json) : Option String :=
  match value.get? "id" with
  | some (.str id) => some id
  | some id => some (render id)
  | none => none

def complete (s : State) (connection : Connection) (frame : Nat)
    (request : PendingUpstreamRequest) (value : Json) : State :=
  if request.fenced = false then
    { s.finish [request.token] (.ok (.response value)) with phase := .connected connection }
  else
    match s.stream with
    | none =>
      { s.finish [request.token] (.error (.protocol "durable event fence is unavailable")) with
        phase := .connected connection }
    | some stream =>
      { s with phase := .connected { connection with
          publishing := some ⟨stream, frame, .fence request.token value⟩ } }

/-- A value of the socket: a notification, a response or nothing that is known. -/
def receive (render : Json → String) (s : State) (connection : Connection) (value : Json) :
    State :=
  let s' := { s with received := s.received ++ [⟨s.generation, value, s.stream⟩] }
  let frame := s.received.length
  if value.method?.isSome then
    match s.stream with
    | none => { s' with events := s.events ++ [value] }
    | some stream =>
      { s' with phase := .connected { connection with
          publishing := some ⟨stream, frame, .notification value⟩ } }
  else
    match responseId render value with
    | none => s'
    | some id =>
      match connection.pending.find? (fun pending => pending.upstreamId == id) with
      | none => s'
      | some request =>
        let kept := connection.pending.eraseP (fun pending => pending.upstreamId == id)
        s'.complete { connection with pending := kept } frame request value

def inbound (render : Json → String) (s : State) (connection : Connection) : Frame → State
  | .ignored => s
  | .error => s.lose connection.tokens s.status
  | .closed => s.lose connection.tokens .reconnecting
  | .value value => s.receive render connection value

/-- The ordered stream takes the event or turns out to be closed. -/
def publish (s : State) (connection : Connection) (entry : Entry) : State :=
  let s' := { s with phase := .connected { connection with publishing := none } }
  if entry.stream ∈ s.dropped then
    let cleared := { s' with stream := none }
    match entry.event with
    | .notification value => { cleared with events := s.events ++ [value] }
    | .fence token _ => cleared.finish [token] (.error .disconnected)
  else
    let entered := { s' with ordered := s.ordered ++ [entry] }
    match entry.event with
    | .notification value => { entered with events := s.events ++ [value] }
    | .fence token value => entered.finish [token] (.ok (.response value))

def reject (s : State) : State :=
  match s.commands with
  | [] => { s with phase := .sleeping }
  | call :: rest => { s with commands := rest }.finish [call.token] (.error .disconnected)

def stop (s : State) : State :=
  { s.finish (s.commands.map (fun call => call.token) ++ s.phase.tokens) (.error .disconnected) with
    commands := []
    phase := .stopped }

def step (render : Json → String) (s : State) : Input → State
  | .call command => s.call command
  | .submit i => s.submit i
  | .cancel token => s.cancel token
  | .takeOrderedEvents => s.takeOrderedEvents
  | .dropOrderedEvents stream => { s with dropped := s.dropped ++ [stream] }
  | .connect => s.connect
  | .connectFails =>
    match s.phase with
    | .connecting => { s with phase := .rejecting }
    | _ => s
  | .outbound sent =>
    match s.phase with
    | .connected ⟨counter, pending, none⟩ => s.outbound ⟨counter, pending, none⟩ sent
    | _ => s
  | .cleanup =>
    match s.phase with
    | .connected ⟨counter, pending, none⟩ => s.cleanup ⟨counter, pending, none⟩
    | _ => s
  | .inbound frame =>
    match s.phase with
    | .connected ⟨counter, pending, none⟩ => s.inbound render ⟨counter, pending, none⟩ frame
    | _ => s
  | .publish =>
    match s.phase with
    | .connected ⟨counter, pending, some entry⟩ => s.publish ⟨counter, pending, some entry⟩ entry
    | _ => s
  | .reject =>
    match s.phase with
    | .rejecting => s.reject
    | _ => s
  | .wake =>
    match s.phase with
    | .sleeping => { s with phase := .connecting, status := .reconnecting }
    | _ => s
  | .stop => s.stop

end State

end CodeWide.Transport
