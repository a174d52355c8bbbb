import CodeWide.Lib.Broadcast
import CodeWide.Lib.Table
import Mathlib.Data.String.Basic

/-!
# Entry points of a device

A device opens sync sockets, port forwards, terminals and localhost tunnels.
-/

namespace CodeWide.Server

open Lib

abbrev DeviceId := String

def changesCapacity : Nat := 64

inductive AuthorizationContext where
  | device (deviceId : DeviceId)
  | session (deviceId : DeviceId)

structure Registry where
  devices : Table DeviceId String
  sessions : Table String DeviceId
  /-- The devices whose authorization changed, in the order of the publications. -/
  changes : List DeviceId

namespace Registry

def authorizationContext (r : Registry) (tokenHash : String) : Option AuthorizationContext :=
  match r.devices.entries.find? (fun e => decide (e.2 = tokenHash)) with
  | some (deviceId, _) => some (.device deviceId)
  | none => (r.sessions.get? tokenHash).map .session

def dropSessions (r : Registry) (deviceId : DeviceId) : Registry :=
  { r with sessions := r.sessions.filter (fun e => decide (e.2 ≠ deviceId)) }

def publish (r : Registry) (deviceId : DeviceId) : Registry :=
  { r with changes := r.changes ++ [deviceId] }

def claim (r : Registry) (deviceId : DeviceId) (tokenHash : String) (persisted : Bool) :
    Registry :=
  let existing := r.devices.get? deviceId
  let r := r.dropSessions deviceId
  let r := { r with devices := r.devices.insert deviceId tokenHash }
  if persisted && existing.isSome then r.publish deviceId else r

def revoke (r : Registry) (deviceId : DeviceId) (persisted : Bool) : Registry :=
  if (r.devices.get? deviceId).isSome then
    let r := { r with devices := r.devices.erase deviceId }
    let r := r.dropSessions deviceId
    if persisted then r.publish deviceId else r
  else r

def authenticate (r : Registry) (deviceId : DeviceId) (tokenHash : String) : Registry :=
  if (r.devices.get? deviceId).isSome then
    { r with sessions := r.sessions.insert tokenHash deviceId }
  else r

def expire (r : Registry) (tokenHash : String) : Registry :=
  { r with sessions := r.sessions.erase tokenHash }

end Registry

/-- A device's authorization, and how many changes were published when it was checked. -/
structure Grant where
  deviceId : DeviceId
  since : Nat
deriving DecidableEq

def Registry.grant (r : Registry) (deviceId : DeviceId) : Grant := ⟨deviceId, r.changes.length⟩

def Registry.authenticatedSession (r : Registry) (tokenHash : String) : Option Grant :=
  match r.authorizationContext tokenHash with
  | some (.session deviceId) => some (r.grant deviceId)
  | _ => none

/-- `authorize_sync_transport`: a device's own token counts on a connection whose client
certificate is that device's. -/
def Registry.authorizeSyncTransport (r : Registry) (tokenHash : String) (tls : Option DeviceId) :
    Option Grant :=
  match tls, r.authorizationContext tokenHash with
  | some peer, some (.device deviceId) => if deviceId = peer then some (r.grant deviceId) else none
  | _, _ => r.authenticatedSession tokenHash

structure TerminalQuery where
  sessionId : Option String
  threadId : Option String
  create : Option Bool
deriving DecidableEq

/-- A handler between two of its steps. A position is a receiver of the changes. -/
inductive Task where
  | sync (tokenHash : String) (tls : Option DeviceId)
  | syncSubscribed (tokenHash : String) (tls : Option DeviceId) (changes : Nat)
  | syncAuthorized (grant : Grant) (changes : Nat)
  | forward (tokenHash : String)
  | forwardSubscribed (tokenHash : String) (changes : Nat)
  | forwardAuthorized (grant : Grant) (changes : Nat)
  | forwardConnected (grant : Grant) (changes : Nat)
  | terminal (tokenHash : String) (query : TerminalQuery)
  | terminalAuthorized (grant : Grant) (query : TerminalQuery)
  | terminalSubscribed (grant : Grant) (query : TerminalQuery) (changes : Nat)
  | terminalSpawned (grant : Grant) (sessionId : String) (threadId : Option String)
      (changes : Nat)
  | tunnel (tokenHash : String)
  | tunnelAuthorized (grant : Grant)
  | serving (forward : Bool) (grant : Grant) (changes : Nat)
  | attached (grant : Grant) (terminal : Nat)
  | done
deriving DecidableEq

structure LiveTerminal where
  grant : Grant
  threadId : Option String
  changes : Nat
  running : Bool

structure System where
  registry : Registry
  tasks : Table Nat Task
  nextTask : Nat
  terminals : Table Nat LiveTerminal
  nextTerminal : Nat
  terminalSessions : Table String Nat
  tunnels : Table Nat Grant
  nextTunnel : Nat
  tunnelChanges : Nat

/-- `SessionAuthority::is_valid` within the session's time: nothing about the device is
waiting in the receiver. -/
def isValid (log : List DeviceId) (deviceId : DeviceId) (changes : Nat) : Bool :=
  decide (log.length - changes ≤ changesCapacity) && decide (deviceId ∉ log.drop changes)

namespace System

def start (registry : Registry) : System :=
  ⟨registry, ∅, 0, ∅, 0, ∅, ∅, 0, registry.changes.length⟩

def position (s : System) : Nat := s.registry.changes.length

def attach (s : System) (grant : Grant) (threadId : Option String) (id : Nat) : Task :=
  match s.terminals.get? id with
  | none => .done
  | some existing =>
    if existing.grant.deviceId ≠ grant.deviceId then .done
    else if existing.threadId ≠ threadId then .done
    else .attached grant id

/-- The next step of a handler; with `ok` false what it waits for fails. -/
def advance (s : System) (ok : Bool) : Task → System × Task
  | .sync tokenHash tls => (s, .syncSubscribed tokenHash tls s.position)
  | .syncSubscribed tokenHash tls changes =>
    match s.registry.authorizeSyncTransport tokenHash tls with
    | some grant => (s, .syncAuthorized grant changes)
    | none => (s, .done)
  | .syncAuthorized grant changes => (s, if ok then .serving false grant changes else .done)
  | .forward tokenHash => (s, .forwardSubscribed tokenHash s.position)
  | .forwardSubscribed tokenHash changes =>
    match s.registry.authenticatedSession tokenHash with
    | some grant => (s, .forwardAuthorized grant changes)
    | none => (s, .done)
  | .forwardAuthorized grant changes => (s, if ok then .forwardConnected grant changes else .done)
  | .forwardConnected grant changes =>
    (s, if isValid s.registry.changes grant.deviceId changes then .serving true grant s.position
      else .done)
  | .terminal tokenHash query =>
    match s.registry.authenticatedSession tokenHash with
    | some grant => (s, .terminalAuthorized grant query)
    | none => (s, .done)
  | .terminalAuthorized grant query => (s, .terminalSubscribed grant query s.position)
  | .terminalSubscribed grant query changes =>
    match query.sessionId with
    | none => (s, if ok then .serving false grant changes else .done)
    | some sessionId =>
      match s.terminalSessions.get? sessionId with
      | some id => (s, if ok then s.attach grant query.threadId id else .done)
      | none =>
        if query.create = some false then (s, .done)
        else (s, if ok then .terminalSpawned grant sessionId query.threadId changes else .done)
  | .terminalSpawned grant sessionId threadId changes =>
    match s.terminalSessions.get? sessionId with
    | some id => (s, s.attach grant threadId id)
    | none =>
      ({ s with
          terminals := s.terminals.insert s.nextTerminal ⟨grant, threadId, changes, true⟩
          nextTerminal := s.nextTerminal + 1
          terminalSessions := s.terminalSessions.insert sessionId s.nextTerminal },
        .attached grant s.nextTerminal)
  | .tunnel tokenHash =>
    match s.registry.authenticatedSession tokenHash with
    | some grant => (s, .tunnelAuthorized grant)
    | none => (s, .done)
  | .tunnelAuthorized grant =>
    if ok then
      ({ s with tunnels := s.tunnels.insert s.nextTunnel grant, nextTunnel := s.nextTunnel + 1 },
        .done)
    else (s, .done)
  | .serving forward grant changes => (s, .serving forward grant changes)
  | .attached grant id => (s, .attached grant id)
  | .done => (s, .done)

def hear (s : System) : Task → Task
  | .serving forward grant changes =>
    match Broadcast.receive changesCapacity s.registry.changes changes with
    | (.empty, _) => .serving forward grant changes
    | (.lagged, _) => .done
    | (.next deviceId, changes) =>
      if deviceId = grant.deviceId then .done else .serving forward grant changes
  | task => task

/-- Data passes a port forward only after a look at the changes. -/
def transfer (s : System) : Task → Task
  | .serving true grant changes =>
    if isValid s.registry.changes grant.deviceId changes then .serving true grant s.position
    else .done
  | task => task

def watch (s : System) (terminal : LiveTerminal) : LiveTerminal :=
  match Broadcast.receive changesCapacity s.registry.changes terminal.changes with
  | (.empty, _) => terminal
  | (.lagged, changes) => { terminal with changes, running := false }
  | (.next deviceId, changes) =>
    if deviceId = terminal.grant.deviceId then { terminal with changes, running := false }
    else { terminal with changes }

def cleanTunnels (s : System) : System :=
  match Broadcast.receive changesCapacity s.registry.changes s.tunnelChanges with
  | (.empty, _) => s
  | (.lagged, changes) => { s with tunnels := ∅, tunnelChanges := changes }
  | (.next deviceId, changes) =>
    { s with
      tunnels := s.tunnels.filter (fun e => decide (e.2.deviceId ≠ deviceId))
      tunnelChanges := changes }

/-- The first step of a handler is still to come. -/
def isRequest : Task → Bool
  | .sync _ _ | .forward _ | .terminal _ _ | .tunnel _ => true
  | _ => false

end System

inductive Event where
  | claim (deviceId : DeviceId) (tokenHash : String) (persisted : Bool)
  | revoke (deviceId : DeviceId) (persisted : Bool)
  | authenticate (deviceId : DeviceId) (tokenHash : String)
  | expire (tokenHash : String)
  | request (task : Task)
  | advance (task : Nat) (ok : Bool)
  | hear (task : Nat)
  | transfer (task : Nat)
  | leave (task : Nat)
  | watch (terminal : Nat)
  | exit (terminal : Nat)
  | forgetTerminal (sessionId : String)
  | cleanTunnels
  | endTunnel (tunnel : Nat)

namespace System

def moveTask (s : System) (n : Nat) (f : Task → System × Task) : System :=
  match s.tasks.get? n with
  | none => s
  | some task =>
    let (s, task) := f task
    { s with tasks := s.tasks.insert n task }

def moveTerminal (s : System) (n : Nat) (f : LiveTerminal → LiveTerminal) : System :=
  match s.terminals.get? n with
  | none => s
  | some terminal => { s with terminals := s.terminals.insert n (f terminal) }

def step (s : System) : Event → System
  | .claim deviceId tokenHash persisted =>
    { s with registry := s.registry.claim deviceId tokenHash persisted }
  | .revoke deviceId persisted => { s with registry := s.registry.revoke deviceId persisted }
  | .authenticate deviceId tokenHash =>
    { s with registry := s.registry.authenticate deviceId tokenHash }
  | .expire tokenHash => { s with registry := s.registry.expire tokenHash }
  | .request task =>
    if isRequest task then
      { s with tasks := s.tasks.insert s.nextTask task, nextTask := s.nextTask + 1 }
    else s
  | .advance n ok => s.moveTask n (s.advance ok)
  | .hear n => s.moveTask n (fun task => (s, s.hear task))
  | .transfer n => s.moveTask n (fun task => (s, s.transfer task))
  | .leave n => s.moveTask n (fun _ => (s, .done))
  | .watch n => s.moveTerminal n s.watch
  | .exit n => s.moveTerminal n (fun terminal => { terminal with running := false })
  | .forgetTerminal sessionId => { s with terminalSessions := s.terminalSessions.erase sessionId }
  | .cleanTunnels => s.cleanTunnels
  | .endTunnel n => { s with tunnels := s.tunnels.erase n }

end System

end CodeWide.Server
