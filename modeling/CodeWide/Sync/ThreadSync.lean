import CodeWide.Sync.Socket

/-!
# Thread sync behind a fence

A fenced read puts a fence into the provider's stream; the ingest loop journals what is in front of
it and then resolves it to the journal's head.
-/

namespace CodeWide.Sync

open Lib Store

structure Provider where
  Shell : Type
  Turn : Type
  History : Type
  /-- The native surface refuses a thread that is active without a turn. -/
  native : Bool
  shell : List Json → Shell
  active : Shell → Bool
  turn : List Json → Option Turn
  storedTurn : List Json → Option Turn
  /-- The finished turns, without the given one. -/
  history : List Json → Option Turn → History
  /-- Adds to the active turn what only the stored history knows. -/
  enrich : List Json → Option Turn → Option Turn

inductive Access where
  | observed
  | unloadedSubagent
  | externalWriter
deriving DecidableEq

/-- The active turn is read behind a fence of its own, an external writer's turn from storage. -/
def Provider.fencesTurn (p : Provider) (access : Access) (shell : p.Shell) : Bool :=
  p.active shell && decide (access ≠ .externalWriter)

def Provider.activeTurn (p : Provider) (access : Access) (shell : p.Shell) (events : List Json) :
    Option p.Turn :=
  if p.active shell then
    if access = .externalWriter then p.storedTurn events else p.turn events
  else none

structure Answer (p : Provider) where
  throughCursor : Nat
  access : Access
  thread : p.Shell
  history : p.History
  activeTurn : Option p.Turn

def Provider.answerAt (p : Provider) (throughCursor : Nat) (access : Access)
    (events : List Json) : Answer p :=
  let shell := p.shell events
  let turn := p.activeTurn access shell events
  ⟨throughCursor, access, shell, p.history events turn, p.enrich events turn⟩

/-- A fence, with the number of events emitted and the journal's head when it was set. -/
structure Fence where
  id : Nat
  events : Nat
  head : Nat
deriving DecidableEq

/-- An item of the provider's stream or of the ingest queue. -/
inductive IngestItem where
  | event (payload : Json)
  | other (payload : Json)
  | fence (fence : Fence)
  | pin (op : ReplayOp)

namespace IngestItem

def isPayload : IngestItem → Bool
  | event _ | other _ => true
  | fence _ | pin _ => false

def threadEvent : IngestItem → Option Json
  | event payload => some payload
  | _ => none

end IngestItem

def maxReplayEntries : Nat := 2048

def maxReplayBytes : Nat := 4 * 1024 * 1024

def maxReplayBatchEntries : Nat := 256

inductive SyncTask (p : Provider) where
  | idle
  | started
  | shell (access : Access) (shell : p.Shell) (fence : Fence)
  | turn (access : Access) (shell : p.Shell) (turn : Option p.Turn) (fence : Fence)
  | history (access : Access) (shell : p.Shell) (turn : Option p.Turn) (history : p.History)
      (fence : Fence)
  | enriched (access : Access) (shell : p.Shell) (turn : Option p.Turn) (history : p.History)
      (fence : Fence)
  | done (answer : Answer p)
  | failed

def SyncTask.answer {p : Provider} : SyncTask p → Option (Answer p)
  | .done answer => some answer
  | _ => none

lemma SyncTask.answer_eq_some {p : Provider} {task : SyncTask p} {answer : Answer p} :
    task.answer = some answer ↔ task = .done answer := by
  cases task <;> simp [SyncTask.answer]

/-- The companion around one thread and one socket, with the journaled events of the thread. -/
structure Companion (p : Provider) where
  socket : Socket
  emitted : List Json
  stream : List IngestItem
  queue : List IngestItem
  journaled : List (Nat × Json)
  resolved : List (Fence × Nat)
  nextFence : Nat
  task : SyncTask p

inductive CompanionInput where
  | socket (input : SocketInput)
  | emit (payload : Json)
  | emitOther (payload : Json)
  | fence
  | enqueue (item : IngestItem)
  | forward
  | ingest (size : Nat) (payloads : List Store.Payload)
  | control
  | startSync
  | readShell (access : Access)
  | readTurn
  | readHistory
  | enrichTurn
  | finish
  | fail

namespace Companion

variable {p : Provider}

def initial (p : Provider) : Companion p :=
  ⟨Socket.initial Journal.empty, [], [], [], [], [], 0, .idle⟩

def journal (s : Companion p) : Journal := s.socket.journal

def commit (codec : Codec) (s : Companion p) (op : ReplayOp) : Companion p :=
  { s with socket := s.socket.step codec (.journal op) }

def limits : ReplayLimits := ⟨maxReplayEntries, maxReplayBytes⟩

/-- The payloads in front of the next fence or pin change, as many as one batch takes. -/
def batch (s : Companion p) (size : Nat) : List IngestItem :=
  (s.queue.takeWhile IngestItem.isPayload).take (min size maxReplayBatchEntries)

def ingest (codec : Codec) (s : Companion p) (size : Nat) (payloads : List Store.Payload) :
    Companion p :=
  let batch := s.batch size
  let events := batch.filterMap IngestItem.threadEvent
  if payloads = [] then
    if events = [] then { s with queue := s.queue.drop batch.length } else s
  else if batch = [] then s
  else
    let committed := s.commit codec (.append payloads limits)
    { committed with
      queue := s.queue.drop batch.length
      journaled := s.journaled ++ events.map (fun e => (committed.journal.store.head, e)) }

def control (codec : Codec) (s : Companion p) : Companion p :=
  match s.queue with
  | .fence fence :: rest =>
    { s with queue := rest, resolved := s.resolved ++ [(fence, s.journal.store.head)] }
  | .pin op :: rest => { s.commit codec op with queue := rest }
  | _ => s

def forward (s : Companion p) : Companion p :=
  match s.stream with
  | [] => s
  | item :: rest => { s with stream := rest, queue := s.queue ++ [item] }

/-- Everything but the thread's own events and the provider's fences enters the queue directly. -/
def enqueue (s : Companion p) (item : IngestItem) : Companion p :=
  match item with
  | .other _ => { s with queue := s.queue ++ [item] }
  | .pin (.commitPin request _) => { s with queue := s.queue ++ [.pin (.commitPin request limits)] }
  | .pin (.importPins ids _) => { s with queue := s.queue ++ [.pin (.importPins ids limits)] }
  | _ => s

def newFence (s : Companion p) : Fence := ⟨s.nextFence, s.emitted.length, s.journal.store.head⟩

def setFence (s : Companion p) : Companion p :=
  { s with stream := s.stream ++ [.fence s.newFence], nextFence := s.nextFence + 1 }

/-- `read_thread_shell`. A refused resume is answered by the read that follows it, with
that read's fence. -/
def readShell (s : Companion p) (access : Access) : Companion p :=
  match s.task with
  | .started => { s.setFence with task := .shell access (p.shell s.emitted) s.newFence }
  | _ => s

def readTurn (s : Companion p) : Companion p :=
  match s.task with
  | .shell access shell fence =>
    let turn := p.activeTurn access shell s.emitted
    if p.fencesTurn access shell then
      if p.native && turn.isNone then { s.setFence with task := .failed }
      else { s.setFence with task := .turn access shell turn s.newFence }
    else { s with task := .turn access shell turn fence }
  | _ => s

def readHistory (s : Companion p) : Companion p :=
  match s.task with
  | .turn access shell turn fence =>
    { s with task := .history access shell turn (p.history s.emitted turn) fence }
  | _ => s

def enrichTurn (s : Companion p) : Companion p :=
  match s.task with
  | .history access shell turn history fence =>
    { s with task := .enriched access shell (p.enrich s.emitted turn) history fence }
  | _ => s

def finish (s : Companion p) : Companion p :=
  match s.task with
  | .enriched access shell turn history fence =>
    match s.resolved.lookup fence with
    | none => s
    | some cursor => { s with task := .done ⟨cursor, access, shell, history, turn⟩ }
  | _ => s

def fail (s : Companion p) : Companion p :=
  match s.task with
  | .idle => s
  | .done _ => s
  | _ => { s with task := .failed }

/-- The session reads frames while it is not sending a page itself. -/
def startSync (s : Companion p) : Companion p :=
  match s.socket.phase, s.task with
  | .live _, .idle => { s with task := .started }
  | .snapshot _, .idle => { s with task := .started }
  | .page .live _ _, .idle => { s with task := .started }
  | .sending .live _ _ _, .idle => { s with task := .started }
  | _, _ => s

def socketStep (codec : Codec) (s : Companion p) : SocketInput → Companion p
  | .journal _ => s
  | input => { s with socket := s.socket.step codec input }

def step (codec : Codec) (s : Companion p) : CompanionInput → Companion p
  | .socket input => s.socketStep codec input
  | .emit payload =>
    { s with emitted := s.emitted ++ [payload], stream := s.stream ++ [.event payload] }
  | .emitOther payload => { s with stream := s.stream ++ [.other payload] }
  | .fence => s.setFence
  | .enqueue item => s.enqueue item
  | .forward => s.forward
  | .ingest size payloads => s.ingest codec size payloads
  | .control => s.control codec
  | .startSync => s.startSync
  | .readShell access => s.readShell access
  | .readTurn => s.readTurn
  | .readHistory => s.readHistory
  | .enrichTurn => s.enrichTurn
  | .finish => s.finish
  | .fail => s.fail

end Companion

end CodeWide.Sync
