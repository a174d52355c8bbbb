import CodeWide.Lib.Chain
import CodeWide.Store.ReplayWindow
import CodeWide.Sync.Interest

/-!
# One sync socket over the journal

`accept_hello`, the loop that reads the device's frames, and the live task interleave at their
reads and sends.
-/

namespace CodeWide.Sync

open Lib Store

/-- Who sends a page: the session itself, after a hello or a snapshot, or the live task. -/
inductive Site where
  | catchUp
  | live

/-- The cursor behind which the live task continues after a page. -/
def Site.resume : Site → Nat → Nat → Nat
  | .catchUp, head, _ => head
  | .live, _, position => position

lemma Site.resume_self (site : Site) (n : Nat) : site.resume n n = n := by
  cases site <;> rfl

inductive Phase where
  | hello
  | snapshot (cursor : Nat)
  | page (site : Site) (position : Nat) (page : ReplayPage)
  | sending (site : Site) (delivery : ReplayDelivery) (rest : List (Nat × Store.Payload)) (head : Nat)
  | live (delivered : Nat)
  | closed

/-- A journal entry that passed through a delivery, with the threads it was judged by. -/
structure Handled where
  cursor : Nat
  payload : Store.Payload
  threads : Finset String

/-- What happened on the socket, and for every finished page its head with the position it left. -/
structure Trace where
  start : Option Nat
  frames : List StreamFrame
  handled : List Handled
  pages : List (Nat × Nat)

namespace Trace

def empty : Trace := ⟨none, [], [], []⟩

def startedAt (t : Trace) (position : Nat) : Trace := { t with start := some position }

/-- An entry was judged by a delivery, and sent as the frame if there is one. -/
def entry (t : Trace) (e : Nat × Store.Payload) (threads : Finset String) (frame : Option StreamFrame) :
    Trace :=
  { t with
    frames := t.frames ++ frame.toList
    handled := t.handled ++ [⟨e.1, e.2, threads⟩] }

def page (t : Trace) (head position : Nat) (frame : Option StreamFrame) : Trace :=
  { t with
    frames := t.frames ++ frame.toList
    pages := t.pages ++ [(head, position)] }

end Trace

structure Socket where
  journal : Journal
  interest : SocketInterest
  phase : Phase
  trace : Trace

/-- What the live task receives from the hub's broadcast channel. -/
inductive LiveSignal where
  | committed (head : Nat)
  | failed
  | lagged
  | closed

inductive SocketInput where
  | journal (op : ReplayOp)
  | receive (message : Json)
  | signal (signal : LiveSignal)
  | takeInterest
  | deliver (projected : Option Json)
  | drop

namespace Socket

def initial (journal : Journal) : Socket :=
  ⟨journal, SocketInterest.empty, .hello, Trace.empty⟩

def close (s : Socket) : Socket := { s with phase := .closed }

inductive ListStreamRejection where
  | required
  | invalid
deriving DecidableEq

def helloVisibility (hello : Json) : Except ListStreamRejection Bool :=
  match hello.get? "listStream" with
  | none => .error .required
  | some list =>
    match (list.get? "visible").bind Json.asBool? with
    | none => .error .invalid
    | some visible => .ok visible

def frameVisibility (frame : Json) : Except ListStreamRejection Bool :=
  match (frame.get? "visible").bind Json.asBool? with
  | none => .error .invalid
  | some visible => .ok visible

def messageType (message : Json) : Option String := (message.get? "type").bind Json.asStr?

def messageCursor (message : Json) : Option Nat := (message.get? "cursor").bind Json.asU64?

/-- `accept_hello`. A cursor the journal cannot replay, like a missing one, waits for a
snapshot at the head. -/
def acceptHello (s : Socket) (hello : Json) : Socket :=
  if messageType hello ≠ some "hello" ∨
      (hello.get? "protocolVersion").bind Json.asU64? ≠ some 1 then s.close
  else
    match SocketInterest.fromHello hello, helloVisibility hello with
    | .ok interest, .ok _ =>
      let cursor := messageCursor hello
      let replay := replayAfter s.journal.store cursor
      match cursor.filter (fun _ => !replay.snapshotRequired) with
      | some position =>
        { s with
          interest
          phase := .page .catchUp position replay
          trace := s.trace.startedAt position }
      | none => { s with interest, phase := .snapshot replay.headCursor }
    | _, _ => s.close

def snapshotApplied (s : Socket) (pending : Option Nat) (message : Json) : Socket :=
  match messageCursor message with
  | none => s.close
  | some applied =>
    if pending ≠ some applied then s.close
    else
      let replay := replayAfter s.journal.store (some applied)
      if replay.snapshotRequired then { s with phase := .snapshot replay.headCursor }
      else
        { s with
          phase := .page .catchUp applied replay
          trace := s.trace.startedAt applied }

def interestFrame (s : Socket) (message : Json) : Socket :=
  match s.interest.apply message with
  | .error _ => s.close
  | .ok (interest, _) => { s with interest }

def otherFrames : List String :=
  ["ping", "ack", "liveSubscribe", "liveUnsubscribe", "rpc", "serverResponse"]

def sessionMessage (s : Socket) (pending : Option Nat) (message : Json) : Socket :=
  match messageType message with
  | none => s.close
  | some type =>
    if type = "snapshotApplied" then s.snapshotApplied pending message
    else if type = "interest" then s.interestFrame message
    else if type = "listStream" then
      match frameVisibility message with
      | .error _ => s.close
      | .ok _ => s
    else if type ∈ otherFrames then s
    else s.close

/-- Reads a text frame, when the session is at a point where it reads one. -/
def receive (s : Socket) (message : Json) : Socket :=
  match s.phase with
  | .hello => s.acceptHello message
  | .snapshot cursor => s.sessionMessage (some cursor) message
  | .live _ => s.sessionMessage none message
  | .page .live _ _ => s.sessionMessage none message
  | .sending .live _ _ _ => s.sessionMessage none message
  | _ => s

def readLive (s : Socket) (delivered : Nat) : Socket :=
  let replay := replayAfter s.journal.store (some delivered)
  if replay.snapshotRequired then s.close
  else { s with phase := .page .live delivered replay }

def signal (s : Socket) (signal : LiveSignal) : Socket :=
  match s.phase with
  | .live delivered =>
    match signal with
    | .committed head => if head ≤ delivered then s else s.readLive delivered
    | .lagged => s.readLive delivered
    | .failed => s.close
    | .closed => s.close
  | _ => s

def takeInterest (s : Socket) : Socket :=
  match s.phase with
  | .page site position page =>
    { s with
      phase := .sending site (ReplayDelivery.new s.interest position) page.entries page.headCursor }
  | _ => s

def deliverEntry (codec : Codec) (s : Socket) (site : Site) (d : ReplayDelivery)
    (entry : Nat × Store.Payload) (rest : List (Nat × Store.Payload)) (head : Nat)
    (projected : Option Json) : Socket :=
  match codec.parse entry.2 with
  | none => s.close
  | some payload =>
    if d.delivers payload then
      match projected with
      | none => s.close
      | some value =>
        let (frame, next) := d.eventFrame entry.1 value
        { s with
          phase := .sending site next rest head
          trace := s.trace.entry entry d.threads (some frame) }
    else
      { s with
        phase := .sending site d rest head
        trace := s.trace.entry entry d.threads none }

def finishPage (s : Socket) (site : Site) (d : ReplayDelivery) (head : Nat) : Socket :=
  let closing := d.advanceFrame head
  { s with
    phase := .live (site.resume head closing.2.position.cursor)
    trace := s.trace.page head closing.2.position.cursor closing.1 }

def deliver (codec : Codec) (s : Socket) (projected : Option Json) : Socket :=
  match s.phase with
  | .sending site d (entry :: rest) head => s.deliverEntry codec site d entry rest head projected
  | .sending site d [] head => s.finishPage site d head
  | _ => s

def step (codec : Codec) (s : Socket) : SocketInput → Socket
  | .journal op => { s with journal := s.journal.step codec op }
  | .receive message => s.receive message
  | .signal sig => s.signal sig
  | .takeInterest => s.takeInterest
  | .deliver projected => s.deliver codec projected
  | .drop => s.close

end Socket

end CodeWide.Sync
