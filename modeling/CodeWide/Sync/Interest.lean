import CodeWide.Lib.Json
import Mathlib.Data.Finset.Basic
import Mathlib.Data.Finset.Card

/-!
# The interest of one socket

`sync/interest.rs`: the threads a socket follows, the predicate that decides which journal entries
it receives, and the position its stream frames move.
-/

namespace CodeWide.Sync

open Lib

def threadTopicKinds : List String :=
  ["itemTextDelta", "reasoningDelta", "reasoningPart", "turnPlan", "turnDiff", "fileChanges",
    "mcpProgress", "tokenUsage", "threadProgress", "itemUpsert"]

def catalogItemTypes : List String :=
  ["userMessage", "agentMessage", "collabAgentToolCall", "subAgentActivity", "contextCompaction"]

def catalogDynamicTools : List String := ["codewide_spawn_agent"]

def maxInterestThreads : Nat := 64

def maxInterestThreadIdChars : Nat := 256

def threadPatchField : String := "codewideThreadPatch"

/-- Why a hello or an `interest` frame closes the socket. -/
inductive InterestRejection where
  | interestRequired
  | invalidInterest
  | interestLimitExceeded
deriving DecidableEq

def InterestRejection.reason : InterestRejection → String
  | interestRequired => "interest_required"
  | invalidInterest => "invalid_interest"
  | interestLimitExceeded => "interest_limit_exceeded"

structure InterestChange where
  added : Nat
  removed : Nat
  threads : Nat

def threadId (item : Json) : Except InterestRejection String :=
  match item.asStr? with
  | none => .error .invalidInterest
  | some id =>
    if id.isEmpty || decide (id.length > maxInterestThreadIdChars) then .error .invalidInterest
    else .ok id

def threadIds (list : Json) : Except InterestRejection (List String) :=
  match list.asArr? with
  | none => .error .invalidInterest
  | some items =>
    if items.length > maxInterestThreads then .error .invalidInterest
    else items.mapM threadId

structure SocketInterest where
  threads : Finset String
  bounded : threads.card ≤ maxInterestThreads
deriving DecidableEq

namespace SocketInterest

def empty : SocketInterest := ⟨∅, by decide⟩

def ofThreads (threads : Finset String) : Except InterestRejection SocketInterest :=
  if h : threads.card ≤ maxInterestThreads then .ok ⟨threads, h⟩
  else .error .interestLimitExceeded

def fromHello (hello : Json) : Except InterestRejection SocketInterest :=
  match hello.get? "interest" with
  | none => .error .interestRequired
  | some interest => do
    let ids ← threadIds interest
    ofThreads ids.toFinset

def optionalIds : Option Json → Except InterestRejection (List String)
  | none => .ok []
  | some list => threadIds list

def apply (s : SocketInterest) (frame : Json) :
    Except InterestRejection (SocketInterest × InterestChange) := do
  let added ← optionalIds (frame.get? "add")
  let removed ← optionalIds (frame.get? "remove")
  let next ← ofThreads ((s.threads ∪ added.toFinset) \ removed.toFinset)
  .ok (next, ⟨added.length, removed.length, next.threads.card⟩)

end SocketInterest

def isCatalogItem (payload : Json) : Bool :=
  match payload.getPath? ["params", "item"] with
  | none => false
  | some item =>
    match (item.get? "type").bind Json.asStr? with
    | none => false
    | some type =>
      if type = "dynamicToolCall" then
        ((item.get? "tool").bind Json.asStr?).any (catalogDynamicTools.contains ·)
      else catalogItemTypes.contains type

def deliversTo (threads : Finset String) (payload : Json) : Bool :=
  match payload.get? threadPatchField with
  | none => true
  | some patch =>
    match (patch.getPath? ["operation", "kind"]).bind Json.asStr? with
    | none => true
    | some kind =>
      if !threadTopicKinds.contains kind || (kind == "itemUpsert" && isCatalogItem payload) then
        true
      else
        ((patch.get? "threadId").bind Json.asStr?).all (fun id => decide (id ∈ threads))

structure SocketPosition where
  cursor : Nat

structure Advance where
  cursor : Nat
  afterCursor : Nat

namespace SocketPosition

def nextEvent (p : SocketPosition) (cursor : Nat) : Nat × SocketPosition := (p.cursor, ⟨cursor⟩)

/-- Closes the skipped tail up to `head` when the position is behind it. -/
def advanceTo (p : SocketPosition) (head : Nat) : Option Advance × SocketPosition :=
  if head ≤ p.cursor then (none, p) else (some ⟨head, p.cursor⟩, ⟨head⟩)

end SocketPosition

inductive StreamFrame where
  | event (cursor afterCursor : Nat) (payload : Json)
  | advance (cursor afterCursor : Nat)
deriving DecidableEq

namespace StreamFrame

def wire : StreamFrame → Json
  | event cursor afterCursor payload =>
    .ofFields [("type", .str "event"), ("cursor", .int cursor), ("afterCursor", .int afterCursor),
      ("payload", payload)]
  | advance cursor afterCursor =>
    .ofFields [("type", .str "advance"), ("cursor", .int cursor), ("afterCursor", .int afterCursor)]

def link : StreamFrame → Nat × Nat
  | event cursor afterCursor _ | advance cursor afterCursor => (afterCursor, cursor)

def eventCursor : StreamFrame → Option Nat
  | event cursor _ _ => some cursor
  | advance _ _ => none

end StreamFrame

structure ReplayDelivery where
  threads : Finset String
  position : SocketPosition

namespace ReplayDelivery

def new (interest : SocketInterest) (position : Nat) : ReplayDelivery :=
  ⟨interest.threads, ⟨position⟩⟩

def delivers (d : ReplayDelivery) (payload : Json) : Bool := deliversTo d.threads payload

def eventFrame (d : ReplayDelivery) (cursor : Nat) (payload : Json) :
    StreamFrame × ReplayDelivery :=
  let (afterCursor, position) := d.position.nextEvent cursor
  (.event cursor afterCursor payload, { d with position })

/-- The frame that closes the skipped tail of the page, if there is one. -/
def advanceFrame (d : ReplayDelivery) (head : Nat) : Option StreamFrame × ReplayDelivery :=
  let (advance, position) := d.position.advanceTo head
  (advance.map (fun a => .advance a.cursor a.afterCursor), { d with position })

end ReplayDelivery

end CodeWide.Sync
