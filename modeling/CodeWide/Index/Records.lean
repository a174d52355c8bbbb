import CodeWide.Lib.Saturating
import CodeWide.Lib.Table
import Mathlib.Order.Nat

/-!
# Turn rows of a session file

`agent-index/src/scan.rs` and `store.rs`.
-/

namespace CodeWide.Index

open Lib Lib.Saturating

inductive Boundary where
  | started (turnId : String)
  | terminal (turnId : String) (completed : Bool)
  | rollback (count : Nat)

inductive Line where
  | boundary (boundary : Boundary)
  | standalone (id : String)
  | other

def Line.boundary? : Line → Option Boundary
  | .boundary b => some b
  | _ => none

def Line.standalone? : Line → Option String
  | .standalone id => some id
  | _ => none

structure Record where
  line : Line
  length : Nat
  durable : 0 < length

structure Placed where
  line : Line
  start : Nat
  stop : Nat

structure TurnRef where
  id : String
  startOffset : Nat
  endOffset : Nat
  completed : Bool
  deriving DecidableEq

/-- Feeds turns to a visitor until it returns `false`; whether it never did. -/
def drain {σ : Type} (visit : σ → TurnRef → σ × Bool) : List TurnRef → σ → σ × Bool
  | [], acc => (acc, true)
  | turn :: turns, acc =>
    match visit acc turn with
    | (acc, true) => drain visit turns acc
    | (acc, false) => (acc, false)

/-- Where a turn without a matching terminal ends, and what closes the others: the state of a
backward reading. -/
structure Backward where
  skipped : Nat
  nextStart : Nat
  terminal : Option (String × Nat × Bool)

/-- The end of a turn from the terminal that was read last, if it names the turn. -/
def Backward.close (b : Backward) (id : String) : Nat × Bool :=
  match b.terminal with
  | some (turnId, stop, completed) => if turnId = id then (stop, completed) else (b.nextStart, false)
  | none => (b.nextStart, false)

def Backward.afterStart (b : Backward) (start : Nat) : Backward :=
  { skipped := b.skipped - 1, nextStart := start, terminal := none }

def Backward.turn (b : Backward) (id : String) (start : Nat) : TurnRef :=
  { id := id, startOffset := start, endOffset := (b.close id).1, completed := (b.close id).2 }

/-- `visit_logical_task_turns_reverse` over the records before a place, newest first. -/
def visitTaskTurns {σ : Type} (visit : σ → TurnRef → σ × Bool) :
    Backward → List Placed → σ → σ
  | _, [], acc => acc
  | b, r :: older, acc =>
    match r.line with
    | .boundary (.rollback count) =>
      visitTaskTurns visit { b with skipped := add64 b.skipped count } older acc
    | .boundary (.terminal turnId completed) =>
      visitTaskTurns visit { b with terminal := some (turnId, r.stop, completed) } older acc
    | .boundary (.started id) =>
      if 0 < b.skipped then visitTaskTurns visit (b.afterStart r.start) older acc
      else
        match visit acc (b.turn id r.start) with
        | (acc, true) => visitTaskTurns visit (b.afterStart r.start) older acc
        | (acc, false) => acc
    | _ => visitTaskTurns visit b older acc

def visitLogicalTaskTurnsReverse {σ : Type} (visit : σ → TurnRef → σ × Bool)
    (records : List Placed) (acc : σ) : σ :=
  visitTaskTurns visit { skipped := 0, nextStart := 0, terminal := none } records acc

def collectRollbackRemovals (seen : List Placed) : Option Boundary → List Nat
  | some (.rollback count) =>
    if count = 0 then []
    else
      (visitLogicalTaskTurnsReverse
        (fun (removed, remaining) turn =>
          ((removed ++ [turn.startOffset], remaining - 1), decide (0 < remaining - 1)))
        seen ([], count)).1
  | _ => []

structure Pending where
  turns : List TurnRef := []
  removedTurns : List Nat := []

structure IndexStore where
  turns : Table Nat TurnRef := ∅
  removedTurns : List Nat := []

def IndexStore.putTurn (store : IndexStore) (turn : TurnRef) : IndexStore :=
  if turn.startOffset ∈ store.removedTurns then store
  else { store with turns := store.turns.insert turn.startOffset turn }

def IndexStore.removeTurn (store : IndexStore) (offset : Nat) : IndexStore :=
  { turns := store.turns.erase offset, removedTurns := store.removedTurns ++ [offset] }

def IndexStore.commit (store : IndexStore) (pending : Pending) : IndexStore :=
  pending.turns.foldl putTurn (pending.removedTurns.foldl removeTurn store)

def IndexStore.newestFirst (store : IndexStore) : List TurnRef :=
  (store.turns.entries.map Prod.snd).reverse

def IndexStore.turnsDesc (store : IndexStore) (beforeOffset : Option Nat) (limit : Nat) :
    List TurnRef :=
  if limit = 0 ∨ beforeOffset = some 0 then []
  else
    let inclusiveEnd := match beforeOffset with
      | none => max64
      | some offset => offset - 1
    (((store.turns.scan fun k => decide (k ≤ inclusiveEnd)).map Prod.snd).reverse).take limit

def IndexStore.turnsAscAfter (store : IndexStore) (afterOffset limit : Nat) : List TurnRef :=
  if limit = 0 ∨ afterOffset = max64 then []
  else
    ((store.turns.scan fun k => decide (add64 afterOffset 1 ≤ k)).map Prod.snd).take limit

def updateTurnIndex (boundary : Option Boundary) (offset length : Nat)
    (activeTurn : Option TurnRef) (turnBatch : List TurnRef) : Option TurnRef × List TurnRef :=
  match boundary with
  | some (.started turnId) =>
    let interrupted := match activeTurn with
      | some turn => [{ turn with endOffset := offset }]
      | none => []
    let turn : TurnRef :=
      { id := turnId, startOffset := offset, endOffset := 0, completed := false }
    (some turn, turnBatch ++ interrupted ++ [turn])
  | some (.terminal turnId completed) =>
    match activeTurn with
    | some turn =>
      if turn.id = turnId then
        (none, turnBatch ++ [{ turn with endOffset := offset + length, completed := completed }])
      else (some turn, turnBatch)
    | none => (none, turnBatch)
  | some (.rollback count) => if 0 < count then (none, turnBatch) else (activeTurn, turnBatch)
  | none => (activeTurn, turnBatch)

def indexStandaloneTurn (line : Line) (offset length : Nat) (activeTurn : Option TurnRef)
    (turnBatch : List TurnRef) : List TurnRef :=
  if activeTurn.isSome then turnBatch
  else
    match line.standalone? with
    | some id => turnBatch ++
        [{ id := id, startOffset := offset, endOffset := offset + length, completed := true }]
    | none => turnBatch

/-- A forward scan: its place, the records before it, newest first, and what is not committed. -/
structure Scan where
  offset : Nat := 0
  seen : List Placed := []
  activeTurn : Option TurnRef := none
  pending : Pending := {}
  store : IndexStore := {}

def Record.placeAt (r : Record) (offset : Nat) : Placed :=
  { line := r.line, start := offset, stop := offset + r.length }

def Scan.read (s : Scan) (r : Record) : Scan :=
  let removed := collectRollbackRemovals s.seen r.line.boundary?
  let (active, turns) :=
    updateTurnIndex r.line.boundary? s.offset r.length s.activeTurn s.pending.turns
  { offset := s.offset + r.length
    seen := r.placeAt s.offset :: s.seen
    activeTurn := active
    pending :=
      { turns := indexStandaloneTurn r.line s.offset r.length active turns
        removedTurns := s.pending.removedTurns ++ removed }
    store := s.store }

def Scan.commit (s : Scan) : Scan :=
  { s with pending := {}, store := s.store.commit s.pending }

def Scan.step (s : Scan) (e : Record × Bool) : Scan :=
  if e.2 then (s.read e.1).commit else s.read e.1

/-- `index_file` from an empty index. The flags say after which records the batch was full. -/
def indexFile (records : List (Record × Bool)) : IndexStore :=
  (records.foldl Scan.step {}).commit.store

def placed (records : List Record) : Nat × List Placed :=
  records.foldl (fun (offset, seen) r => (offset + r.length, r.placeAt offset :: seen)) (0, [])

def durableBytes (records : List Record) : Nat := (records.map Record.length).sum

end CodeWide.Index
