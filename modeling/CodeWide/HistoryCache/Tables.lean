import CodeWide.Lib.Json
import CodeWide.Lib.Run

/-!
# The tables of the history cache

The head of a thread, the chains of its epochs, content revisions with their items, turn positions,
the members of an epoch, and pending rows.
-/

namespace CodeWide.HistoryCache

open Lib

structure Scope where
  connectionId : String
  threadId : String
  deriving DecidableEq

inductive ContentKind where
  | turn
  | turnMeta
  | activity
  deriving DecidableEq

/-- The envelope of a content row: its fields without epoch, ordinal and the items of its turn or
activity. -/
structure Payload where
  scope : Scope
  turnId : Option String
  kind : ContentKind
  isSealed : Bool
  fields : Json
  deriving DecidableEq

/-- A turn row or an overlay of one; `items` are those of its turn or activity. -/
structure ContentRow where
  id : String
  epoch : Int
  ordinal : Int
  payload : Payload
  items : List Json
  deriving DecidableEq

def ContentRow.storedItems (row : ContentRow) : List Json :=
  if row.payload.kind = .turnMeta then [] else row.items

/-- The chain facts of a thread row; a field is missing, null or a value. -/
structure Facts where
  cursor : Option (Option String)
  hadTurns : Option Bool
  minOrdinal : Option (Option Int)
  maxOrdinal : Option (Option Int)
  deriving DecidableEq

structure ThreadRow where
  id : String
  scope : Scope
  epoch : Int
  facts : Facts
  fields : Json
  deriving DecidableEq

structure PendingRow where
  id : String
  scope : Scope
  epoch : Int
  ordinal : Int
  payload : Json
  deriving DecidableEq

def PendingRow.confirmed (row : PendingRow) : Bool :=
  (row.payload.getPath? ["pending", "confirmation"]).isSome

inductive Row where
  | thread (row : ThreadRow)
  | content (row : ContentRow)
  | pending (row : PendingRow)
  deriving DecidableEq

def Row.id : Row → String
  | .thread row => row.id
  | .content row => row.id
  | .pending row => row.id

structure Head where
  key : String
  scope : Scope
  activeEpoch : Int
  fields : Json
  deriving DecidableEq

structure Chain where
  scope : Scope
  epoch : Int
  cursor : Option String
  cursorKnown : Bool
  hadTurns : Option Bool
  minOrdinal : Option Int
  minKnown : Bool
  maxOrdinal : Option Int
  maxKnown : Bool

structure Content where
  contentId : Nat
  key : String
  payload : Payload

structure Item where
  contentId : Nat
  payload : Json

structure Position where
  scope : Scope
  epoch : Int
  turnId : String
  ordinal : Int
  deriving DecidableEq

structure Member where
  scope : Scope
  epoch : Int
  key : String
  contentId : Nat
  turnId : String

structure Tables where
  heads : List Head
  chains : List Chain
  content : List Content
  items : List Item
  turns : List Position
  members : List Member
  pending : List PendingRow
  nextContent : Nat

def Tables.empty : Tables := ⟨[], [], [], [], [], [], [], 0⟩

/-- The declared primary keys and unique columns. -/
structure Tables.Unique (s : Tables) : Prop where
  heads : (s.heads.map Head.scope).Nodup
  headKeys : (s.heads.map Head.key).Nodup
  chains : (s.chains.map fun g => (g.scope, g.epoch)).Nodup
  content : (s.content.map Content.contentId).Nodup
  turns : (s.turns.map fun p => (p.scope, p.epoch, p.turnId)).Nodup
  members : (s.members.map fun m => (m.scope, m.epoch, m.key)).Nodup
  pending : (s.pending.map PendingRow.id).Nodup

/-- The member's revision, of the same thread, turn and key. -/
def Content.isOf (c : Content) (m : Member) : Prop :=
  c.contentId = m.contentId ∧ c.payload.scope = m.scope ∧ c.payload.turnId = some m.turnId ∧
    c.key = m.key

def Position.isOf (p : Position) (m : Member) : Prop :=
  p.scope = m.scope ∧ p.epoch = m.epoch ∧ p.turnId = m.turnId

instance (c : Content) (m : Member) : Decidable (c.isOf m) := inferInstanceAs (Decidable (_ ∧ _))

instance (p : Position) (m : Member) : Decidable (p.isOf m) := inferInstanceAs (Decidable (_ ∧ _))

/-- The declared foreign keys. -/
structure Tables.References (s : Tables) : Prop where
  heads : ∀ h ∈ s.heads, ∃ g ∈ s.chains, g.scope = h.scope ∧ g.epoch = h.activeEpoch
  items : ∀ i ∈ s.items, ∃ c ∈ s.content, c.contentId = i.contentId
  turns : ∀ p ∈ s.turns, ∃ g ∈ s.chains, g.scope = p.scope ∧ g.epoch = p.epoch
  content : ∀ m ∈ s.members, ∃ c ∈ s.content, c.isOf m
  positions : ∀ m ∈ s.members, ∃ p ∈ s.turns, p.isOf m

instance (s : Tables) : Decidable s.Unique :=
  decidable_of_iff
    ((s.heads.map Head.scope).Nodup ∧ (s.heads.map Head.key).Nodup ∧
      (s.chains.map fun g => (g.scope, g.epoch)).Nodup ∧
      (s.content.map Content.contentId).Nodup ∧
      (s.turns.map fun p => (p.scope, p.epoch, p.turnId)).Nodup ∧
      (s.members.map fun m => (m.scope, m.epoch, m.key)).Nodup ∧
      (s.pending.map PendingRow.id).Nodup)
    ⟨fun ⟨h₁, h₂, h₃, h₄, h₅, h₆, h₇⟩ => ⟨h₁, h₂, h₃, h₄, h₅, h₆, h₇⟩,
      fun h => ⟨h.heads, h.headKeys, h.chains, h.content, h.turns, h.members, h.pending⟩⟩

instance (s : Tables) : Decidable s.References :=
  decidable_of_iff
    ((∀ h ∈ s.heads, ∃ g ∈ s.chains, g.scope = h.scope ∧ g.epoch = h.activeEpoch) ∧
      (∀ i ∈ s.items, ∃ c ∈ s.content, c.contentId = i.contentId) ∧
      (∀ p ∈ s.turns, ∃ g ∈ s.chains, g.scope = p.scope ∧ g.epoch = p.epoch) ∧
      (∀ m ∈ s.members, ∃ c ∈ s.content, c.isOf m) ∧
      ∀ m ∈ s.members, ∃ p ∈ s.turns, p.isOf m)
    ⟨fun ⟨h₁, h₂, h₃, h₄, h₅⟩ => ⟨h₁, h₂, h₃, h₄, h₅⟩,
      fun h => ⟨h.heads, h.items, h.turns, h.content, h.positions⟩⟩

/-- The constraints of the schema. -/
def Tables.Sound (s : Tables) : Prop := s.Unique ∧ s.References

instance (s : Tables) : Decidable s.Sound := inferInstanceAs (Decidable (_ ∧ _))

def upsert {α : Type} (conflict : α → Bool) (update : α → α) (row : α) (table : List α) : List α :=
  if table.any conflict then table.map fun old => if conflict old then update old else old
  else table ++ [row]

namespace Tables

variable (s : Tables)

def deleteContent (doomed : Content → Bool) : Tables :=
  { s with
    content := s.content.filter (!doomed ·)
    items := s.items.filter fun i => !s.content.any fun c => c.contentId = i.contentId && doomed c }

def deleteChains (doomed : Chain → Bool) : Tables :=
  let gone (scope : Scope) (epoch : Int) : Bool :=
    s.chains.any fun g => g.scope = scope && g.epoch = epoch && doomed g
  { s with
    chains := s.chains.filter (!doomed ·)
    turns := s.turns.filter fun p => !gone p.scope p.epoch
    members := s.members.filter fun m => !gone m.scope m.epoch }

def itemsOf (contentId : Nat) : List Json :=
  (s.items.filter fun i => i.contentId = contentId).map Item.payload

def persistPending (row : PendingRow) : Tables :=
  if s.content.any fun c => c.key = row.id && c.payload.kind = .turn then s
  else
    { s with
      pending := upsert (fun p => p.id = row.id)
        (fun p => if p.confirmed then p
          else { p with payload := row.payload, ordinal := row.ordinal, epoch := row.epoch })
        row s.pending }

def addChain (scope : Scope) (epoch : Int) : Tables :=
  { s with
    chains := upsert (fun g => g.scope = scope && g.epoch = epoch) id
      ⟨scope, epoch, none, false, none, none, false, none, false⟩ s.chains }

def chainOf (row : ThreadRow) : Chain where
  scope := row.scope
  epoch := row.epoch
  cursor := row.facts.cursor.join
  cursorKnown := row.facts.cursor.isSome
  hadTurns := row.facts.hadTurns
  minOrdinal := row.facts.minOrdinal.join
  minKnown := row.facts.minOrdinal.isSome
  maxOrdinal := row.facts.maxOrdinal.join
  maxKnown := row.facts.maxOrdinal.isSome

def persistThread (row : ThreadRow) : Tables :=
  let s := s.addChain row.scope row.epoch
  { s with
    chains := upsert (fun g => g.scope = row.scope && g.epoch = row.epoch)
      (fun _ => chainOf row) (chainOf row) s.chains
    heads := upsert (fun h => h.key = row.id)
      (fun h => { h with activeEpoch := row.epoch, fields := row.fields })
      ⟨row.id, row.scope, row.epoch, row.fields⟩ s.heads }

def revisionOf (row : ContentRow) : Option Nat :=
  ((s.content.filter fun c =>
    c.key = row.id && c.payload = row.payload && s.itemsOf c.contentId = row.storedItems).getLast?).map
      Content.contentId

def insertRevision (row : ContentRow) : Tables :=
  { s with
    content := s.content ++ [⟨s.nextContent, row.id, row.payload⟩]
    items := s.items ++ row.storedItems.map (Item.mk s.nextContent)
    nextContent := s.nextContent + 1 }

def putPosition (row : ContentRow) (turnId : String) : Tables :=
  { s with
    turns := upsert
      (fun p => p.scope = row.payload.scope && p.epoch = row.epoch && p.turnId = turnId)
      (fun p => if row.payload.kind = .turn then { p with ordinal := row.ordinal } else p)
      ⟨row.payload.scope, row.epoch, turnId, row.ordinal⟩ s.turns }

def isMember (row : ContentRow) (m : Member) : Bool :=
  m.scope = row.payload.scope && m.epoch = row.epoch && m.key = row.id

def putMember (row : ContentRow) (turnId : String) (contentId : Nat) : Tables :=
  let members := upsert (isMember row) (fun m => { m with contentId := contentId })
    ⟨row.payload.scope, row.epoch, row.id, contentId, turnId⟩ s.members
  ({ s with members := members } : Tables).deleteContent fun c =>
    s.members.any (fun m => isMember row m && m.contentId = c.contentId &&
      decide (m.contentId ≠ contentId)) &&
    !members.any fun m => m.contentId = c.contentId

def persistContent (row : ContentRow) : Option Tables :=
  row.payload.turnId.map fun turnId =>
    let s := s.addChain row.payload.scope row.epoch
    let (s, contentId) := match s.revisionOf row with
      | some contentId => (s, contentId)
      | none => (s.insertRevision row, s.nextContent)
    let s := (s.putPosition row turnId).putMember row turnId contentId
    { s with pending := s.pending.filter fun p => p.id ≠ row.id }

def persistHistoryRow : Row → Option Tables
  | .thread row => some (s.persistThread row)
  | .content row => s.persistContent row
  | .pending row => some (s.persistPending row)

def threadRow (h : Head) (g : Chain) : ThreadRow where
  id := h.key
  scope := h.scope
  epoch := h.activeEpoch
  fields := h.fields
  facts :=
    { cursor := if g.cursorKnown then some g.cursor else none
      hadTurns := g.hadTurns
      minOrdinal := if g.minKnown then some g.minOrdinal else none
      maxOrdinal := if g.maxKnown then some g.maxOrdinal else none }

def viewThread (h : Head) : Option Row :=
  (s.chains.find? fun g => g.scope = h.scope && g.epoch = h.activeEpoch).map fun g =>
    .thread (threadRow h g)

def viewMember (m : Member) : Option Row :=
  (s.content.find? fun c => c.contentId = m.contentId).bind fun c =>
    (s.turns.find? fun p => p.isOf m).bind fun p =>
      (s.heads.find? fun h => h.scope = m.scope && h.activeEpoch = m.epoch).map fun _ =>
        .content ⟨m.key, m.epoch, p.ordinal, c.payload,
          if c.payload.kind = .turnMeta then [] else s.itemsOf c.contentId⟩

def view : List Row :=
  s.heads.filterMap s.viewThread ++ s.members.filterMap s.viewMember ++ s.pending.map .pending

def deleteRow (row : Row) : Tables :=
  let s : Tables := { s with members := s.members.filter fun m => m.key ≠ row.id }
  let s := s.deleteContent fun c => c.key = row.id
  let s : Tables := { s with
    pending := s.pending.filter fun p => p.id ≠ row.id
    heads := s.heads.filter fun h => h.key ≠ row.id }
  match row with
  | .thread row => s.deleteChains fun g => g.scope = row.scope
  | _ => s

def fallback (h : Head) : Option Int :=
  ((s.chains.filter fun g => g.scope = h.scope && decide (g.epoch ≠ h.activeEpoch)).map
    Chain.epoch).max?

def collectUnreferencedHistoryContent : Tables :=
  let s := s.deleteChains fun g => s.heads.any fun h =>
    h.scope = g.scope && decide (h.activeEpoch ≠ g.epoch) && decide (some g.epoch ≠ s.fallback h)
  let s : Tables := { s with turns := s.turns.filter fun p => s.members.any fun m => p.isOf m }
  s.deleteContent fun c => !s.members.any fun m => m.contentId = c.contentId

inductive Op where
  | persist (row : Row)
  | delete (row : Row)
  | collect

def apply : Op → Option Tables
  | .persist row => s.persistHistoryRow row
  | .delete row => if row ∈ s.view then some (s.deleteRow row) else some s
  | .collect => some s.collectUnreferencedHistoryContent

def run (op : Op) : Option Tables := (s.apply op).bind fun t => if t.Sound then some t else none

def step (op : Op) : Tables := (s.run op).getD s

end Tables

end CodeWide.HistoryCache
