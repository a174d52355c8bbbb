import CodeWide.Lib.Json
import CodeWide.Lib.Run
import CodeWide.Lib.Table
import CodeWide.Messages.DeliveryReceipts

/-!
# Skipped row writes

`writeRow` does not write a row that `sameThreadDetailRow` takes for the stored one.
-/

namespace CodeWide.Projection

open Lib Messages

inductive RowKind where
  | thread
  | turn
  | turnMeta
  | activity
  | pending
deriving DecidableEq

/-- A turn and a list of items stand for their references, which change with their contents. -/
@[ext]
structure ThreadDetailRow (Turn Items : Type) where
  activityItems : Option Items
  connectionId : String
  currentOutcome : Option Json
  currentUsage : Option Json
  historyCoverageMaxOrdinal : Option (Option Int)
  historyCoverageMinOrdinal : Option (Option Int)
  historyCursor : Option (Option String)
  historyEpoch : Int
  historyHadTurns : Option Bool
  historySourceWitness : Option String
  id : String
  kind : RowKind
  lastOpenedAt : Int
  ordinal : Int
  pending : Option (Option (PendingTimelineEntry Json))
  projectionCursor : Option Int
  remoteThreadId : String
  remoteTurnId : Option String
  sealed : Bool
  sessionId : Option String
  thread : Json
  turn : Option Turn
  turnMetadata : Json

variable {Turn Items : Type} [DecidableEq Turn] [DecidableEq Items]

def samePendingTimelineEntry (left right : PendingTimelineEntry Json) : Bool :=
  left.commandId = right.commandId && left.method = right.method &&
    left.presentation = right.presentation && left.workspaceRequestId = right.workspaceRequestId &&
    left.text = right.text && left.attachments = right.attachments &&
    left.delivery.state = right.delivery.state &&
    left.delivery.confirmation.map CommandReceipt.turnId =
      right.delivery.confirmation.map CommandReceipt.turnId &&
    left.delivery.confirmation.map CommandReceipt.itemId =
      right.delivery.confirmation.map CommandReceipt.itemId &&
    left.attempts = right.attempts && left.lastError = right.lastError &&
    left.createdAt = right.createdAt && left.updatedAt = right.updatedAt && left.order = right.order

def sameThreadDetailRow (previous next : ThreadDetailRow Turn Items) : Bool :=
  if previous.kind ≠ next.kind ∨ previous.id ≠ next.id ∨
      previous.historyEpoch ≠ next.historyEpoch ∨ previous.historyCursor ≠ next.historyCursor ∨
      previous.historyHadTurns ≠ next.historyHadTurns ∨
      previous.historyCoverageMinOrdinal ≠ next.historyCoverageMinOrdinal ∨
      previous.historyCoverageMaxOrdinal ≠ next.historyCoverageMaxOrdinal ∨
      previous.ordinal ≠ next.ordinal ∨ previous.sessionId ≠ next.sessionId ∨
      previous.lastOpenedAt ≠ next.lastOpenedAt ∨ previous.sealed ≠ next.sealed then
    false
  else
    match next.kind with
    | .turn => previous.turn = next.turn
    | .pending =>
      match previous.pending, next.pending with
      | some (some left), some (some right) => samePendingTimelineEntry left right
      | _, _ => false
    | .activity => previous.activityItems = next.activityItems
    | .turnMeta => previous.turnMetadata = next.turnMetadata
    | .thread =>
      previous.thread = next.thread && previous.currentUsage = next.currentUsage &&
        previous.currentOutcome = next.currentOutcome

abbrev Source (Turn Items : Type) := Table String (ThreadDetailRow Turn Items)

def writeRow (source : Source Turn Items) (write : String × ThreadDetailRow Turn Items) :
    Source Turn Items :=
  match source.get? write.1 with
  | none => source.insert write.1 write.2
  | some previous =>
    if sameThreadDetailRow previous write.2 then source else source.insert write.1 write.2

/-- The rows agree in the fields that are compared for no row of their kind. -/
structure AgreesHidden (previous next : ThreadDetailRow Turn Items) : Prop where
  connectionId : previous.connectionId = next.connectionId
  remoteThreadId : previous.remoteThreadId = next.remoteThreadId
  remoteTurnId : previous.remoteTurnId = next.remoteTurnId
  historySourceWitness : previous.historySourceWitness = next.historySourceWitness
  projectionCursor : previous.projectionCursor = next.projectionCursor
  turn : next.kind ≠ .turn → previous.turn = next.turn
  activityItems : next.kind ≠ .activity → previous.activityItems = next.activityItems
  turnMetadata : next.kind ≠ .turnMeta → previous.turnMetadata = next.turnMetadata
  thread : next.kind ≠ .thread → previous.thread = next.thread ∧
    previous.currentUsage = next.currentUsage ∧ previous.currentOutcome = next.currentOutcome
  pending : next.kind ≠ .pending → previous.pending = next.pending
  -- of a confirmation, only the turn and the item are compared
  receipt : ∀ left right, previous.pending = some (some left) → next.pending = some (some right) →
    left.delivery.confirmation.map (fun c => (c.commandId, c.threadId)) =
      right.delivery.confirmation.map (fun c => (c.commandId, c.threadId))

lemma eq_of_samePending {left right : PendingTimelineEntry Json}
    (hsame : samePendingTimelineEntry left right = true)
    (hreceipt : left.delivery.confirmation.map (fun c => (c.commandId, c.threadId)) =
      right.delivery.confirmation.map (fun c => (c.commandId, c.threadId))) : left = right := by
  obtain ⟨_, _, _, _, _, _, _, _, _, _, _, delivery⟩ := left
  obtain ⟨_, _, _, _, _, _, _, _, _, _, _, other⟩ := right
  simp only [samePendingTimelineEntry, Bool.and_eq_true, decide_eq_true_eq] at hsame hreceipt
  have hdelivery : delivery = other := by
    obtain ⟨⟨⟨⟨⟨⟨⟨⟨-, hstate⟩, hturn⟩, hitem⟩, -⟩, -⟩, -⟩, -⟩, -⟩ := hsame
    cases delivery with
    | unconfirmed state =>
      cases other with
      | unconfirmed state' => exact congrArg Delivery.unconfirmed hstate
      | confirmed receipt => cases hturn
    | confirmed receipt =>
    cases other with
    | unconfirmed state => cases hturn
    | confirmed receipt' =>
    obtain ⟨_, _, _, _⟩ := receipt
    obtain ⟨_, _, _, _⟩ := receipt'
    simp only [Delivery.confirmation, Option.map_some, Option.some.injEq,
      Prod.mk.injEq] at hturn hitem hreceipt
    rw [hturn, hitem, hreceipt.1, hreceipt.2]
  simp only [PendingTimelineEntry.mk.injEq]
  tauto

lemma eq_iff_of_same {previous next : ThreadDetailRow Turn Items}
    (h : sameThreadDetailRow previous next = true) : previous = next ↔ AgreesHidden previous next := by
  constructor
  · rintro rfl
    exact ⟨rfl, rfl, rfl, rfl, rfl, fun _ => rfl, fun _ => rfl, fun _ => rfl,
      fun _ => ⟨rfl, rfl, rfl⟩, fun _ => rfl, fun left right hleft hright => by
        rw [hleft] at hright
        cases hright
        rfl⟩
  intro hidden
  unfold sameThreadDetailRow at h
  split at h
  · cases h
  next hcompared =>
  simp only [not_or, not_not] at hcompared
  obtain ⟨hkind, hid, hepoch, hcursor, hhad, hmin, hmax, hordinal, hsess, hopened, hsealed⟩ :=
    hcompared
  have hturn : previous.turn = next.turn := by
    by_cases hnext : next.kind = .turn
    · rw [hnext] at h
      exact of_decide_eq_true h
    · exact hidden.turn hnext
  have hitems : previous.activityItems = next.activityItems := by
    by_cases hnext : next.kind = .activity
    · rw [hnext] at h
      exact of_decide_eq_true h
    · exact hidden.activityItems hnext
  have hmeta : previous.turnMetadata = next.turnMetadata := by
    by_cases hnext : next.kind = .turnMeta
    · rw [hnext] at h
      exact of_decide_eq_true h
    · exact hidden.turnMetadata hnext
  have hthr : previous.thread = next.thread ∧ previous.currentUsage = next.currentUsage ∧
      previous.currentOutcome = next.currentOutcome := by
    by_cases hnext : next.kind = .thread
    · rw [hnext] at h
      simpa only [Bool.and_eq_true, decide_eq_true_eq, and_assoc] using h
    · exact hidden.thread hnext
  have hpend : previous.pending = next.pending := by
    by_cases hnext : next.kind = .pending
    · rw [hnext] at h
      dsimp only at h
      split at h
      · next left right hleft hright =>
        rw [hleft, hright, eq_of_samePending h (hidden.receipt left right hleft hright)]
      · cases h
    · exact hidden.pending hnext
  exact ThreadDetailRow.ext hitems hidden.connectionId hthr.2.2 hthr.2.1 hmax hmin hcursor
    hepoch hhad hidden.historySourceWitness hid hkind hopened hordinal hpend
    hidden.projectionCursor hidden.remoteThreadId hidden.remoteTurnId hsealed hsess hthr.1
    hturn hmeta

/-- Every key holds what was last written under it. -/
def LosesNothing (source : Source Turn Items) (write : String × ThreadDetailRow Turn Items) : Prop :=
  ∀ key, (writeRow source write).get? key = (source.insert write.1 write.2).get? key

/-- A write that agrees with the stored row in what is compared agrees in the rest as well. -/
def HidesNothing (source : Source Turn Items) (write : String × ThreadDetailRow Turn Items) : Prop :=
  ∀ previous, source.get? write.1 = some previous → sameThreadDetailRow previous write.2 = true →
    AgreesHidden previous write.2

lemma losesNothing_iff (source : Source Turn Items) (write : String × ThreadDetailRow Turn Items) :
    LosesNothing source write ↔ HidesNothing source write := by
  unfold LosesNothing HidesNothing writeRow
  cases hget : source.get? write.1 with
  | none => exact iff_of_true (fun _ => rfl) fun _ h => absurd h.symm (Option.some_ne_none _)
  | some previous =>
  dsimp only
  split
  · next hsame =>
    constructor
    · intro h stored hsto _
      obtain rfl := Option.some.inj hsto
      have hkey := h write.1
      rw [hget, Table.get?_insert_self] at hkey
      exact (eq_iff_of_same hsame).mp (Option.some.inj hkey)
    intro h key
    rw [Table.get?_insert]
    split
    · next heq => rw [heq, hget, (eq_iff_of_same hsame).mpr (h previous rfl hsame)]
    · rfl
  next hdiffers =>
  refine iff_of_true (fun _ => rfl) ?_
  intro stored hsto hsame
  obtain rfl := Option.some.inj hsto
  exact absurd hsame hdiffers

/-- The rows are stored as written exactly when no write changes only fields that are not compared.
-/
theorem written_rows_stored_iff (source : Source Turn Items)
    (writes : List (String × ThreadDetailRow Turn Items)) :
    Always writeRow LosesNothing source writes ↔ Always writeRow HidesNothing source writes :=
  ⟨fun h => h.imp fun source write => (losesNothing_iff source write).mp,
    fun h => h.imp fun source write => (losesNothing_iff source write).mpr⟩

def threadMeta (projectionCursor : Int) : ThreadDetailRow Unit Unit :=
  ⟨none, "server", none, none, none, none, none, 0, none, none, "thread", .thread, 0, -1, none,
    some projectionCursor, "thread", none, false, none, .null, none, .null⟩

/-- Only the projection cursor of a thread moves on. -/
theorem moved_cursor_not_stored :
    ¬ Always writeRow LosesNothing ∅ [("key", threadMeta 1), ("key", threadMeta 2)] := by
  intro h
  have hidden := (losesNothing_iff _ _).mp h.2.1 (threadMeta 1) (Table.get?_insert_self _ _ _)
    (by decide)
  exact absurd hidden.projectionCursor (by decide)

end CodeWide.Projection
