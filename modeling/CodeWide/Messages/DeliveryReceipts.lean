import CodeWide.Lib.Run
import Mathlib

/-!
# Receipts of a pending prompt

How the observations of one command, made by three parties on their own clocks, are merged into its
timeline entry.
-/

namespace CodeWide.Messages

open Lib

inductive VisiblePendingDeliveryState where
  | queued
  | sending
  | companionAccepted
  | appServerAccepted
  | uncertain
  | failed
deriving DecidableEq

inductive PendingDeliveryState where
  | visible (state : VisiblePendingDeliveryState)
  | accepted
  | delivered
deriving DecidableEq

def normalizePendingDeliveryState : PendingDeliveryState → VisiblePendingDeliveryState
  | .visible state => state
  | .accepted | .delivered => .companionAccepted

def deliveryProgressRank (state : PendingDeliveryState) : Nat :=
  match normalizePendingDeliveryState state with
  | .queued => 0
  | .sending => 1
  | .companionAccepted => 2
  | .uncertain => 3
  | .failed => 4
  | .appServerAccepted => 5

structure CommandReceipt where
  commandId : String
  itemId : String
  threadId : String
  turnId : String
deriving DecidableEq

inductive Delivery where
  | unconfirmed (state : PendingDeliveryState)
  | confirmed (confirmation : CommandReceipt)
deriving DecidableEq

def Delivery.state : Delivery → PendingDeliveryState
  | .unconfirmed state => state
  | .confirmed _ => .visible .appServerAccepted

def Delivery.confirmation : Delivery → Option CommandReceipt
  | .unconfirmed _ => none
  | .confirmed confirmation => some confirmation

inductive PromptMethod where
  | turnStart
  | turnSteer
deriving DecidableEq

inductive Presentation where
  | delivery
  | queue
deriving DecidableEq

structure PendingTimelineEntry (Attachment : Type) where
  attachments : List Attachment
  attempts : Nat
  commandId : String
  createdAt : Int
  lastError : Option String
  method : PromptMethod
  order : Int
  presentation : Presentation
  text : String
  updatedAt : Int
  -- the field may be missing or null
  workspaceRequestId : Option (Option String)
  delivery : Delivery
deriving DecidableEq

variable {Attachment : Type}

namespace PendingTimelineEntry

def shown (entry : PendingTimelineEntry Attachment) : PendingTimelineEntry Attachment :=
  match entry.delivery with
  | .confirmed _ => entry
  | .unconfirmed state =>
    { entry with delivery := .unconfirmed (.visible (normalizePendingDeliveryState state)) }

def mergePendingAttachments (previous incoming : PendingTimelineEntry Attachment) :
    PendingTimelineEntry Attachment :=
  if incoming.attachments = [] ∧ previous.attachments ≠ [] then
    { incoming with attachments := previous.attachments }
  else incoming

def visible (entry : PendingTimelineEntry Attachment) : VisiblePendingDeliveryState :=
  normalizePendingDeliveryState entry.delivery.state

def rank (entry : PendingTimelineEntry Attachment) : Nat := deliveryProgressRank entry.delivery.state

def retryStarted (previous incoming : PendingTimelineEntry Attachment) : Prop :=
  (previous.visible = .failed ∨ previous.visible = .uncertain) ∧
    (incoming.visible = .queued ∨ incoming.visible = .sending ∨
      incoming.visible = .companionAccepted)

instance (previous incoming : PendingTimelineEntry Attachment) :
    Decidable (retryStarted previous incoming) := inferInstanceAs (Decidable (_ ∧ _))

def merge (previous incoming : PendingTimelineEntry Attachment) : PendingTimelineEntry Attachment :=
  match previous.delivery.confirmation, incoming.delivery.confirmation with
  | some _, _ => previous
  | none, some _ => mergePendingAttachments previous incoming
  | none, none =>
    if previous.visible = .appServerAccepted then previous.shown
    else if incoming.visible = .appServerAccepted then
      mergePendingAttachments previous incoming.shown
    else if ¬ retryStarted previous incoming ∧ incoming.rank < previous.rank then
      previous.shown
    else if ¬ retryStarted previous incoming ∧ incoming.rank = previous.rank ∧
        incoming.updatedAt < previous.updatedAt then
      previous.shown
    else mergePendingAttachments previous incoming.shown

/-! ## What a merge keeps -/

/-- The observation was made before the entry's own, and not for a later attempt. -/
def Older (previous incoming : PendingTimelineEntry Attachment) : Prop :=
  incoming.updatedAt < previous.updatedAt ∧ incoming.attempts ≤ previous.attempts

/-- What a merge promises. -/
structure Forward (previous incoming : PendingTimelineEntry Attachment) : Prop where
  accepted : previous.visible = .appServerAccepted →
    (merge previous incoming).visible = .appServerAccepted
  confirmed : ∀ receipt, previous.delivery = .confirmed receipt →
    (merge previous incoming).delivery = .confirmed receipt
  rank : (merge previous incoming).rank < previous.rank → retryStarted previous incoming
  older : Older previous incoming → previous.rank ≤ (merge previous incoming).rank
  attachments : incoming.attachments = [] →
    (merge previous incoming).attachments = previous.attachments
  idempotent : merge (merge previous incoming) incoming = merge previous incoming

/-- An old observation that reads as a new attempt. -/
def StaleRetry (previous incoming : PendingTimelineEntry Attachment) : Prop :=
  Older previous incoming ∧ retryStarted previous incoming

variable {previous incoming : PendingTimelineEntry Attachment}

lemma shown_cases (entry : PendingTimelineEntry Attachment) : entry.shown.visible = entry.visible ∧
      entry.shown.delivery.confirmation = entry.delivery.confirmation ∧
      entry.shown.attachments = entry.attachments ∧ entry.shown.updatedAt = entry.updatedAt ∧
      entry.shown.shown = entry.shown := by
  obtain ⟨_, _, _, _, _, _, _, _, _, _, _, state | receipt⟩ := entry <;> exact ⟨rfl, rfl, rfl, rfl, rfl⟩

variable {receipt : CommandReceipt} {entry : PendingTimelineEntry Attachment}

lemma shown_of_confirmation
    (h : entry.delivery.confirmation = some receipt) : entry.shown = entry := by
  obtain ⟨_, _, _, _, _, _, _, _, _, _, _, state | _⟩ := entry
  · cases h
  · rfl

lemma rank_eq (entry : PendingTimelineEntry Attachment) :
    entry.rank = deliveryProgressRank (.visible entry.visible) := rfl

lemma rank_le (entry : PendingTimelineEntry Attachment) : entry.rank ≤ 5 := by
  rw [rank_eq]
  cases entry.visible <;> decide

lemma accepted_iff : entry.visible = .appServerAccepted ↔ 5 ≤ entry.rank := by
  rw [rank_eq]
  cases entry.visible <;> decide

lemma accepted_of_confirmation
    (h : entry.delivery.confirmation ≠ none) : entry.visible = .appServerAccepted := by
  obtain ⟨_, _, _, _, _, _, _, _, _, _, _, state | receipt⟩ := entry
  · exact absurd rfl h
  · rfl

lemma retryStarted_spec (h : retryStarted previous incoming) :
    previous.visible ≠ .appServerAccepted ∧ incoming.rank < previous.rank := by
  rw [rank_eq, rank_eq]
  obtain ⟨hprev | hprev, hinc | hinc | hinc⟩ := h <;>
    · rw [hprev, hinc]
      decide

/-- When a merge goes over to the observation. -/
def Takes (previous incoming : PendingTimelineEntry Attachment) : Prop :=
  previous.delivery.confirmation = none ∧ (incoming.delivery.confirmation ≠ none ∨
    previous.visible ≠ .appServerAccepted ∧ (incoming.visible = .appServerAccepted ∨
      retryStarted previous incoming ∨ previous.rank ≤ incoming.rank ∧
        ¬ (incoming.rank = previous.rank ∧ incoming.updatedAt < previous.updatedAt)))

lemma merge_cases (previous incoming : PendingTimelineEntry Attachment) :
    Takes previous incoming ∧ merge previous incoming =
      mergePendingAttachments previous incoming.shown ∨
    ¬ Takes previous incoming ∧ merge previous incoming = previous.shown := by
  unfold Takes merge
  cases hprev : previous.delivery.confirmation with
  | some receipt =>
    refine .inr ⟨fun h => absurd h.1 (Option.some_ne_none _), ?_⟩
    exact (shown_of_confirmation hprev).symm
  | none =>
  cases hinc : incoming.delivery.confirmation with
  | some receipt =>
    refine .inl ⟨⟨rfl, .inl (Option.some_ne_none _)⟩, ?_⟩
    rw [shown_of_confirmation hinc]
  | none =>
  have hretry := @retryStarted_spec _ previous incoming
  dsimp only
  split_ifs <;> grind

lemma shown_eq_self (h : entry.delivery = incoming.shown.delivery) : entry.shown = entry := by
  obtain ⟨_, _, _, _, _, _, _, _, _, _, _, state | receipt⟩ := incoming
  · cases entry
    cases h
    rfl
  · cases entry
    cases h
    rfl

lemma mergePendingAttachments_spec (previous incoming : PendingTimelineEntry Attachment) :
    (mergePendingAttachments previous incoming).delivery = incoming.delivery ∧
    (incoming.attachments = [] →
      (mergePendingAttachments previous incoming).attachments = previous.attachments) ∧
    mergePendingAttachments (mergePendingAttachments previous incoming) incoming =
      mergePendingAttachments previous incoming := by
  unfold mergePendingAttachments
  by_cases hempty : incoming.attachments = []
  · by_cases hnone : previous.attachments = [] <;> simp [hempty, hnone]
  · simp [hempty]

lemma merge_merge (previous incoming : PendingTimelineEntry Attachment) :
    merge (merge previous incoming) incoming = merge previous incoming := by
  rcases merge_cases previous incoming with ⟨-, heq⟩ | ⟨hnot, heq⟩
  · rw [heq]
    obtain ⟨hdelivery, -, hagain⟩ := mergePendingAttachments_spec previous incoming.shown
    rcases merge_cases (mergePendingAttachments previous incoming.shown) incoming with
      ⟨-, htaken⟩ | ⟨-, hkept⟩
    · exact htaken.trans hagain
    · exact hkept.trans (shown_eq_self hdelivery)
  rw [heq]
  obtain ⟨hvisible, hconfirmation, -, htime, hagain⟩ := shown_cases previous
  have hsame : Takes previous.shown incoming ↔ Takes previous incoming := by
    unfold Takes retryStarted
    rw [rank_eq previous.shown, rank_eq previous, hvisible, hconfirmation, htime]
  rcases merge_cases previous.shown incoming with ⟨htaken, -⟩ | ⟨-, hkept⟩
  · exact absurd (hsame.mp htaken) hnot
  · exact hkept.trans hagain

lemma visible_mergePendingAttachments (previous incoming : PendingTimelineEntry Attachment) :
    (mergePendingAttachments previous incoming.shown).visible = incoming.visible := by
  rw [visible, (mergePendingAttachments_spec previous incoming.shown).1]
  exact (shown_cases incoming).1

lemma rank_merge (previous incoming : PendingTimelineEntry Attachment) :
    (merge previous incoming).rank < previous.rank ↔ retryStarted previous incoming := by
  rcases merge_cases previous incoming with ⟨⟨hopen, htaken⟩, heq⟩ | ⟨hnot, heq⟩
  · rw [heq, rank_eq, visible_mergePendingAttachments, ← rank_eq]
    have hacc : incoming.visible = .appServerAccepted →
        (incoming.rank < previous.rank ↔ retryStarted previous incoming) := by
      intro h
      have hle := accepted_iff.mp h
      have hprev := rank_le previous
      exact iff_of_false (by omega) fun hretry => by
        have := (retryStarted_spec hretry).2
        omega
    rcases htaken with hconf | ⟨-, h | hretry | ⟨hle, -⟩⟩
    · exact hacc (accepted_of_confirmation hconf)
    · exact hacc h
    · exact iff_of_true (retryStarted_spec hretry).2 hretry
    · exact iff_of_false (Nat.not_lt_of_le hle) fun hretry =>
        absurd (retryStarted_spec hretry).2 (Nat.not_lt_of_le hle)
  rw [heq, rank_eq, (shown_cases previous).1, ← rank_eq]
  refine iff_of_false (Nat.lt_irrefl _) fun hretry => hnot ?_
  have hprev := (retryStarted_spec hretry).1
  refine ⟨?_, .inr ⟨hprev, .inr (.inl hretry)⟩⟩
  by_contra hconf
  exact hprev (accepted_of_confirmation hconf)

lemma attachments_merge (h : incoming.attachments = []) :
    (merge previous incoming).attachments = previous.attachments := by
  rcases merge_cases previous incoming with ⟨-, heq⟩ | ⟨-, heq⟩
  · rw [heq]
    exact (mergePendingAttachments_spec previous incoming.shown).2.1
      ((shown_cases incoming).2.2.1.trans h)
  · rw [heq]
    exact (shown_cases previous).2.2.1

lemma accepted_merge (h : previous.visible = .appServerAccepted) :
    (merge previous incoming).visible = .appServerAccepted := by
  refine accepted_iff.mpr ((accepted_iff.mp h).trans (Nat.le_of_not_lt ?_))
  rw [rank_merge]
  exact fun hretry => (retryStarted_spec hretry).1 h

lemma merge_of_confirmed (h : previous.delivery = .confirmed receipt) :
    merge previous incoming = previous := by
  unfold merge
  rw [h]
  rfl

/-- A merge keeps its promises unless it takes an old observation for a retry. -/
lemma forward_iff (previous incoming : PendingTimelineEntry Attachment) :
    Forward previous incoming ↔ ¬ StaleRetry previous incoming := by
  constructor
  · rintro h ⟨holder, hretry⟩
    exact Nat.not_lt_of_le (h.older holder) ((rank_merge previous incoming).mpr hretry)
  intro h
  refine ⟨accepted_merge, fun receipt hreceipt => ?_, (rank_merge previous incoming).mp,
    fun holder => ?_, attachments_merge, merge_merge previous incoming⟩
  · rw [merge_of_confirmed hreceipt, hreceipt]
  · exact Nat.le_of_not_lt fun hlt => h ⟨holder, (rank_merge previous incoming).mp hlt⟩

/-! ## Runs of observations -/

/-- Every observation of a run is merged as promised and stays so. -/
structure ForwardRun (start : PendingTimelineEntry Attachment)
    (observations : List (PendingTimelineEntry Attachment)) : Prop where
  steps : Always merge Forward start observations
  accepted : ∀ front back, observations = front ++ back →
    (exec merge start front).visible = .appServerAccepted →
    (exec merge start observations).visible = .appServerAccepted
  confirmed : ∀ front back receipt, observations = front ++ back →
    (exec merge start front).delivery = .confirmed receipt →
    (exec merge start observations).delivery = .confirmed receipt

/-- Observations never move a prompt backwards exactly when none reads as earlier than it is. -/
theorem receipts_forward_iff (start : PendingTimelineEntry Attachment)
    (observations : List (PendingTimelineEntry Attachment)) :
    ForwardRun start observations ↔
      Always merge (fun previous incoming => ¬ StaleRetry previous incoming) start observations := by
  constructor
  · exact fun h => h.steps.imp fun previous incoming => (forward_iff previous incoming).mp
  intro h
  refine ⟨h.imp fun previous incoming => (forward_iff previous incoming).mpr, ?_, ?_⟩
  · rintro front back rfl hacc
    rw [exec_append]
    exact exec_invariant (P := fun entry : PendingTimelineEntry Attachment =>
      entry.visible = .appServerAccepted) (fun _ _ => accepted_merge) hacc back
  rintro front back receipt rfl hconf
  rw [exec_append]
  refine exec_invariant (P := fun entry : PendingTimelineEntry Attachment =>
      entry.delivery = .confirmed receipt) (fun entry _ hentry => ?_) hconf back
  rw [merge_of_confirmed hentry, hentry]

def failedPrompt : PendingTimelineEntry Unit :=
  ⟨[], 1, "command", 10, some "offline", .turnSteer, 10, .delivery, "retry me", 20, none,
    .unconfirmed (.visible .failed)⟩

/-- The receipt of the Companion for the attempt that has failed comes late. -/
theorem late_receipt_reopens_failed : ¬ ForwardRun failedPrompt
    [{ failedPrompt with updatedAt := 5, delivery := .unconfirmed .accepted }] :=
  fun h => (forward_iff _ _).mp h.steps.1 ⟨⟨by decide, by decide⟩, by decide⟩

end PendingTimelineEntry

end CodeWide.Messages
