import CodeWide.Store.Outbox
import Mathlib.Data.List.InsertIdx

/-!
# What one outbox operation does to one row

`RowChange op now c r r'` says that `op` may turn the row `r` under `c` into `r'`, with the guards
it checks, and `run_row` that it does so.
-/

namespace CodeWide.Store

open Lib List Saturating Table

inductive OutboxOp where
  | put (commandId remoteThreadId : String) (params : Json) (metadata : OutboxPutMetadata)
  | prune
  | claimDispatch (commandId : String)
  | claimSteer (commandId operationId : String)
  | resolve (commandId : String) (token : Nat) (resolution : OutboxClaimResolution)
  | failQueued (commandId error : String)
  | setState (commandId : String) (state : OutboxState) (lastError : Option String)
  | defer (commandId : String) (state : OutboxState) (lastError : String) (delayMs : Nat)
  | wait (commandId : String) (state : OutboxState) (lastError : Option String) (delayMs : Nat)
  | recoverLegacy
  | retryFailed (commandId : String)
  | edit (commandId : String) (replacementInput : Json)
  | place (commandId : String) (beforeCommandId : Option String)
  | cancel (commandId : String)
deriving DecidableEq

namespace OutboxOp

/-- What the caller gets back from a transaction that did not fail. -/
abbrev Answer : OutboxOp → Type
  | put .. => OutboxCommand
  | prune => Nat
  | claimDispatch _ => OutboxClaimOutcome
  | claimSteer .. => OutboxClaimOutcome
  | resolve .. => OutboxClaimResolutionOutcome
  | failQueued .. => Option OutboxCommand
  | setState .. => OutboxCommand
  | defer .. => OutboxCommand
  | wait .. => OutboxCommand × Bool
  | recoverLegacy => List String
  | retryFailed _ => OutboxCommand
  | edit .. => OutboxCommand
  | place .. => Bool
  | cancel _ => Bool

def transact (enc : Encoding) (table : Outbox) (now : Nat) :
    (op : OutboxOp) → Except StoreError (Outbox × op.Answer)
  | put commandId remoteThreadId params metadata =>
    outboxPutTurnStart enc table now commandId remoteThreadId params metadata
  | prune => outboxPruneDeliveredReceipts table
  | claimDispatch commandId => outboxClaimDispatch table now commandId
  | claimSteer commandId operationId => outboxClaimSteer table now commandId operationId
  | resolve commandId token resolution => outboxResolveClaim table now commandId token resolution
  | failQueued commandId error => outboxFailQueued table now commandId error
  | setState commandId state lastError => outboxSetState table now commandId state lastError
  | defer commandId state lastError delayMs =>
    outboxDefer table now commandId state lastError delayMs
  | wait commandId state lastError delayMs => outboxWait table now commandId state lastError delayMs
  | recoverLegacy => outboxRecoverLegacyAccountPoolFailures table now
  | retryFailed commandId => outboxRetryFailed table now commandId
  | edit commandId replacementInput => outboxEditPrompt enc table now commandId replacementInput
  | place commandId beforeCommandId => outboxPlace table now commandId beforeCommandId
  | cancel commandId => outboxCancel table commandId

def run (enc : Encoding) (table : Outbox) (now : Nat) (op : OutboxOp) :
    Outbox × Except StoreError op.Answer :=
  commit table (op.transact enc table now)

end OutboxOp

def OutboxOp.claims? : OutboxOp → Option (String × OutboxClaimKind × Option String)
  | .claimDispatch c => some (c, .dispatch, none)
  | .claimSteer c op => some (c, .steer, some op)
  | _ => none

structure Grant where
  commandId : String
  kind : OutboxClaimKind
  operationId : Option String
  token : Nat

def OutboxOp.grant? : (op : OutboxOp) → Except StoreError op.Answer → Option Grant
  | .claimDispatch c, .ok (.acquired _ token) => some ⟨c, .dispatch, none, token⟩
  | .claimSteer c operationId, .ok (.acquired _ token) => some ⟨c, .steer, some operationId, token⟩
  | _, _ => none

def OutboxOp.settled? : (op : OutboxOp) → Except StoreError op.Answer → Option (String × Nat)
  | .resolve c token _, .ok (.applied _) => some (c, token)
  | _, _ => none

def claimedRow (now : Nat) (kind : OutboxClaimKind) (operationId : Option String)
    (command : OutboxCommand) : OutboxCommand :=
  { command with
    state := .uncertain, updatedAt := now, nextAttemptAt := 0, lastError := none
    claim := some { token := nextToken command, kind, operationId, resolved := false } }

def resolvedRow (now : Nat) (resolution : OutboxClaimResolution) (command : OutboxCommand) :
    OutboxCommand :=
  markClaimResolved { applyResolution command now resolution with updatedAt := now }

def InFlight (row : OutboxCommand) (token : Nat) : Prop :=
  ∃ claim, row.claim = some claim ∧ claim.token = token ∧ claim.resolved = false

inductive RowChange (op : OutboxOp) (now : Nat) (c : String) :
    Option OutboxCommand → Option OutboxCommand → Prop
  | same (r : Option OutboxCommand) : RowChange op now c r r
  | put {thread : String} {params : Json} {metadata : OutboxPutMetadata} {row : OutboxCommand}
      (hop : op = .put c thread params metadata) (hid : row.commandId = c)
      (hstate : row.state = .queued) (hclaim : row.claim = none) :
      RowChange op now c none (some row)
  | prune {row : OutboxCommand}
      (hop : op = .prune ∨ ∃ d thread params metadata, op = .put d thread params metadata ∧ d ≠ c)
      (hstate : row.state = .delivered) : RowChange op now c (some row) none
  | claim {kind : OutboxClaimKind} {operationId : Option String} {row : OutboxCommand}
      (hop : op.claims? = some (c, kind, operationId)) (hstate : row.state = .queued)
      (hnew : ¬ (kind = .steer ∧ ∃ claim, row.claim = some claim ∧ claim.kind = .steer ∧
        claim.operationId = operationId)) :
      RowChange op now c (some row) (some (claimedRow now kind operationId row))
  | resolve {token : Nat} {resolution : OutboxClaimResolution} {row : OutboxCommand}
      (hop : op = .resolve c token resolution) (hclaim : InFlight row token)
      (hstate : row.state = .uncertain) :
      RowChange op now c (some row) (some (resolvedRow now resolution row))
  | fail {error : String} {row : OutboxCommand} (hop : op = .failQueued c error)
      (hstate : row.state = .queued) :
      RowChange op now c (some row) (some { row with
        state := .failed, updatedAt := now, lastError := some (boundedOutboxError error)
        nextAttemptAt := 0 })
  | setState {state : OutboxState} {lastError : Option String} {row : OutboxCommand}
      (hop : op = .setState c state lastError) (hlive : outboxRejectsStaleQueueUpdate row = false) :
      RowChange op now c (some row) (some (setStateUpdate now state lastError row))
  | defer {state : OutboxState} {lastError : String} {delayMs : Nat} {row : OutboxCommand}
      (hop : op = .defer c state lastError delayMs)
      (hlive : outboxRejectsStaleQueueUpdate row = false) :
      RowChange op now c (some row) (some (deferUpdate now state lastError delayMs row))
  | wait {state : OutboxState} {lastError : Option String} {delayMs : Nat} {row : OutboxCommand}
      (hop : op = .wait c state lastError delayMs)
      (hlive : outboxRejectsStaleQueueUpdate row = false) :
      RowChange op now c (some row) (some (waitUpdate now state lastError delayMs row))
  | recover {row : OutboxCommand} (hop : op = .recoverLegacy)
      (hlegacy : isLegacyAccountPoolFailure row = true) :
      RowChange op now c (some row) (some (reopen now row))
  | retry {row : OutboxCommand} (hop : op = .retryFailed c) (hstate : row.state = .failed) :
      RowChange op now c (some row) (some (reopen now row))
  | edit {input params : Json} {row : OutboxCommand} (hop : op = .edit c input)
      (hstate : row.state = .queued) :
      RowChange op now c (some row) (some { row with params, updatedAt := now })
  | place {d : String} {before : Option String} {order : Nat} {row : OutboxCommand}
      (hop : op = .place d before) (hstate : row.state = .queued) :
      RowChange op now c (some row) (some { row with order, updatedAt := now })
  | cancel {row : OutboxCommand} (hop : op = .cancel c)
      (hstate : row.state = .queued ∨ row.state = .failed) : RowChange op now c (some row) none

def Keyed (table : Outbox) : Prop := ∀ c row, table.get? c = some row → row.commandId = c

lemma keyed_empty : Keyed ∅ := by
  intro c row h
  simp at h

variable (row : OutboxCommand)

@[simp] lemma markClaimResolved_commandId : (markClaimResolved row).commandId = row.commandId := rfl

@[simp] lemma markClaimResolved_state : (markClaimResolved row).state = row.state := rfl

@[simp] lemma applyResolution_commandId (now : Nat) (resolution : OutboxClaimResolution) :
    (applyResolution row now resolution).commandId = row.commandId := by
  cases resolution <;> rfl

@[simp] lemma applyResolution_claim (now : Nat) (resolution : OutboxClaimResolution) :
    (applyResolution row now resolution).claim = row.claim := by
  cases resolution <;> rfl

@[simp] lemma settleClaim_commandId (state : OutboxState) (row : OutboxCommand) :
    (settleClaim state row).commandId = row.commandId := by
  unfold settleClaim
  split <;> rfl

@[simp] lemma settleClaim_state (state : OutboxState) (row : OutboxCommand) :
    (settleClaim state row).state = row.state := by
  unfold settleClaim
  split <;> rfl

variable {op : OutboxOp}

lemma RowChange.commandId {now : Nat} {c : String} {row row' : OutboxCommand}
    (h : RowChange op now c (some row) (some row')) : row'.commandId = row.commandId := by
  cases h with
  | same | claim | fail | recover | retry | edit | place => rfl
  | resolve => simp [resolvedRow]
  | setState => simp [setStateUpdate]
  | defer => simp [deferUpdate]
  | wait => simp [waitUpdate]

lemma Keyed.of_rowChange {now : Nat} {table table' : Outbox} (hkeyed : Keyed table)
    (h : ∀ c, RowChange op now c (table.get? c) (table'.get? c)) : Keyed table' := by
  intro c row' hrow'
  have hchg := h c
  rw [hrow'] at hchg
  cases hrow : table.get? c with
  | none =>
    rw [hrow] at hchg
    cases hchg
    assumption
  | some row =>
  rw [hrow] at hchg
  rw [hchg.commandId]
  exact hkeyed c row hrow

lemma rowChange_insert {now : Nat} {table : Outbox} {d : String}
    {row' : OutboxCommand} (h : RowChange op now d (table.get? d) (some row')) (c : String) :
    RowChange op now c (table.get? c) ((table.insert d row').get? c) := by
  rw [get?_insert]
  split
  · rename_i heq
    subst heq
    exact h
  · exact .same _

lemma bind_ok {ε α β : Type} {x : Except ε α} {f : α → Except ε β} {b : β}
    (h : x >>= f = .ok b) : ∃ a, x = .ok a ∧ f a = .ok b := by
  cases x with
  | error e => cases h
  | ok a => exact ⟨a, rfl, h⟩

lemma mem_deliveredReceipts {table : Outbox} {e : String × OutboxCommand}
    (he : e ∈ deliveredReceipts table) : table.get? e.1 = some e.2 ∧ e.2.state = .delivered := by
  rw [deliveredReceipts, mem_insertionSort, mem_filter] at he
  exact ⟨mem_entries_iff.mp he.1, of_decide_eq_true he.2⟩

lemma foldl_pruneReceipt (receipts : List (String × OutboxCommand))
    (acc : Outbox × (Option String → Nat) × Nat) (c : String) :
    (receipts.foldl pruneReceipt acc).1.get? c = acc.1.get? c ∨
      (receipts.foldl pruneReceipt acc).1.get? c = none ∧ ∃ row, (c, row) ∈ receipts := by
  induction receipts generalizing acc with
  | nil => exact .inl rfl
  | cons e rest ih =>
  have hstep : (pruneReceipt acc e).1.get? c = acc.1.get? c ∨
      (pruneReceipt acc e).1.get? c = none ∧ e.1 = c := by
    obtain ⟨table, counts, removed⟩ := acc
    unfold pruneReceipt
    dsimp only
    split
    · exact .inl rfl
    by_cases hc : c = e.1
    · refine .inr ⟨?_, hc.symm⟩
      split <;> simp [hc]
    · refine .inl ?_
      split <;> exact get?_erase_of_ne _ hc
  rw [foldl_cons]
  rcases ih (pruneReceipt acc e) with h | ⟨h, row, hrow⟩
  · rcases hstep with hs | ⟨hs, hc⟩
    · exact .inl (h.trans hs)
    · exact .inr ⟨h.trans hs, e.2, by simp [← hc]⟩
  · exact .inr ⟨h, row, mem_cons_of_mem _ hrow⟩

lemma pruneDelivered_row (table : Outbox) (c : String) :
    (pruneDeliveredOutboxReceipts table).1.get? c = table.get? c ∨
      (pruneDeliveredOutboxReceipts table).1.get? c = none ∧
        ∃ row, table.get? c = some row ∧ row.state = .delivered := by
  unfold pruneDeliveredOutboxReceipts
  refine (foldl_pruneReceipt (deliveredReceipts table) _ c).imp id ?_
  rintro ⟨h, row, hrow⟩
  exact ⟨h, row, mem_deliveredReceipts hrow⟩

section Operations

variable {enc : Encoding} {table table' : Outbox} {now : Nat} {c d : String}

variable {a : OutboxCommand}

lemma put_row {thread : String} {params : Json} {metadata : OutboxPutMetadata}
    (h : outboxPutTurnStart enc table now d thread params metadata = .ok (table', a)) :
    RowChange (.put d thread params metadata) now c (table.get? c) (table'.get? c) := by
  unfold outboxPutTurnStart at h
  obtain ⟨_, -, h⟩ := bind_ok h
  obtain ⟨_, -, h⟩ := bind_ok h
  obtain ⟨_, -, h⟩ := bind_ok h
  obtain ⟨_, -, h⟩ := bind_ok h
  split at h
  · cases h
  split at h
  · split at h
    · cases h
    · cases h
      exact .same _
  rename_i hnone
  dsimp only at h
  obtain ⟨_, -, h⟩ := bind_ok h
  cases h
  rw [get?_insert]
  split
  · rename_i hc
    subst hc
    rw [hnone]
    exact .put rfl rfl rfl rfl
  rename_i hc
  rcases pruneDelivered_row table c with h | ⟨h, row, hrow, hstate⟩
  · rw [h]
    exact .same _
  · rw [h, hrow]
    exact .prune (.inr ⟨d, thread, params, metadata, rfl, fun h => hc h.symm⟩) hstate

lemma prune_row {n : Nat} (h : outboxPruneDeliveredReceipts table = .ok (table', n)) :
    RowChange .prune now c (table.get? c) (table'.get? c) := by
  cases h
  change RowChange .prune now c (table.get? c) ((pruneDeliveredOutboxReceipts table).1.get? c)
  rcases pruneDelivered_row table c with h | ⟨h, row, hrow, hstate⟩
  · rw [h]
    exact .same _
  · rw [h, hrow]
    exact .prune (.inl rfl) hstate

variable {kind : OutboxClaimKind} {operationId : Option String}

lemma outboxClaim_ok
    {a : OutboxClaimOutcome} (h : outboxClaim table now d kind operationId = .ok (table', a)) :
    (table' = table ∧ ∀ row token, a ≠ .acquired row token) ∨
    ∃ row, table.get? d = some row ∧ row.state = .queued ∧ nextToken row ≤ max64 ∧
      (¬ (kind = .steer ∧ ∃ claim, row.claim = some claim ∧ claim.kind = .steer ∧
        claim.operationId = operationId)) ∧
      table' = table.insert d (claimedRow now kind operationId row) ∧
      a = .acquired (claimedRow now kind operationId row) (nextToken row) := by
  unfold outboxClaim at h
  obtain ⟨_, -, h⟩ := bind_ok h
  split at h
  · cases h
    exact .inl ⟨rfl, by simp⟩
  rename_i row hrow
  dsimp only at h
  split at h
  · cases h
    exact .inl ⟨rfl, by simp⟩
  rename_i hrepeat
  split at h
  · cases h
    exact .inl ⟨rfl, by simp⟩
  rename_i hstate
  split at h
  · cases h
  rename_i htoken
  cases h
  refine .inr ⟨row, hrow, not_not.mp hstate, not_lt.mp htoken, ?_, rfl, rfl⟩
  rintro ⟨rfl, claim, hclaim, hkind, hop⟩
  simp [hclaim, hkind, hop] at hrepeat

lemma claim_row {op : OutboxOp}
    {a : OutboxClaimOutcome} (hop : op.claims? = some (d, kind, operationId))
    (h : outboxClaim table now d kind operationId = .ok (table', a)) :
    RowChange op now c (table.get? c) (table'.get? c) := by
  rcases outboxClaim_ok h with ⟨rfl, -⟩ | ⟨row, hrow, hstate, -, hnew, rfl, -⟩
  · exact .same _
  · refine rowChange_insert ?_ c
    rw [hrow]
    exact .claim hop hstate hnew

variable {resolution : OutboxClaimResolution}

lemma outboxResolveClaim_ok {token : Nat} {a : OutboxClaimResolutionOutcome}
    (h : outboxResolveClaim table now d token resolution = .ok (table', a)) :
    (table' = table ∧ ∀ row, a ≠ .applied row) ∨
    ∃ row, table.get? d = some row ∧ InFlight row token ∧ row.state = .uncertain ∧
      table' = table.insert d (resolvedRow now resolution row) ∧
      a = .applied (resolvedRow now resolution row) := by
  unfold outboxResolveClaim at h
  obtain ⟨_, -, h⟩ := bind_ok h
  split at h
  · cases h
    exact .inl ⟨rfl, by simp⟩
  rename_i row hrow
  split at h
  · cases h
    exact .inl ⟨rfl, by simp⟩
  rename_i claim hclaim
  split at h
  · cases h
    exact .inl ⟨rfl, by simp⟩
  rename_i htoken
  split at h
  · cases h
    exact .inl ⟨rfl, by simp⟩
  rename_i hopen
  push Not at hopen
  cases h
  exact .inr ⟨row, hrow, ⟨claim, hclaim, not_not.mp htoken, by simpa using hopen.1⟩,
    hopen.2, rfl, rfl⟩

lemma resolve_row {token : Nat} {a : OutboxClaimResolutionOutcome}
    (h : outboxResolveClaim table now d token resolution = .ok (table', a)) :
    RowChange (.resolve d token resolution) now c (table.get? c) (table'.get? c) := by
  rcases outboxResolveClaim_ok h with ⟨rfl, -⟩ | ⟨row, hrow, hfly, hstate, rfl, -⟩
  · exact .same _
  · refine rowChange_insert ?_ c
    rw [hrow]
    exact .resolve rfl hfly hstate

lemma failQueued_row {error : String} {a : Option OutboxCommand}
    (h : outboxFailQueued table now d error = .ok (table', a)) :
    RowChange (.failQueued d error) now c (table.get? c) (table'.get? c) := by
  unfold outboxFailQueued at h
  obtain ⟨_, -, h⟩ := bind_ok h
  split at h
  · cases h
    exact .same _
  rename_i row hrow
  split at h
  · cases h
    exact .same _
  rename_i hstate
  cases h
  refine rowChange_insert ?_ c
  rw [hrow]
  exact .fail rfl (not_not.mp hstate)

lemma queueUpdate_row {op : OutboxOp} {update : OutboxCommand → OutboxCommand}
    {a : OutboxCommand × Bool}
    (hop : ∀ row, outboxRejectsStaleQueueUpdate row = false →
      RowChange op now d (some row) (some (update row)))
    (h : outboxQueueUpdate table d update = .ok (table', a)) :
    RowChange op now c (table.get? c) (table'.get? c) := by
  unfold outboxQueueUpdate at h
  split at h
  · cases h
  rename_i row hrow
  split at h
  · cases h
    exact .same _
  rename_i hlive
  cases h
  refine rowChange_insert ?_ c
  rw [hrow]
  exact hop row (by simpa using hlive)

lemma map_ok {ε α β : Type} {x : Except ε α} {f : α → β} {b : β} (h : x.map f = .ok b) :
    ∃ a, x = .ok a ∧ f a = b := by
  cases x with
  | error e => cases h
  | ok a => exact ⟨a, rfl, Except.ok.inj h⟩

lemma foldl_insert_reopen {updates : List (String × OutboxCommand)} {acc : Outbox} :
    (updates.foldl (fun t e => t.insert e.1 (reopen now e.2)) acc).get? c = acc.get? c ∨
      ∃ row, (c, row) ∈ updates ∧
        (updates.foldl (fun t e => t.insert e.1 (reopen now e.2)) acc).get? c =
          some (reopen now row) := by
  induction updates generalizing acc with
  | nil => exact .inl rfl
  | cons e rest ih =>
  rw [foldl_cons]
  rcases @ih (acc.insert e.1 (reopen now e.2)) with h | ⟨row, hrow, h⟩
  · rw [h, get?_insert]
    split
    · rename_i hc
      exact .inr ⟨e.2, by simp [hc], rfl⟩
    · exact .inl rfl
  · exact .inr ⟨row, mem_cons_of_mem _ hrow, h⟩

lemma recover_row {a : List String}
    (h : outboxRecoverLegacyAccountPoolFailures table now = .ok (table', a)) :
    RowChange .recoverLegacy now c (table.get? c) (table'.get? c) := by
  cases h
  rcases foldl_insert_reopen with h | ⟨row, hrow, h⟩
  · rw [h]
    exact .same _
  · obtain ⟨hmem, hlegacy⟩ := mem_filter.mp hrow
    rw [h, mem_entries_iff.mp hmem]
    exact .recover rfl hlegacy

lemma retry_row (h : outboxRetryFailed table now d = .ok (table', a)) :
    RowChange (.retryFailed d) now c (table.get? c) (table'.get? c) := by
  unfold outboxRetryFailed at h
  split at h
  · cases h
  rename_i row hrow
  split at h
  · cases h
  rename_i hstate
  cases h
  refine rowChange_insert ?_ c
  rw [hrow]
  exact .retry rfl (not_not.mp hstate)

lemma ensureOutboxEditable_ok {row : OutboxCommand} {u : Unit}
    (h : ensureOutboxEditable row = .ok u) : row.state = .queued := by
  unfold ensureOutboxEditable at h
  split at h
  · cases h
  · rename_i hstate
    exact not_not.mp hstate

lemma edit_row {input : Json} (h : outboxEditPrompt enc table now d input = .ok (table', a)) :
    RowChange (.edit d input) now c (table.get? c) (table'.get? c) := by
  unfold outboxEditPrompt at h
  obtain ⟨_, -, h⟩ := bind_ok h
  split at h
  · cases h
  rename_i row hrow
  obtain ⟨_, hedit, h⟩ := bind_ok h
  split at h
  · cases h
  obtain ⟨_, -, h⟩ := bind_ok h
  split at h
  · cases h
  obtain ⟨_, -, h⟩ := bind_ok h
  cases h
  refine rowChange_insert ?_ c
  rw [hrow]
  exact .edit rfl (ensureOutboxEditable_ok hedit)

lemma cancel_row {a : Bool} (h : outboxCancel table d = .ok (table', a)) :
    RowChange (.cancel d) now c (table.get? c) (table'.get? c) := by
  unfold outboxCancel at h
  split at h
  · cases h
    exact .same _
  rename_i row hrow
  split at h
  · cases h
    exact .same _
  rename_i hstate
  cases h
  rw [get?_erase]
  split
  · rename_i hc
    subst hc
    rw [hrow]
    exact .cancel rfl (not_not.mp hstate)
  · exact .same _

/-- A table whose rows are those of `table`, some queued ones with another order. -/
def PlacedFrom (table : Outbox) (now : Nat) (placed : Outbox) : Prop :=
  ∀ c, placed.get? c = table.get? c ∨ ∃ row order, table.get? c = some row ∧
    row.state = .queued ∧ placed.get? c = some { row with order, updatedAt := now }

lemma foldl_placeSlot {slots : List (OutboxCommand × Nat)} {acc : Outbox × Bool}
    (hslots : ∀ slot ∈ slots, table.get? slot.1.commandId = some slot.1 ∧ slot.1.state = .queued)
    (hacc : PlacedFrom table now acc.1) :
    PlacedFrom table now (slots.foldl (placeSlot now) acc).1 := by
  induction slots generalizing acc with
  | nil => exact hacc
  | cons slot rest ih =>
  refine ih (fun s hs => hslots s (mem_cons_of_mem _ hs)) (fun c => ?_)
  unfold placeSlot
  split
  · dsimp only
    rw [get?_insert]
    split
    · rename_i hc
      obtain ⟨hrow, hstate⟩ := hslots slot mem_cons_self
      exact .inr ⟨slot.1, slot.2, hc ▸ hrow, hstate, rfl⟩
    · exact hacc c
  · exact hacc c

lemma mem_rows {row : OutboxCommand} (hkeyed : Keyed table)
    (h : row ∈ table.entries.map Prod.snd) : table.get? row.commandId = some row := by
  obtain ⟨⟨key, _⟩, he, rfl⟩ := mem_map.mp h
  have hrow := mem_entries_iff.mp he
  rw [hkeyed key _ hrow]
  exact hrow

lemma mem_placeSiblings {row selected : OutboxCommand} (hkeyed : Keyed table)
    (h : row ∈ placeSiblings table selected) :
    table.get? row.commandId = some row ∧ row.state = .queued := by
  rw [placeSiblings, outboxSort, mem_insertionSort, mem_filter] at h
  have hstate := h.2
  simp only [Bool.and_eq_true, decide_eq_true_eq] at hstate
  exact ⟨mem_rows hkeyed h.1, hstate.1⟩

lemma place_row {before : Option String} {a : Bool} (hkeyed : Keyed table)
    (h : outboxPlace table now d before = .ok (table', a)) :
    RowChange (.place d before) now c (table.get? c) (table'.get? c) := by
  unfold outboxPlace at h
  split at h
  · cases h
  rename_i selected hsel
  obtain ⟨_, hedit, h⟩ := bind_ok h
  dsimp only at h
  obtain ⟨insertAt, -, h⟩ := bind_ok h
  replace h := congrArg Prod.fst (Except.ok.inj h)
  dsimp only at h
  -- Every slot is given to a queued row of the table, the selected one included.
  have hslots : ∀ slot ∈ ((placeSiblings table selected).filter
      (fun c => decide (c.commandId ≠ d))).insertIdx insertAt selected |>.zip
        ((placeSiblings table selected).map (·.order)),
      table.get? slot.1.commandId = some slot.1 ∧ slot.1.state = .queued := by
    intro slot hslot
    have hmem := of_mem_zip hslot |>.1
    rcases eq_or_mem_of_mem_insertIdx hmem with heq | hmem
    · rw [heq]
      exact ⟨mem_rows hkeyed (mem_of_find?_eq_some hsel), ensureOutboxEditable_ok hedit⟩
    · exact mem_placeSiblings hkeyed (mem_filter.mp hmem).1
  have hstart : PlacedFrom table now (table, false).1 := fun c => .inl rfl
  have hfold := foldl_placeSlot hslots hstart c
  rcases hfold with hc | ⟨row, order, hrow, hstate, hc⟩
  · rw [← h, hc]
    exact .same _
  · rw [← h, hc, hrow]
    exact .place rfl hstate

end Operations

variable {enc : Encoding} {table : Outbox} {now : Nat}

lemma run_row (hkeyed : Keyed table) (op : OutboxOp) (c : String) :
    RowChange op now c (table.get? c) ((op.run enc table now).1.get? c) := by
  cases hrun : op.transact enc table now with
  | error e =>
    rw [OutboxOp.run, hrun]
    exact .same _
  | ok r =>
  obtain ⟨table', a⟩ := r
  rw [OutboxOp.run, hrun]
  change RowChange op now c (table.get? c) (table'.get? c)
  cases op with
  | put => exact put_row hrun
  | prune => exact prune_row hrun
  | claimDispatch => exact claim_row rfl hrun
  | claimSteer =>
    obtain ⟨_, -, hclaim⟩ := bind_ok hrun
    exact claim_row rfl hclaim
  | resolve => exact resolve_row hrun
  | failQueued => exact failQueued_row hrun
  | setState =>
    obtain ⟨r, hr, hmap⟩ := map_ok hrun
    cases hmap
    exact queueUpdate_row (fun row hlive => .setState rfl hlive) hr
  | defer =>
    obtain ⟨r, hr, hmap⟩ := map_ok hrun
    cases hmap
    exact queueUpdate_row (fun row hlive => .defer rfl hlive) hr
  | wait =>
    obtain ⟨r, hr, hmap⟩ := map_ok hrun
    cases hmap
    exact queueUpdate_row (fun row hlive => .wait rfl hlive) hr
  | recoverLegacy => exact recover_row hrun
  | retryFailed => exact retry_row hrun
  | edit => exact edit_row hrun
  | place => exact place_row hkeyed hrun
  | cancel => exact cancel_row hrun

lemma run_keyed (hkeyed : Keyed table) (op : OutboxOp) : Keyed (op.run enc table now).1 :=
  hkeyed.of_rowChange (fun c => run_row hkeyed op c)

variable {op : OutboxOp}

lemma run_grant {g : Grant} (h : op.grant? (op.run enc table now).2 = some g) :
    op.claims? = some (g.commandId, g.kind, g.operationId) ∧
    ∃ row, table.get? g.commandId = some row ∧ row.state = .queued ∧ g.token = nextToken row ∧
      nextToken row ≤ max64 ∧
      ¬ (g.kind = .steer ∧ ∃ claim, row.claim = some claim ∧ claim.kind = .steer ∧
        claim.operationId = g.operationId) ∧
      (op.run enc table now).1 =
        table.insert g.commandId (claimedRow now g.kind g.operationId row) := by
  have hclaim : ∀ {d kind operationId table'} {a : OutboxClaimOutcome} {row : OutboxCommand}
      {token : Nat}, outboxClaim table now d kind operationId = .ok (table', a) →
      a = .acquired row token → ∃ row, table.get? d = some row ∧ row.state = .queued ∧
        token = nextToken row ∧ nextToken row ≤ max64 ∧ ¬ (kind = .steer ∧ ∃ claim, row.claim = some claim ∧
          claim.kind = .steer ∧ claim.operationId = operationId) ∧
        table' = table.insert d (claimedRow now kind operationId row) := by
    rintro d kind operationId table' a row token hok rfl
    rcases outboxClaim_ok hok with ⟨-, hnot⟩ | ⟨row', hrow, hstate, hmax, hnew, htable, ha⟩
    · exact absurd rfl (hnot row token)
    · cases ha
      exact ⟨row', hrow, hstate, rfl, hmax, hnew, htable⟩
  unfold OutboxOp.run at h ⊢
  cases hrun : op.transact enc table now with
  | error e =>
    rw [hrun] at h
    cases op <;> cases h
  | ok r =>
  obtain ⟨table', a⟩ := r
  rw [hrun] at h
  cases op <;> first
    | cases h
    | cases a <;> cases h
  · exact ⟨rfl, hclaim hrun rfl⟩
  · obtain ⟨_, -, hrun⟩ := bind_ok hrun
    exact ⟨rfl, hclaim hrun rfl⟩

lemma run_eq_of_no_grant (hop : op.claims?.isSome = true)
    (h : op.grant? (op.run enc table now).2 = none) : (op.run enc table now).1 = table := by
  have hclaim : ∀ {d kind operationId table'} {a : OutboxClaimOutcome},
      outboxClaim table now d kind operationId = .ok (table', a) →
      (∀ row token, a ≠ .acquired row token) → table' = table := by
    intro d kind operationId table' a hok hnot
    rcases outboxClaim_ok hok with ⟨heq, -⟩ | ⟨row, -, -, -, -, -, ha⟩
    · exact heq
    · exact absurd ha (hnot _ _)
  unfold OutboxOp.run at h ⊢
  cases hrun : op.transact enc table now with
  | error e => rfl
  | ok r =>
  obtain ⟨table', a⟩ := r
  rw [hrun] at h
  change table' = table
  cases op <;> first
    | cases hop; done
    | skip
  · refine hclaim hrun ?_
    rintro row token rfl
    cases h
  obtain ⟨_, -, hrun⟩ := bind_ok hrun
  refine hclaim hrun ?_
  rintro row token rfl
  cases h

lemma run_settled {d : String} {token : Nat}
    (h : op.settled? (op.run enc table now).2 = some (d, token)) :
    ∃ resolution row, op = .resolve d token resolution ∧ table.get? d = some row ∧
      InFlight row token ∧ row.state = .uncertain ∧
      (op.run enc table now).1 = table.insert d (resolvedRow now resolution row) := by
  unfold OutboxOp.run at h ⊢
  cases hrun : op.transact enc table now with
  | error e =>
    rw [hrun] at h
    cases op <;> cases h
  | ok r =>
  obtain ⟨table', a⟩ := r
  rw [hrun] at h
  cases op <;> first
    | cases h
    | cases a <;> cases h
  rename_i resolution row
  rcases outboxResolveClaim_ok hrun with ⟨-, hnot⟩ | ⟨row', hrow, hfly, hstate, htable, -⟩
  · exact absurd rfl (hnot row)
  · exact ⟨resolution, row', rfl, hrow, hfly, hstate, htable⟩

lemma run_eq_of_not_settled {d : String} {token : Nat} {resolution : OutboxClaimResolution}
    (h : (OutboxOp.resolve d token resolution).settled?
      ((OutboxOp.resolve d token resolution).run enc table now).2 = none) :
    ((OutboxOp.resolve d token resolution).run enc table now).1 = table := by
  unfold OutboxOp.run at h ⊢
  cases hrun : (OutboxOp.resolve d token resolution).transact enc table now with
  | error e => rfl
  | ok r =>
  obtain ⟨table', a⟩ := r
  rw [hrun] at h
  rcases outboxResolveClaim_ok hrun with ⟨heq, -⟩ | ⟨row, -, -, -, -, rfl⟩
  · exact heq
  · cases h

end CodeWide.Store
