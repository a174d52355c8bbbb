import CodeWide.Store.OutboxTypes
import Mathlib.Data.List.Sort
import Mathlib.Data.List.Infix

/-!
# The operations of the command outbox

Every `outbox_*` method of `IndexStore` as a function of the table its write transaction reads.
-/

namespace CodeWide.Store

open Lib Saturating

/-- The table and the answer after a transaction: a failed one writes nothing. -/
def commit {α : Type} (table : Outbox) :
    Except StoreError (Outbox × α) → Outbox × Except StoreError α
  | .ok (table', a) => (table', .ok a)
  | .error e => (table, .error e)

def outboxNotFound : StoreError := .corruptedIndex "outbox command not found"

/-- Lexicographic order of two numeric sort keys. -/
def keyLe (a b : Nat × Nat) : Prop := a.1 < b.1 ∨ a.1 = b.1 ∧ a.2 ≤ b.2

instance (a b : Nat × Nat) : Decidable (keyLe a b) :=
  inferInstanceAs (Decidable (a.1 < b.1 ∨ a.1 = b.1 ∧ a.2 ≤ b.2))

def deliveredReceipts (table : Outbox) : List (String × OutboxCommand) :=
  (table.entries.filter (fun e => decide (e.2.state = .delivered))).insertionSort
    (fun a b => keyLe (a.2.updatedAt, a.2.order) (b.2.updatedAt, b.2.order))

/-- One step of the pruning loop: drop the receipt while its owner holds too many. -/
def pruneReceipt (acc : Outbox × (Option String → Nat) × Nat) (receipt : String × OutboxCommand) :
    Outbox × (Option String → Nat) × Nat :=
  let (table, counts, removed) := acc
  let owner := receipt.2.ownerContext
  if counts owner ≤ maxRetainedDeliveredCommands then acc
  else if table.contains receipt.1 then
    (table.erase receipt.1, Function.update counts owner (counts owner - 1), removed + 1)
  else (table.erase receipt.1, counts, removed)

/-- The table after pruning, the number of rows reclaimed and the greatest order. -/
def pruneDeliveredOutboxReceipts (table : Outbox) : Outbox × Nat × Nat :=
  let maxOrder := table.entries.foldl (fun m e => max m e.2.order) 0
  let delivered := deliveredReceipts table
  let counts : Option String → Nat := fun owner =>
    delivered.countP (fun e => decide (e.2.ownerContext = owner))
  let (pruned, _, removed) := delivered.foldl pruneReceipt (table, counts, 0)
  (pruned, removed, maxOrder)

def outboxPruneDeliveredReceipts (table : Outbox) : Except StoreError (Outbox × Nat) :=
  let (pruned, removed, _) := pruneDeliveredOutboxReceipts table
  .ok (pruned, removed)

def validateWorkspaceRequestId : Option String → Except StoreError Unit
  | some requestId => validateOutboxId requestId "workspace request id"
  | none => .ok ()

def outboxPutTurnStart (enc : Encoding) (table : Outbox) (now : Nat)
    (commandId remoteThreadId : String) (params : Json) (metadata : OutboxPutMetadata) :
    Except StoreError (Outbox × OutboxCommand) := do
  validateOutboxId commandId "command id"
  validateOutboxId remoteThreadId "remote thread id"
  validateWorkspaceRequestId metadata.workspaceRequestId
  validateTurnStartParams commandId remoteThreadId params
  if enc.paramsLen params > maxOutboxCommandBytes then
    .error (.corruptedIndex "outbox command exceeds 1 MiB")
  else match table.get? commandId with
  | some existing =>
    if existing.remoteThreadId ≠ remoteThreadId ∨ existing.method ≠ "turn/start" ∨
        existing.params ≠ params ∨ existing.presentation ≠ metadata.presentation ∨
        existing.workspaceRequestId ≠ metadata.workspaceRequestId ∨
        existing.ownerContext.isSome ∨ existing.queueInput.isSome then
      .error (.corruptedIndex "outbox command id already has a different payload")
    else .ok (table, existing)
  | none => do
    let (pruned, _, maxOrder) := pruneDeliveredOutboxReceipts table
    let command : OutboxCommand :=
      { commandId, remoteThreadId, method := "turn/start", params, state := .queued
        presentation := metadata.presentation
        workspaceRequestId := metadata.workspaceRequestId
        ownerContext := none, queueInput := none
        order := add64 maxOrder 1
        createdAt := metadata.createdAt.getD now, updatedAt := now
        lastError := none, attempts := 0, nextAttemptAt := 0, claim := none }
    ensureOutboxOwnerQuota (outboxOwnerBytes enc pruned none) (enc.commandLen command)
    .ok (pruned.insert commandId command, command)

/-- Dispatch order: `order`, then creation time, then the table's own order. -/
def outboxSort (commands : List OutboxCommand) : List OutboxCommand :=
  commands.insertionSort (fun a b => keyLe (a.order, a.createdAt) (b.order, b.createdAt))

def outboxList (table : Outbox) (remoteThreadId : Option String) : List OutboxCommand :=
  outboxSort ((table.entries.map Prod.snd).filter
    (fun command => remoteThreadId.all (fun id => decide (command.remoteThreadId = id))))

def isTerminal (command : OutboxCommand) : Bool :=
  decide (command.state = .failed) || decide (command.state = .delivered)

/-- `heads.entry(thread).or_insert(command)` over the commands in dispatch order. -/
def pushHead (heads : List OutboxCommand) (command : OutboxCommand) : List OutboxCommand :=
  if isTerminal command then heads
  else if heads.any (fun head => decide (head.remoteThreadId = command.remoteThreadId)) then heads
  else heads ++ [command]

def outboxHeads (table : Outbox) : List OutboxCommand :=
  (outboxList table none).foldl pushHead []

/-- The first dispatchable command of every thread, in no specified order. -/
def outboxReadyHeads (table : Outbox) (now : Nat) : List OutboxCommand :=
  (outboxHeads table).filter
    (fun command => decide (command.nextAttemptAt ≤ now) && !outboxHasInFlightClaim command)

def nextToken (command : OutboxCommand) : Nat :=
  match command.claim with
  | none => 1
  | some claim => claim.token + 1

def outboxClaim (table : Outbox) (now : Nat) (commandId : String) (kind : OutboxClaimKind)
    (operationId : Option String) : Except StoreError (Outbox × OutboxClaimOutcome) := do
  validateOutboxId commandId "command id"
  match table.get? commandId with
  | none => .ok (table, .unavailable none)
  | some command =>
    let repeatedSteer := decide (kind = .steer) && command.claim.any (fun claim =>
      decide (claim.kind = .steer) && decide (claim.operationId = operationId))
    if repeatedSteer then .ok (table, .duplicate command)
    else if command.state ≠ .queued then .ok (table, .unavailable (some command))
    else
      let token := nextToken command
      if token > max64 then
        .error (.corruptedIndex "outbox claim token exhausted")
      else
        let command := { command with
          state := .uncertain, updatedAt := now, nextAttemptAt := 0, lastError := none
          claim := some { token, kind, operationId, resolved := false } }
        .ok (table.insert commandId command, .acquired command token)

def outboxClaimDispatch (table : Outbox) (now : Nat) (commandId : String) :
    Except StoreError (Outbox × OutboxClaimOutcome) :=
  outboxClaim table now commandId .dispatch none

def outboxClaimSteer (table : Outbox) (now : Nat) (commandId operationId : String) :
    Except StoreError (Outbox × OutboxClaimOutcome) := do
  validateOutboxId operationId "steer operation id"
  outboxClaim table now commandId .steer (some operationId)

/-- What a resolution makes of the claimed row, before its claim is marked resolved. -/
def applyResolution (command : OutboxCommand) (now : Nat) :
    OutboxClaimResolution → OutboxCommand
  | .delivered => { command with state := .delivered, lastError := none, nextAttemptAt := 0 }
  | .notSent retryAfterMs =>
    { command with
      state := .queued, lastError := none, nextAttemptAt := add64 now retryAfterMs }
  | .busy =>
    { command with
      state := .queued, presentation := .queue, lastError := none, nextAttemptAt := now }
  | .rejected error =>
    { command with
      state := .failed, lastError := some (boundedOutboxError error), nextAttemptAt := 0 }
  | .indeterminate error retryAfterMs =>
    { command with
      attempts := add32 command.attempts 1
      lastError := some (boundedOutboxError error)
      nextAttemptAt := add64 now retryAfterMs }

def markClaimResolved (command : OutboxCommand) : OutboxCommand :=
  { command with claim := command.claim.map (fun claim => { claim with resolved := true }) }

def outboxResolveClaim (table : Outbox) (now : Nat) (commandId : String) (token : Nat)
    (resolution : OutboxClaimResolution) :
    Except StoreError (Outbox × OutboxClaimResolutionOutcome) := do
  validateOutboxId commandId "command id"
  match table.get? commandId with
  | none => .ok (table, .stale none)
  | some command =>
    match command.claim with
    | none => .ok (table, .stale (some command))
    | some claim =>
      if claim.token ≠ token then .ok (table, .stale (some command))
      else if claim.resolved ∨ command.state ≠ .uncertain then
        .ok (table, .alreadyResolved command)
      else
        let command := markClaimResolved
          { applyResolution command now resolution with updatedAt := now }
        .ok (table.insert commandId command, .applied command)

def outboxFailQueued (table : Outbox) (now : Nat) (commandId error : String) :
    Except StoreError (Outbox × Option OutboxCommand) := do
  validateOutboxId commandId "command id"
  match table.get? commandId with
  | none => .ok (table, none)
  | some command =>
    if command.state ≠ .queued then .ok (table, none)
    else
      let command := { command with
        state := .failed, updatedAt := now, lastError := some (boundedOutboxError error)
        nextAttemptAt := 0 }
      .ok (table.insert commandId command, some command)

def settleClaim (state : OutboxState) (command : OutboxCommand) : OutboxCommand :=
  if state ≠ .uncertain then markClaimResolved command else command

/-- A terminal row or one with an in-flight claim is returned as it is. -/
def outboxQueueUpdate (table : Outbox) (commandId : String)
    (update : OutboxCommand → OutboxCommand) : Except StoreError (Outbox × OutboxCommand × Bool) :=
  match table.get? commandId with
  | none => .error outboxNotFound
  | some command =>
    if outboxRejectsStaleQueueUpdate command then .ok (table, command, false)
    else .ok (table.insert commandId (update command), update command, true)

def setStateUpdate (now : Nat) (state : OutboxState) (lastError : Option String)
    (command : OutboxCommand) : OutboxCommand :=
  settleClaim state { command with
    state, updatedAt := now, lastError := lastError.map boundedOutboxError, nextAttemptAt := 0 }

def outboxSetState (table : Outbox) (now : Nat) (commandId : String) (state : OutboxState)
    (lastError : Option String) : Except StoreError (Outbox × OutboxCommand) :=
  (outboxQueueUpdate table commandId (setStateUpdate now state lastError)).map
    (fun r => (r.1, r.2.1))

def deferUpdate (now : Nat) (state : OutboxState) (lastError : String) (delayMs : Nat)
    (command : OutboxCommand) : OutboxCommand :=
  settleClaim state { command with
    state, attempts := add32 command.attempts 1, updatedAt := now
    nextAttemptAt := add64 now delayMs
    lastError := some (boundedOutboxError lastError) }

def outboxDefer (table : Outbox) (now : Nat) (commandId : String) (state : OutboxState)
    (lastError : String) (delayMs : Nat) : Except StoreError (Outbox × OutboxCommand) :=
  (outboxQueueUpdate table commandId (deferUpdate now state lastError delayMs)).map
    (fun r => (r.1, r.2.1))

def waitUpdate (now : Nat) (state : OutboxState) (lastError : Option String) (delayMs : Nat)
    (command : OutboxCommand) : OutboxCommand :=
  settleClaim state { command with
    state, updatedAt := now, nextAttemptAt := add64 now delayMs
    lastError := lastError.map boundedOutboxError }

/-- The returned flag reports a change the client sees. -/
def outboxWait (table : Outbox) (now : Nat) (commandId : String) (state : OutboxState)
    (lastError : Option String) (delayMs : Nat) :
    Except StoreError (Outbox × OutboxCommand × Bool) :=
  let changed := (table.get? commandId).any (fun command =>
    decide (command.state ≠ state) || decide (command.lastError ≠ lastError))
  (outboxQueueUpdate table commandId (waitUpdate now state lastError delayMs)).map
    (fun r => (r.1, r.2.1, r.2.2 && changed))

def reopen (now : Nat) (command : OutboxCommand) : OutboxCommand :=
  { command with
    state := .queued, attempts := 0, updatedAt := now, nextAttemptAt := 0, lastError := none }

def containsText (text needle : String) : Bool := decide (needle.toList <:+: text.toList)

def isLegacyAccountPoolFailure (command : OutboxCommand) : Bool :=
  decide (command.state = .failed) && command.lastError.any (fun error =>
    containsText error "account switch deferred while another turn is active" ||
      containsText error "Codex App Server restart failed")

def outboxRecoverLegacyAccountPoolFailures (table : Outbox) (now : Nat) :
    Except StoreError (Outbox × List String) :=
  let updates := table.entries.filter (fun e => isLegacyAccountPoolFailure e.2)
  .ok (updates.foldl (fun t e => t.insert e.1 (reopen now e.2)) table,
    (updates.map (fun e => e.2.remoteThreadId)).dedup)

def outboxRetryFailed (table : Outbox) (now : Nat) (commandId : String) :
    Except StoreError (Outbox × OutboxCommand) :=
  match table.get? commandId with
  | none => .error outboxNotFound
  | some command =>
    if command.state ≠ .failed then
      .error (.corruptedIndex "only a failed outbox command can be retried")
    else .ok (table.insert commandId (reopen now command), reopen now command)

def itemType (item : Json) : Option String := (item.get? "type").bind Json.asStr?

def isEditableItem (item : Json) : Bool :=
  decide (itemType item = some "text") || decide (itemType item = some "remoteFile")

def isBoundedText (item : Json) : Bool :=
  decide (itemType item ≠ some "text") ||
    ((item.get? "text").bind Json.asStr?).any (fun text => decide (text.length ≤ 1000000))

/-- The replacement parts of `outbox_edit_prompt`, or the error it answers. -/
def validateReplacement (replacementInput : Json) : Except StoreError (List Json) :=
  match replacementInput.asArr? with
  | none => .error (.corruptedIndex "queued input must be an array")
  | some replacement =>
    if replacement.isEmpty ∨ replacement.countP (fun i => decide (itemType i = some "text")) > 1 ∨
        ¬ replacement.all isEditableItem ∨ ¬ replacement.all isBoundedText then
      .error (.corruptedIndex "queued input must contain editable text or remote files")
    else .ok replacement

def outboxEditPrompt (enc : Encoding) (table : Outbox) (now : Nat) (commandId : String)
    (replacementInput : Json) : Except StoreError (Outbox × OutboxCommand) := do
  let replacement ← validateReplacement replacementInput
  match table.get? commandId with
  | none => .error outboxNotFound
  | some command => do
    ensureOutboxEditable command
    match (command.params.get? "input").bind Json.asArr? with
    | none => .error (.corruptedIndex "queued command has no input")
    | some input => do
      let preserved := input.filter (fun item => !isEditableItem item)
      let params := command.params.insert "input" (.arr (replacement ++ preserved))
      validateTurnStartParams command.commandId command.remoteThreadId params
      if enc.paramsLen params > maxOutboxCommandBytes then
        .error (.corruptedIndex "outbox command exceeds 1 MiB")
      else do
        let edited := { command with params, updatedAt := now }
        ensureOutboxOwnerReplacementQuota (outboxOwnerBytes enc table command.ownerContext)
          (enc.commandLen command) (enc.commandLen edited)
        .ok (table.insert commandId edited, edited)

def placeSiblings (table : Outbox) (selected : OutboxCommand) : List OutboxCommand :=
  outboxSort ((table.entries.map Prod.snd).filter (fun candidate =>
    decide (candidate.state = .queued) &&
      (decide (candidate.remoteThreadId = selected.remoteThreadId) &&
        decide (candidate.ownerContext = selected.ownerContext))))

/-- Where the selected command goes among the others: before the target, or last. -/
def placeIndex (others : List OutboxCommand) : Option String → Except StoreError Nat
  | none => .ok others.length
  | some target =>
    match others.findIdx? (fun c => decide (c.commandId = target)) with
    | none => .error (.corruptedIndex "queued placement target does not exist")
    | some i => .ok i

/-- Gives a command its new order slot; the row is written only when the order differs. -/
def placeSlot (now : Nat) (acc : Outbox × Bool) (slot : OutboxCommand × Nat) : Outbox × Bool :=
  if slot.1.order ≠ slot.2 then
    (acc.1.insert slot.1.commandId { slot.1 with order := slot.2, updatedAt := now }, true)
  else acc

def outboxPlace (table : Outbox) (now : Nat) (commandId : String)
    (beforeCommandId : Option String) : Except StoreError (Outbox × Bool) :=
  match (table.entries.map Prod.snd).find? (fun c => decide (c.commandId = commandId)) with
  | none => .error outboxNotFound
  | some selected => do
    ensureOutboxEditable selected
    let sameThread := placeSiblings table selected
    let orderSlots := sameThread.map (·.order)
    let others := sameThread.filter (fun c => decide (c.commandId ≠ commandId))
    let insertAt ← placeIndex others beforeCommandId
    let placed := others.insertIdx insertAt selected
    .ok ((placed.zip orderSlots).foldl (placeSlot now) (table, false))

def outboxCancel (table : Outbox) (commandId : String) : Except StoreError (Outbox × Bool) :=
  match table.get? commandId with
  | none => .ok (table, false)
  | some command =>
    if ¬ (command.state = .queued ∨ command.state = .failed) then .ok (table, false)
    else .ok (table.erase commandId, true)

end CodeWide.Store
