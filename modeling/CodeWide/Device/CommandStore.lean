import CodeWide.Device.OrgJson
import CodeWide.Lib.Run
import Mathlib.Data.List.Sort

/-!
# The device's command queue

`NativeCommandStore`, the commands a device still has to deliver, and the drain loop of a session.
-/

namespace CodeWide.Device

open Lib

inductive NativeCommandReconciliation where
  | turnByClientMessage
  | serverRequestByPendingSet
  | idempotentRetry

namespace NativeCommandPolicy

def policies : List (String × NativeCommandReconciliation) :=
  [("turn/start", .idempotentRetry),
    ("turn/steer", .turnByClientMessage),
    ("serverRequest/respond", .serverRequestByPendingSet),
    ("thread/name/set", .idempotentRetry),
    ("thread/archive", .idempotentRetry),
    ("thread/unarchive", .idempotentRetry),
    ("thread/delete", .idempotentRetry),
    ("thread/settings/update", .idempotentRetry),
    ("turn/interrupt", .idempotentRetry),
    ("companion/queue/put", .idempotentRetry),
    ("companion/queue/edit", .idempotentRetry),
    ("companion/queue/cancel", .idempotentRetry),
    ("companion/queue/retry", .idempotentRetry),
    ("companion/queue/move", .idempotentRetry),
    ("companion/queue/steer", .idempotentRetry)]

def reconciliation (method : String) : Option NativeCommandReconciliation :=
  policies.lookup method

/-- Commands are FIFO inside a lane, not across the whole connection. -/
def deliveryLane (method : String) : Option String → String
  | some threadId =>
    if method = "turn/interrupt" then "thread:" ++ threadId ++ ":control"
    else "thread:" ++ threadId
  | none => "__global__"

end NativeCommandPolicy

inductive CommandState where
  | queued
  | sending
  | uncertain
  | failed
  | delivered
deriving DecidableEq

structure NativeCommand where
  connectionId : String
  commandId : String
  method : String
  paramsJson : String
  state : CommandState := .queued
  attempts : Nat := 0
  lastError : Option String := none
  createdAt : Nat
  updatedAt : Nat
  nextAttemptAt : Nat := 0

/-- A row of the table. `lane` and `settled` are history that no operation reads. -/
structure CommandRow extends NativeCommand where
  payloadBytes : Nat
  lane : String
  settled : Bool := false

namespace CommandRow

def named (connectionId commandId : String) (row : CommandRow) : Bool :=
  decide (row.connectionId = connectionId ∧ row.commandId = commandId)

def pending (row : CommandRow) : Bool :=
  decide (row.state = .queued ∨ row.state = .uncertain)

/-- The key of `ORDER BY created_at, command_id`. -/
def le (a b : CommandRow) : Prop :=
  a.createdAt < b.createdAt ∨ a.createdAt = b.createdAt ∧ a.commandId ≤ b.commandId

instance (a b : CommandRow) : Decidable (a.le b) :=
  inferInstanceAs (Decidable (a.createdAt < b.createdAt ∨ _))

end CommandRow

namespace NativeCommandStore

def maxCommandsPerConnection : Nat := 1000

def maxCommandBytes : Nat := 4 * 1024 * 1024

def maxBytesPerConnection : Nat := 16 * 1024 * 1024

def receiptRetentionMs : Nat := 7 * 24 * 60 * 60 * 1000

def maxDeliveredReceipts : Nat := 250

def maxReceiptTextChars : Nat := 256 * 1024

/-- `text.take(n)` on UTF-16 units; half of a surrogate pair is left out. -/
def takeUnits (n : Nat) (text : String) : String :=
  String.ofList (go n text.toList)
where
  go : Nat → List Char → List Char
    | _, [] => []
    | left, c :: rest =>
      let units := if c.toNat < 0x10000 then 1 else 2
      if units ≤ left then c :: go (left - units) rest else []

section Fields

variable (org : OrgJson)

def optNotBlank (object : Json) (k : String) : Option String :=
  if isNotBlank (optString org object k) then some (optString org object k) else none

def commandThreadId (paramsJson : String) : Option String :=
  (org.object paramsJson).bind fun params =>
    match (optJSONObject params "command").bind (optNotBlank org · "remoteThreadId") with
    | some threadId => some threadId
    | none => optNotBlank org params "threadId"

def commandServerRequestKey (paramsJson : String) : Option String :=
  (org.object paramsJson).bind fun params =>
    match params.get? "requestId" with
    | none => none
    | some .null => none
    | some requestId => some (nativeServerRequestKey org (some requestId))

def laneKey (command : NativeCommand) : String :=
  NativeCommandPolicy.deliveryLane command.method (commandThreadId org command.paramsJson)

def commandText (params : Json) : String :=
  match optJSONArray params "input" with
  | none => ""
  | some input =>
    let texts := (input.filter Json.isObj).map fun item =>
      if optString org item "type" = "text" then optString org item "text" else ""
    "\n".intercalate (texts.filter isNotBlank)

def receiptParamsJson (command : NativeCommand) : String :=
  let source := org.object command.paramsJson
  let threadId := (source.bind (optNotBlank org · "threadId")).getD ""
  let text := takeUnits maxReceiptTextChars ((source.map (commandText org)).getD "")
  org.text (.obj [("input", .arr [.obj [("text", .str text), ("type", .str "text")]]),
    ("threadId", .str threadId)])

end Fields

def read (rows : List CommandRow) (connectionId commandId : String) : Option CommandRow :=
  rows.find? (CommandRow.named connectionId commandId)

def update (rows : List CommandRow) (connectionId commandId : String)
    (set : CommandRow → CommandRow) : List CommandRow :=
  rows.map fun row => if row.named connectionId commandId then set row else row

def delete (rows : List CommandRow) (connectionId commandId : String) : List CommandRow :=
  rows.filter fun row => !row.named connectionId commandId

def unfinished (rows : List CommandRow) (connectionId : String) : List CommandRow :=
  rows.filter fun row =>
    decide (row.connectionId = connectionId ∧ row.state ≠ .failed ∧ row.state ≠ .delivered)

def enqueue (org : OrgJson) (now : Nat) (rows : List CommandRow)
    (connectionId commandId method paramsJson : String) :
    Except String (List CommandRow × NativeCommand) :=
  let payloadBytes := paramsJson.utf8ByteSize
  if maxCommandBytes < payloadBytes then
    .error "Native command payload is too large"
  else match read rows connectionId commandId with
  | some existing => .ok (rows, existing.toNativeCommand)
  | none =>
    let usage := unfinished rows connectionId
    if maxCommandsPerConnection ≤ usage.length then
      .error "Native command queue is full"
    else if maxBytesPerConnection < (usage.map (·.payloadBytes)).sum + payloadBytes then
      .error "Native command queue byte limit exceeded"
    else
      let command : NativeCommand :=
        { connectionId, commandId, method, paramsJson, createdAt := now, updatedAt := now }
      .ok (rows ++ [{ command with payloadBytes, lane := laneKey org command }], command)

def laneHeads (org : OrgJson) : List String → List CommandRow → List CommandRow
  | _, [] => []
  | lanes, candidate :: rest =>
    if laneKey org candidate.toNativeCommand ∈ lanes then laneHeads org lanes rest
    else candidate :: laneHeads org (laneKey org candidate.toNativeCommand :: lanes) rest

def pendingLaneHeads (org : OrgJson) (rows : List CommandRow) (connectionId : String) :
    List CommandRow :=
  laneHeads org []
    ((rows.filter fun row => decide (row.connectionId = connectionId) && row.pending).insertionSort
      CommandRow.le)

def nextReady (org : OrgJson) (now : Nat) (rows : List CommandRow) (connectionId : String) :
    Option CommandRow :=
  (pendingLaneHeads org rows connectionId).find? fun row => decide (row.nextAttemptAt ≤ now)

def markSending (now : Nat) (rows : List CommandRow) (command : NativeCommand) :
    List CommandRow × NativeCommand :=
  let attempts := command.attempts + 1
  (update rows command.connectionId command.commandId fun row =>
      { row with state := .sending, attempts, lastError := none, nextAttemptAt := 0, updatedAt := now },
    { command with state := .sending, attempts, lastError := none, updatedAt := now, nextAttemptAt := 0 })

def markUncertain (now : Nat) (rows : List CommandRow) (command : NativeCommand) (error : String)
    (retryAt : Nat) : List CommandRow :=
  update rows command.connectionId command.commandId fun row =>
    { row with
      state := .uncertain, lastError := some (takeUnits 500 error), nextAttemptAt := retryAt,
      updatedAt := now }

def markFailed (now : Nat) (rows : List CommandRow) (command : NativeCommand) (error : String) :
    List CommandRow :=
  update rows command.connectionId command.commandId fun row =>
    { row with
      state := .failed, lastError := some (takeUnits 500 error), nextAttemptAt := 0,
      updatedAt := now, settled := true }

def retryFailed (now : Nat) (rows : List CommandRow) (connectionId commandId : String) :
    Except String (List CommandRow) :=
  match read rows connectionId commandId with
  | none => .error "Native command was not found"
  | some command =>
    if command.method ≠ "turn/start" ∧ command.method ≠ "turn/steer" then
      .error "Only failed message commands can be retried"
    else if command.state ≠ .failed then .ok rows
    else .ok (update rows connectionId commandId fun row =>
      if row.state = .failed then
        { row with state := .uncertain, lastError := none, nextAttemptAt := 0, updatedAt := now }
      else row)

def newestReceipts (rows : List CommandRow) : List CommandRow :=
  ((rows.filter fun row => decide (row.state = .delivered)).reverse.insertionSort
    fun a b => b.updatedAt ≤ a.updatedAt).take maxDeliveredReceipts

def expired (now : Nat) (row : CommandRow) : Bool :=
  decide ((row.state = .failed ∨ row.state = .delivered) ∧ row.updatedAt + receiptRetentionMs < now)

def pruneReceipts (now : Nat) (rows : List CommandRow) : List CommandRow :=
  let kept := rows.filter fun row => !expired now row
  kept.filter fun row => !(decide (row.state = .delivered) &&
    !(newestReceipts kept).any (CommandRow.named row.connectionId row.commandId))

def retainsDeliveryReceipt (method : String) : Bool :=
  decide (method = "turn/start" ∨ method = "turn/steer")

def markDelivered (org : OrgJson) (now : Nat) (rows : List CommandRow) (command : NativeCommand) :
    List CommandRow :=
  if retainsDeliveryReceipt command.method then
    let receiptParams := receiptParamsJson org command
    pruneReceipts now (update rows command.connectionId command.commandId fun row =>
      { row with
        paramsJson := receiptParams, payloadBytes := receiptParams.utf8ByteSize,
        state := .delivered, lastError := none, nextAttemptAt := 0, updatedAt := now,
        settled := true })
  else delete rows command.connectionId command.commandId

def acknowledgeDeliveryReceipt (rows : List CommandRow) (connectionId commandId : String) :
    List CommandRow :=
  rows.filter fun row => !(row.named connectionId commandId && decide (row.state = .delivered))

def deleteConnection (rows : List CommandRow) (connectionId : String) : List CommandRow :=
  rows.filter fun row => decide (row.connectionId ≠ connectionId)

def expediteReconciliation (now : Nat) (rows : List CommandRow) (connectionId : String)
    (matching : CommandRow → Bool) : List CommandRow :=
  rows.map fun row =>
    if row.connectionId = connectionId ∧ matching row = true then
      { row with nextAttemptAt := 0, updatedAt := now }
    else row

def expediteTurnReconciliation (org : OrgJson) (now : Nat) (rows : List CommandRow)
    (connectionId threadId : String) : List CommandRow :=
  expediteReconciliation now rows connectionId fun row =>
    decide ((row.method = "turn/start" ∨ row.method = "turn/steer") ∧ row.state = .uncertain ∧
      commandThreadId org row.paramsJson = some threadId)

def expediteServerResponseReconciliation (org : OrgJson) (now : Nat) (rows : List CommandRow)
    (connectionId requestKey : String) : List CommandRow :=
  expediteReconciliation now rows connectionId fun row =>
    decide (row.method = "serverRequest/respond" ∧ row.state = .uncertain ∧
      commandServerRequestKey org row.paramsJson = some requestKey)

/-- What a new process does: a command that was in flight is retained as uncertain. -/
def init (now : Nat) (rows : List CommandRow) : List CommandRow :=
  pruneReceipts now (rows.map fun row =>
    if row.state = .sending then
      { row with state := .uncertain, nextAttemptAt := 0, updatedAt := now }
    else row)

end NativeCommandStore

inductive Outbound where
  | rpc (method : String) (params : Json)
  | serverResponse (requestId : Json) (result : Option Json)

inductive Drain where
  | reconciling (command : NativeCommand) (request : Outbound)
  | sending (command : NativeCommand) (request : Outbound)

/-- How a call of the protocol engine ended. -/
inductive RpcOutcome where
  | ok
  | rejected (message : Option String)
  | interrupted (message : Option String)

structure CommandQueue where
  rows : List CommandRow := []
  draining : Table String Drain := ∅
  clock : Nat := 0

namespace CommandQueue

open NativeCommandStore

def outboxRetryDelayMs : Nat := 2000

def outboxEventWatchdogMs : Nat := 30000

def finish (s : CommandQueue) (id : String) (rows : List CommandRow) : CommandQueue :=
  { s with rows, draining := s.draining.erase id }

/-- The request id of a persisted server response, unless it is missing. -/
def requestId? (params : Json) : Option Json :=
  match params.get? "requestId" with
  | some .null => none
  | requestId => requestId

def payloadThreadId (org : OrgJson) (params : Json) : Option String :=
  if params.isObj then optNotBlank org params "threadId" else none

def outboundCommand (org : OrgJson) (command : NativeCommand) (params : Json) :
    Except String Outbound :=
  if command.method ≠ "turn/start" then .ok (.rpc command.method params)
  else if params.isObj = false then
    .error "Persisted turn/start params must be an object"
  else match optNotBlank org params "threadId" with
  | none => .error "Persisted turn/start has no thread id"
  | some threadId =>
    .ok (.rpc "companion/queue/put" (.obj [("command", .obj
      [("commandId", .str command.commandId), ("createdAt", .int command.createdAt),
        ("method", .str "turn/start"), ("params", params), ("presentation", .str "delivery"),
        ("remoteThreadId", .str threadId)])]))

def dispatchServerResponse (s : CommandQueue) (id : String) (command : NativeCommand)
    (params : Json) : CommandQueue :=
  match requestId? params with
  | none =>
    s.finish id (markFailed s.clock s.rows command "Persisted server response has no request id")
  | some requestId =>
    let (rows, sending) := markSending s.clock s.rows command
    { s with
      rows
      draining := s.draining.insert id
        (.sending sending (.serverResponse requestId (params.get? "result"))) }

def dispatchCommand (org : OrgJson) (s : CommandQueue) (id : String) (command : NativeCommand)
    (params : Json) : CommandQueue :=
  if command.method = "serverRequest/respond" then s.dispatchServerResponse id command params
  else match outboundCommand org command params with
  | .error message => s.finish id (markFailed s.clock s.rows command message)
  | .ok request =>
    let (rows, sending) := markSending s.clock s.rows command
    { s with rows, draining := s.draining.insert id (.sending sending request) }

def reconcileServerResponse (org : OrgJson) (s : CommandQueue) (id : String)
    (pendingApprovals : List String) (command : NativeCommand) (params : Json) : CommandQueue :=
  match requestId? params with
  | none =>
    s.finish id (markFailed s.clock s.rows command "Persisted server response has no request id")
  | some requestId =>
    if nativeServerRequestKey org (some requestId) ∈ pendingApprovals then
      dispatchCommand org s id command params
    else s.finish id (markDelivered org s.clock s.rows command)

def reconcileTurnCommand (org : OrgJson) (s : CommandQueue) (id : String)
    (command : NativeCommand) (params : Json) : CommandQueue :=
  match payloadThreadId org params with
  | none => s.finish id (markFailed s.clock s.rows command "Persisted turn command has no thread id")
  | some threadId =>
    let request := Outbound.rpc "thread/turns/list" (.obj
      [("cursor", .null), ("itemsView", .str "summary"), ("limit", .int 2),
        ("sortDirection", .str "desc"), ("threadId", .str threadId)])
    { s with draining := s.draining.insert id (.reconciling command request) }

def drainOutbox (org : OrgJson) (s : CommandQueue) (id : String) (live : Bool)
    (pendingApprovals : List String) : CommandQueue :=
  if s.draining.contains id = true ∨ live = false then s
  else match nextReady org s.clock s.rows id with
  | none => s
  | some command =>
    match org.value command.paramsJson with
    | none =>
      s.finish id (markFailed s.clock s.rows command.toNativeCommand
        "Invalid persisted command payload: JSONException")
    | some params =>
      if command.state = .uncertain then
        match NativeCommandPolicy.reconciliation command.method with
        | some .turnByClientMessage => reconcileTurnCommand org s id command.toNativeCommand params
        | some .serverRequestByPendingSet =>
          reconcileServerResponse org s id pendingApprovals command.toNativeCommand params
        | _ => dispatchCommand org s id command.toNativeCommand params
      else dispatchCommand org s id command.toNativeCommand params

def turnsContainClientMessage (org : OrgJson) (response : Json) (commandId : String) : Bool :=
  ((optJSONArray response "data").getD []).any fun turn =>
    ((optJSONArray turn "items").getD []).any fun item =>
      item.isObj && decide (optString org item "type" = "userMessage" ∧
        optString org item "clientId" = commandId)

def turnsContainActiveTurn (org : OrgJson) (response : Json) : Bool :=
  ((optJSONArray response "data").getD []).any fun turn =>
    match turn.get? "status" with
    | none => false
    | some status =>
      decide (status = .str "inProgress") || status.isObj &&
        decide (optString org status "type" = "active" ∨ optString org status "type" = "inProgress")

def turnsListed (org : OrgJson) (s : CommandQueue) (id : String)
    (result : Except (Option String) Json) : CommandQueue :=
  match s.draining.get? id with
  | some (.reconciling command _) =>
    match result with
    | .ok response =>
      if turnsContainClientMessage org response command.commandId then
        s.finish id (markDelivered org s.clock s.rows command)
      else if turnsContainActiveTurn org response then
        s.finish id (markUncertain s.clock s.rows command
          "Waiting for authoritative thread reconciliation" (s.clock + outboxEventWatchdogMs))
      else match org.value command.paramsJson with
        | none => s
        | some params => dispatchCommand org s id command params
    | .error message =>
      s.finish id (markUncertain s.clock s.rows command
        (message.getD "Turn reconciliation interrupted") (s.clock + outboxRetryDelayMs))
  | _ => s

/-- A delivered stop lets the messages of its thread be reconciled at once. -/
def expediteInterrupted (org : OrgJson) (s : CommandQueue) (id : String)
    (sending : NativeCommand) : List CommandRow :=
  if sending.method = "turn/interrupt" then
    match (org.value sending.paramsJson).bind (payloadThreadId org) with
    | none => s.rows
    | some threadId => expediteTurnReconciliation org s.clock s.rows id threadId
  else s.rows

def completed (org : OrgJson) (s : CommandQueue) (id : String) (outcome : RpcOutcome) :
    CommandQueue :=
  match s.draining.get? id with
  | some (.sending sending (.rpc _ _)) =>
    match outcome with
    | .ok => s.finish id (markDelivered org s.clock (expediteInterrupted org s id sending) sending)
    | .rejected message =>
      s.finish id (markFailed s.clock s.rows sending (message.getD "Remote command rejected"))
    | .interrupted message =>
      s.finish id (markUncertain s.clock s.rows sending
        (message.getD "Remote command delivery interrupted")
        (s.clock + min 30000 (500 * 2 ^ min sending.attempts 6)))
  | some (.sending sending (.serverResponse _ _)) =>
    match outcome with
    | .ok => s.finish id (markDelivered org s.clock s.rows sending)
    | .rejected message =>
      s.finish id (markFailed s.clock s.rows sending (message.getD "Server response rejected"))
    | .interrupted message =>
      s.finish id (markUncertain s.clock s.rows sending
        (message.getD "Server response delivery interrupted") (s.clock + outboxRetryDelayMs))
  | _ => s

inductive CommandInput where
  | enqueue (connectionId commandId method paramsJson : String)
  | drain (connectionId : String) (live : Bool) (pendingApprovals : List String)
  | turnsListed (connectionId : String) (result : Except (Option String) Json)
  | completed (connectionId : String) (outcome : RpcOutcome)
  | expediteThread (connectionId threadId : String)
  | expediteServerRequest (connectionId requestKey : String)
  | retryFailed (connectionId commandId : String)
  | acknowledgeReceipt (connectionId commandId : String)
  | deleteConnection (connectionId : String)
  | restart

def apply (org : OrgJson) (s : CommandQueue) : CommandInput → CommandQueue
  | .enqueue connectionId commandId method paramsJson =>
    match NativeCommandStore.enqueue org s.clock s.rows connectionId commandId method paramsJson with
    | .ok (rows, _) => { s with rows }
    | .error _ => s
  | .drain connectionId live pendingApprovals => drainOutbox org s connectionId live pendingApprovals
  | .turnsListed connectionId result => turnsListed org s connectionId result
  | .completed connectionId outcome => completed org s connectionId outcome
  | .expediteThread connectionId threadId =>
    { s with rows := expediteTurnReconciliation org s.clock s.rows connectionId threadId }
  | .expediteServerRequest connectionId requestKey =>
    { s with rows := expediteServerResponseReconciliation org s.clock s.rows connectionId requestKey }
  | .retryFailed connectionId commandId =>
    match NativeCommandStore.retryFailed s.clock s.rows connectionId commandId with
    | .ok rows => { s with rows }
    | .error _ => s
  | .acknowledgeReceipt connectionId commandId =>
    { s with rows := acknowledgeDeliveryReceipt s.rows connectionId commandId }
  | .deleteConnection connectionId =>
    s.finish connectionId (NativeCommandStore.deleteConnection s.rows connectionId)
  | .restart => { s with rows := NativeCommandStore.init s.clock s.rows, draining := ∅ }

def tick (s : CommandQueue) (elapsed : Nat) : CommandQueue := { s with clock := s.clock + elapsed }

def step (org : OrgJson) (s : CommandQueue) (input : Nat × CommandInput) : CommandQueue :=
  apply org (s.tick input.1) input.2

end CommandQueue

end CodeWide.Device
