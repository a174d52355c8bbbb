import CodeWide.Lib.Emission
import CodeWide.Transcript.Items

/-!
# The turn builder

`transcript/builder.rs` and `transcript/builder/task_items.rs`: one neutral turn out of the
classified frames of a conversation.
-/

namespace CodeWide.Transcript

open Lib

inductive TurnStatus where
  | inProgress
  | completed
  | interrupted
  | failed
deriving DecidableEq

inductive TurnErrorKind where
  | provider
  | authentication
  | processExited
  | sessionLost
  | usageLimit
  | unknown
deriving DecidableEq

structure TurnError where
  kind : TurnErrorKind
  message : String
deriving DecidableEq

inductive TurnOutcome where
  | completed
  | interrupted
  | failed (error : TurnError)
deriving DecidableEq

def TurnOutcome.status : TurnOutcome → TurnStatus
  | .completed => .completed
  | .interrupted => .interrupted
  | .failed _ => .failed

structure TokenUsage where
  inputTokens : Int
  cachedInputTokens : Int
  cacheWriteInputTokens : Option Int
  outputTokens : Int
  reasoningOutputTokens : Int
  totalTokens : Int
deriving DecidableEq

/-- The figures of a turn's usage; the provider's cost as the wire has it. -/
structure TurnUsageRecord where
  last : TokenUsage
  total : TokenUsage
  contextWindow : Option Int
  cost : Option Json

structure AgentTurn (Call : Type) where
  turnId : String
  status : TurnStatus
  origin : TurnOrigin
  startedAt : Int
  completedAt : Option Int
  error : Option TurnError
  items : List (AgentItem Call)
deriving DecidableEq

inductive ItemDelta where
  | text (text : String)
  | reasoning (text : String) (summaryIndex : Int)
deriving DecidableEq

inductive AgentEvent (Call : Type) where
  | turnStarted (turn : AgentTurn Call)
  | turnCompleted (turn : AgentTurn Call)
  | itemStarted (item : AgentItem Call)
  | itemCompleted (item : AgentItem Call)
  | itemDelta (itemId : String) (delta : ItemDelta)
  | planUpdated (plan : List PlanStep)
  | usageUpdated (last total : TokenUsage) (contextWindow : Option Int) (cost : Option Json)
deriving DecidableEq

inductive BlockKind where
  | text
  | thinking
  | toolUse
  | other
deriving DecidableEq

inductive StreamEvent where
  | messageStart (messageId : String)
  | blockStart (block : BlockKind) (index : Int)
  | textDelta (index : Int) (text : String)
  | thinkingDelta (index : Int) (text : String)
  | blockStop (index : Int)
  | other

inductive AssistantBlock where
  | text (text : String)
  | thinking (text : String)
  | toolUse (id : String) (input : Json) (name : String)
  | other

structure AssistantFrame where
  blocks : List AssistantBlock
  error : Option String
  messageId : String

structure UserFrame where
  nonExecution : List (String × String)
  toolResults : List ToolResultBlock
  toolUseResult : Json

structure TaskStartedFrame where
  taskId : String
  toolUseId : Option String

inductive ClaudeFrame where
  | stream (event : StreamEvent)
  | assistant (frame : AssistantFrame)
  | user (frame : UserFrame)
  | compacting
  | compactBoundary
  | taskStarted (frame : TaskStartedFrame)
  | taskNotification (report : TaskReport)
  | other

structure ItemSlot (Call : Type) where
  completed : Bool
  item : AgentItem Call

structure ToolCall where
  input : Json
  name : String
  startedAtMs : Int

structure TurnBuilderContext where
  appThreadId : String
  cwd : String
  nowMs : Int
  origin : TurnOrigin
  turnId : String

structure UserMessage where
  clientMessageId : Option String
  content : List UserContent

structure TurnBuilder (Call : Type) where
  slots : Table String (ItemSlot Call)
  order : List String
  tools : Table String ToolCall
  declined : List String
  snapshotOrdinals : Table String Nat
  streamBlocks : Table Int String
  currentMessageId : Option String
  heldAgentMessage : Option String
  userMessageCount : Nat
  notificationCount : Nat
  compactionCount : Nat
  openCompaction : Option (AgentItem Call)
  lastAssistantError : Option String
  mcpServers : List String
  nowMs : Int
  startedAt : Int
  context : TurnBuilderContext

variable {Call : Type}

def seconds (ms : Int) : Int := ms / 1000

namespace TurnBuilder

def new (context : TurnBuilderContext) : TurnBuilder Call where
  slots := ∅
  order := []
  tools := ∅
  declined := []
  snapshotOrdinals := ∅
  streamBlocks := ∅
  currentMessageId := none
  heldAgentMessage := none
  userMessageCount := 0
  notificationCount := 0
  compactionCount := 0
  openCompaction := none
  lastAssistantError := none
  mcpServers := []
  nowMs := context.nowMs
  startedAt := seconds context.nowMs
  context

def turnShape (b : TurnBuilder Call) (status : TurnStatus) (completedAt : Option Int)
    (error : Option TurnError) (items : List (AgentItem Call)) : AgentTurn Call where
  turnId := b.context.turnId
  status
  origin := b.context.origin
  startedAt := b.startedAt
  completedAt
  error
  items

def flushHeld (b : TurnBuilder Call) (phase : MessagePhase) :
    TurnBuilder Call × List (AgentEvent Call) :=
  match b.heldAgentMessage with
  | none => (b, [])
  | some held =>
    match b.slots.get? held with
    | none => ({ b with heldAgentMessage := none }, [])
    | some slot =>
      match slot.item.body with
      | .agentMessage text _ =>
        let item : AgentItem Call := ⟨slot.item.itemId, .agentMessage text phase⟩
        ({ b with slots := b.slots.insert held ⟨true, item⟩, heldAgentMessage := none },
          [.itemCompleted item])
      | _ => ({ b with heldAgentMessage := none }, [])

def start (b : TurnBuilder Call) (item : AgentItem Call) :
    TurnBuilder Call × List (AgentEvent Call) :=
  if b.slots.contains item.itemId then (b, [])
  else
    andThen (b.flushHeld .commentary) (fun b =>
      ({ b with
          slots := b.slots.insert item.itemId ⟨false, item⟩
          order := b.order ++ [item.itemId] },
        [.itemStarted item]))

def complete (b : TurnBuilder Call) (item : AgentItem Call) :
    TurnBuilder Call × List (AgentEvent Call) :=
  match b.slots.get? item.itemId with
  | none => (b, [])
  | some slot =>
    if slot.completed then (b, [])
    else if item.body.isAgentMessage then
      let written := { b with slots := b.slots.insert item.itemId ⟨false, item⟩ }
      let flushed :=
        if b.heldAgentMessage = some item.itemId then (written, [])
        else written.flushHeld .commentary
      ({ flushed.1 with heldAgentMessage := some item.itemId }, flushed.2)
    else
      ({ b with slots := b.slots.insert item.itemId ⟨true, item⟩ }, [.itemCompleted item])

def startAndComplete (b : TurnBuilder Call) (item : AgentItem Call) :
    TurnBuilder Call × List (AgentEvent Call) :=
  andThen (b.start item) (fun b => b.complete item)

def addUserMessage (b : TurnBuilder Call) (message : UserMessage) :
    TurnBuilder Call × List (AgentEvent Call) :=
  match parseId (b.context.turnId ++ ":user:" ++ toString b.userMessageCount) with
  | none => (b, [])
  | some itemId =>
    let counted := { b with userMessageCount := b.userMessageCount + 1 }
    counted.startAndComplete ⟨itemId, .userMessage message.clientMessageId message.content⟩

def begin (b : TurnBuilder Call) (userMessage : Option UserMessage) :
    TurnBuilder Call × List (AgentEvent Call) :=
  andThen (b, [.turnStarted (b.turnShape .inProgress none none [])]) (fun b =>
    match userMessage with
    | none => (b, [])
    | some message => b.addUserMessage message)

def textDelta (b : TurnBuilder Call) (itemId text : String) :
    TurnBuilder Call × List (AgentEvent Call) :=
  if text = "" ∨ b.heldAgentMessage = some itemId then (b, [])
  else
    match b.slots.get? itemId with
    | none => (b, [])
    | some slot =>
      if slot.completed then (b, [])
      else
        match slot.item.body with
        | .agentMessage current phase =>
          let item : AgentItem Call := ⟨slot.item.itemId, .agentMessage (current ++ text) phase⟩
          ({ b with slots := b.slots.insert itemId ⟨slot.completed, item⟩ },
            [.itemDelta itemId (.text text)])
        | _ => (b, [])

def pushSummary (text : String) : List String → List String
  | [] => [text]
  | first :: rest => (first ++ text) :: rest

def reasoningDelta (b : TurnBuilder Call) (itemId text : String) :
    TurnBuilder Call × List (AgentEvent Call) :=
  if text = "" then (b, [])
  else
    match b.slots.get? itemId with
    | none => (b, [])
    | some slot =>
      if slot.completed then (b, [])
      else
        match slot.item.body with
        | .reasoning summary content =>
          let item : AgentItem Call :=
            ⟨slot.item.itemId, .reasoning (pushSummary text summary) content⟩
          ({ b with slots := b.slots.insert itemId ⟨slot.completed, item⟩ },
            [.itemDelta itemId (.reasoning text 0)])
        | _ => (b, [])

def startBlock (b : TurnBuilder Call) (itemId : String) (kind : BlockKind) :
    TurnBuilder Call × List (AgentEvent Call) :=
  match kind with
  | .text => b.start ⟨itemId, .agentMessage "" .commentary⟩
  | .thinking => b.start ⟨itemId, .reasoning [] []⟩
  | .toolUse => (b, [])
  | .other => (b, [])

def startTool (t : ToolItems Call) (b : TurnBuilder Call) (toolUseId name : String)
    (input : Json) : TurnBuilder Call × List (AgentEvent Call) :=
  if b.tools.contains toolUseId then (b, [])
  else
    let called := { b with tools := b.tools.insert toolUseId ⟨input, name, b.nowMs⟩ }
    match toolDisposition name with
    | .plan => (called, [.planUpdated (todoPlan input)])
    | .exitPlan =>
      match parseId toolUseId with
      | none => (called, [])
      | some itemId => called.startAndComplete ⟨itemId, .plan ((strOf input "plan").getD "")⟩
    | .question => (called, [])
    | .item =>
      match startItem t ⟨toolUseId, input, name⟩ b.context.cwd b.mcpServers with
      | some item => called.start item
      | none => (called, [])

def markDeclined (b : TurnBuilder Call) (toolUseId : String) : TurnBuilder Call :=
  { b with declined := toolUseId :: b.declined }

def startCompaction (b : TurnBuilder Call) : TurnBuilder Call × List (AgentEvent Call) :=
  if b.openCompaction.isSome then (b, [])
  else
    let counted := { b with compactionCount := b.compactionCount + 1 }
    match parseId (b.context.turnId ++ ":compaction:" ++ toString counted.compactionCount) with
    | none => (counted, [])
    | some itemId =>
      let item : AgentItem Call := ⟨itemId, .compaction⟩
      { counted with openCompaction := some item }.start item

def completeCompaction (b : TurnBuilder Call) : TurnBuilder Call × List (AgentEvent Call) :=
  andThen (if b.openCompaction.isNone then b.startCompaction else (b, [])) (fun b =>
    match b.openCompaction with
    | none => (b, [])
    | some item => { b with openCompaction := none }.complete item)

def onStream (b : TurnBuilder Call) : StreamEvent → TurnBuilder Call × List (AgentEvent Call)
  | .messageStart messageId =>
    ({ b with currentMessageId := some messageId, streamBlocks := ∅ }, [])
  | .blockStart block index =>
    match b.currentMessageId with
    | none => (b, [])
    | some messageId =>
      if block = .text ∨ block = .thinking then
        match if 0 ≤ index then blockItemId messageId index.toNat else none with
        | none => (b, [])
        | some itemId =>
          { b with streamBlocks := b.streamBlocks.insert index itemId }.startBlock itemId block
      else (b, [])
  | .textDelta index text =>
    match b.streamBlocks.get? index with
    | some itemId => b.textDelta itemId text
    | none => (b, [])
  | .thinkingDelta index text =>
    match b.streamBlocks.get? index with
    | some itemId => b.reasoningDelta itemId text
    | none => (b, [])
  | .blockStop _ => (b, [])
  | .other => (b, [])

def streamed (b : TurnBuilder Call) (itemId : String) : Option (ItemBody Call) :=
  (b.slots.get? itemId).map (fun slot => slot.item.body)

/-- The completed item of a text or thinking block of a snapshot, which is authoritative
unless it is empty. -/
def snapshotItem (b : TurnBuilder Call) (itemId : String) : AssistantBlock → Option (AgentItem Call)
  | .text text =>
    let text := match b.streamed itemId with
      | some (.agentMessage streamed _) => if text = "" then streamed else text
      | _ => text
    some ⟨itemId, .agentMessage text .commentary⟩
  | .thinking text =>
    let summary := match b.streamed itemId with
      | some (.reasoning summary _) => if text = "" then summary else [text]
      | _ => if text = "" then [] else [text]
    some ⟨itemId, .reasoning summary []⟩
  | .toolUse .. => none
  | .other => none

def blockKind : AssistantBlock → BlockKind
  | .text _ => .text
  | _ => .thinking

def onBlock (t : ToolItems Call) (messageId : String) (b : TurnBuilder Call)
    (block : AssistantBlock) : TurnBuilder Call × List (AgentEvent Call) :=
  let index := (b.snapshotOrdinals.get? messageId).getD 0
  let b := { b with snapshotOrdinals := b.snapshotOrdinals.insert messageId (index + 1) }
  match block with
  | .toolUse id input name => startTool t b id name input
  | .other => (b, [])
  | block =>
    match blockItemId messageId index with
    | none => (b, [])
    | some itemId =>
      andThen (b.startBlock itemId (blockKind block)) (fun b =>
        match b.snapshotItem itemId block with
        | some item => b.complete item
        | none => (b, []))

def onAssistant (t : ToolItems Call) (b : TurnBuilder Call) (frame : AssistantFrame) :
    TurnBuilder Call × List (AgentEvent Call) :=
  emitEach (onBlock t frame.messageId) { b with lastAssistantError := frame.error } frame.blocks

def onResult (t : ToolItems Call) (frame : UserFrame) (b : TurnBuilder Call)
    (result : ToolResultBlock) : TurnBuilder Call × List (AgentEvent Call) :=
  match parseId result.toolUseId, b.tools.get? result.toolUseId with
  | some itemId, some call =>
    match b.slots.get? itemId with
    | none => (b, [])
    | some slot =>
      if slot.completed then (b, [])
      else
        let status := executionStatus result (frame.nonExecution.lookup result.toolUseId)
          (decide (result.toolUseId ∈ b.declined))
        let durationMs := max (b.nowMs - call.startedAtMs) 0
        let completed := completeItem t slot.item ⟨result.toolUseId, call.input, call.name⟩
          ⟨b.context.appThreadId, durationMs, result, status, frame.toolUseResult⟩
        andThen (b.complete completed) (fun b =>
          match if status = .completed then imageViewFor result.toolUseId call.name call.input
            else none with
          | some image => b.startAndComplete image
          | none => (b, []))
  | _, _ => (b, [])

def onUser (t : ToolItems Call) (b : TurnBuilder Call) (frame : UserFrame) :
    TurnBuilder Call × List (AgentEvent Call) :=
  emitEach (onResult t frame) b frame.toolResults

def addTaskNotification (b : TurnBuilder Call) (report : TaskReport)
    (delivery : TaskNotificationDelivery) (identity : TaskIdentity) :
    TurnBuilder Call × List (AgentEvent Call) :=
  match parseId (b.context.turnId ++ ":notification:" ++ toString b.notificationCount) with
  | none => (b, [])
  | some itemId =>
    let item : AgentItem Call := ⟨itemId, .taskNotification report delivery identity⟩
    ({ b with
        notificationCount := b.notificationCount + 1
        slots := b.slots.insert itemId ⟨true, item⟩
        order := b.order ++ [itemId] },
      [.itemStarted item, .itemCompleted item])

/-- The sub-agent item that the spawning call of a task started. -/
def subagentSlot (b : TurnBuilder Call) (toolUseId : Option String) :
    Option (String × ItemSlot Call × SubagentItem) :=
  (toolUseId.bind parseId).bind (fun itemId =>
    (b.slots.get? itemId).bind (fun slot =>
      match slot.item.body with
      | .subagent subagent => some (itemId, slot, subagent)
      | _ => none))

def onTaskStarted (b : TurnBuilder Call) (frame : TaskStartedFrame) : TurnBuilder Call :=
  match b.subagentSlot frame.toolUseId with
  | none => b
  | some (itemId, slot, subagent) =>
    let item : AgentItem Call :=
      ⟨slot.item.itemId, .subagent (withAgent subagent b.context.appThreadId frame.taskId)⟩
    { b with slots := b.slots.insert itemId ⟨slot.completed, item⟩ }

def onTaskReported (b : TurnBuilder Call) (report : TaskReport) : TurnBuilder Call :=
  match notifiedStatus report.status with
  | none => b
  | some status =>
    match b.subagentSlot report.toolUseId with
    | none => b
    | some (itemId, slot, subagent) =>
      if slot.completed then
        let item : AgentItem Call := ⟨slot.item.itemId, .subagent (withStatus subagent status)⟩
        { b with slots := b.slots.insert itemId ⟨slot.completed, item⟩ }
      else b

def onFrame (t : ToolItems Call) (b : TurnBuilder Call) :
    ClaudeFrame → TurnBuilder Call × List (AgentEvent Call)
  | .stream event => b.onStream event
  | .assistant frame => onAssistant t b frame
  | .user frame => onUser t b frame
  | .compacting => b.startCompaction
  | .compactBoundary => b.completeCompaction
  | .taskStarted frame => (b.onTaskStarted frame, [])
  | .taskNotification report => (b.onTaskReported report, [])
  | .other => (b, [])

def items (b : TurnBuilder Call) : List (AgentItem Call) :=
  b.order.filterMap (fun id => (b.slots.get? id).map (fun slot => slot.item))

def closeItem (t : ToolItems Call) (b : TurnBuilder Call) (id : String) :
    TurnBuilder Call × List (AgentEvent Call) :=
  match b.slots.get? id with
  | none => (b, [])
  | some slot =>
    if slot.completed then (b, [])
    else
      let item := failOpenItem t slot.item
      ({ b with slots := b.slots.insert id ⟨true, item⟩ }, [.itemCompleted item])

def closingPhase : TurnOutcome → MessagePhase
  | .completed => .final
  | _ => .commentary

def closeItems (t : ToolItems Call) (b : TurnBuilder Call) (outcome : TurnOutcome) :
    TurnBuilder Call × List (AgentEvent Call) :=
  andThen (b.flushHeld (closingPhase outcome)) (fun b => emitEach (closeItem t) b b.order)

def usageEvents : Option TurnUsageRecord → List (AgentEvent Call)
  | none => []
  | some usage => [.usageUpdated usage.last usage.total usage.contextWindow usage.cost]

def completedTurn (b : TurnBuilder Call) (outcome : TurnOutcome) : AgentTurn Call :=
  let error := match outcome with
    | .failed error => some error
    | _ => none
  b.turnShape outcome.status (some (seconds b.nowMs)) error b.items

def finish (t : ToolItems Call) (b : TurnBuilder Call) (outcome : TurnOutcome)
    (usage : Option TurnUsageRecord) : TurnBuilder Call × List (AgentEvent Call) :=
  andThen (closeItems t b outcome) (fun b =>
    (b, usageEvents usage ++ [.turnCompleted (b.completedTurn outcome)]))

inductive BuilderCall where
  | userMessage (message : UserMessage)
  | startTool (toolUseId name : String) (input : Json)
  | markDeclined (toolUseId : String)
  | frame (frame : ClaudeFrame)
  | taskNotification (report : TaskReport) (delivery : TaskNotificationDelivery)
    (identity : TaskIdentity)
  | setNow (nowMs : Int)
  | setMcpServers (servers : List String)

def call (t : ToolItems Call) (b : TurnBuilder Call) :
    BuilderCall → TurnBuilder Call × List (AgentEvent Call)
  | .userMessage message => b.addUserMessage message
  | .startTool toolUseId name input => startTool t b toolUseId name input
  | .markDeclined toolUseId => (b.markDeclined toolUseId, [])
  | .frame frame => onFrame t b frame
  | .taskNotification report delivery identity => b.addTaskNotification report delivery identity
  | .setNow nowMs => ({ b with nowMs }, [])
  | .setMcpServers mcpServers => ({ b with mcpServers }, [])

def after (t : ToolItems Call) (context : TurnBuilderContext) (userMessage : Option UserMessage)
    (calls : List BuilderCall) : TurnBuilder Call × List (AgentEvent Call) :=
  andThen ((new context).begin userMessage) (fun b => emitEach (call t) b calls)

end TurnBuilder

end CodeWide.Transcript
