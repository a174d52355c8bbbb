import CodeWide.Lib.Json
import CodeWide.Transcript.Segments

/-!
# Items of a turn

What `transcript/tools.rs` and `transcript/agents.rs` make of a tool call: the item it starts, the
one its result leaves and the one a turn leaves that ends under it.
-/

namespace CodeWide.Transcript

open Lib

def maxIdBytes : Nat := 512

def parseId (value : String) : Option String :=
  if value ≠ "" ∧ value.utf8ByteSize ≤ maxIdBytes then some value else none

inductive MessagePhase where
  | commentary
  | final
deriving DecidableEq

inductive ExecutionStatus where
  | inProgress
  | completed
  | failed
  | declined
deriving DecidableEq

inductive SubagentStatus where
  | running
  | completed
  | failed
  | stopped
deriving DecidableEq

inductive UserContent where
  | text (text : String)
  | image (url : String)
  | localImage (path : String)
deriving DecidableEq

structure TaskReport where
  taskId : String
  toolUseId : Option String
  status : Option String
  summary : Option String
  note : Option String
  result : Option String
  durationMs : Option Int
  toolUses : Option Int
deriving DecidableEq

inductive TaskKind where
  | agent
  | command
  | other
deriving DecidableEq

structure TaskIdentity where
  kind : TaskKind
  name : String
deriving DecidableEq

structure SubagentItem where
  agentThreadId : Option String
  agentType : Option String
  background : Bool
  description : String
  model : Option String
  prompt : String
  result : Option String
  status : SubagentStatus
deriving DecidableEq

/-- What an item shows. `call` stands for the items of commands, file changes, web searches
and tool calls. -/
inductive ItemBody (Call : Type) where
  | userMessage (clientMessageId : Option String) (content : List UserContent)
  | agentMessage (text : String) (phase : MessagePhase)
  | reasoning (summary content : List String)
  | plan (text : String)
  | compaction
  | imageView (path : String)
  /-- What `task_notification_item` reads the item from. -/
  | taskNotification (report : TaskReport) (delivery : TaskNotificationDelivery)
    (identity : TaskIdentity)
  | subagent (subagent : SubagentItem)
  | call (call : Call)
deriving DecidableEq

structure AgentItem (Call : Type) where
  itemId : String
  body : ItemBody Call
deriving DecidableEq

variable {Call : Type}

namespace ItemBody

def isAgentMessage : ItemBody Call → Bool
  | .agentMessage .. => true
  | _ => false

def isFinal : ItemBody Call → Bool
  | .agentMessage _ .final => true
  | _ => false

end ItemBody

def strOf (input : Json) (name : String) : Option String := (input.get? name).bind Json.asStr?

def isTrue (input : Json) (name : String) : Bool :=
  (input.get? name).bind Json.asBool? == some true

def arrOf (input : Json) (name : String) : List Json :=
  ((input.get? name).bind Json.asArr?).getD []

structure ToolCallInput where
  id : String
  input : Json
  name : String

structure ToolResultBlock where
  blocks : List Json
  isError : Bool
  text : String
  toolUseId : String

structure ToolOutcome where
  appThreadId : String
  durationMs : Int
  result : ToolResultBlock
  status : ExecutionStatus
  toolUseResult : Json

structure ToolItems (Call : Type) where
  /-- The branches of `start_item` other than the sub-agent's. -/
  start : ToolCallInput → String → List String → Call
  complete : Call → ToolCallInput → ToolOutcome → Call
  fail : Call → Call
  spawnedAgentId : ToolResultBlock → Json → Option String
  isAsyncLaunch : ToolResultBlock → Json → Bool
  answerText : ToolResultBlock → String

inductive ToolDisposition where
  | item
  | plan
  | question
  | exitPlan
deriving DecidableEq

def toolDisposition (name : String) : ToolDisposition :=
  if name = "TodoWrite" then .plan
  else if name = "AskUserQuestion" then .question
  else if name = "ExitPlanMode" then .exitPlan
  else .item

def isSubagentTool (name : String) : Bool := name == "Agent" || name == "Task"

def childThreadId (parent agentId : String) : Option String :=
  parseId (parent ++ ":agent:" ++ agentId)

def startSubagent (input : Json) : SubagentItem where
  agentThreadId := none
  agentType := strOf input "subagent_type"
  background := isTrue input "run_in_background"
  description := (strOf input "description").getD ""
  model := strOf input "model"
  prompt := (strOf input "prompt").getD ""
  result := none
  status := .running

def completeSubagent (t : ToolItems Call) (started : SubagentItem) (outcome : ToolOutcome) :
    SubagentItem :=
  let agentThreadId := ((t.spawnedAgentId outcome.result outcome.toolUseResult).bind
    (childThreadId outcome.appThreadId)).or started.agentThreadId
  if outcome.status ≠ .completed then
    { started with agentThreadId, result := some outcome.result.text, status := .failed }
  else if t.isAsyncLaunch outcome.result outcome.toolUseResult then
    { started with agentThreadId, background := true }
  else
    { started with
      agentThreadId
      result := some (t.answerText outcome.result)
      status := .completed }

/-- The agent thread once Claude names the agent, before the call returns. -/
def withAgent (item : SubagentItem) (appThreadId agentId : String) : SubagentItem :=
  { item with agentThreadId := (childThreadId appThreadId agentId).or item.agentThreadId }

def withStatus (item : SubagentItem) (status : SubagentStatus) : SubagentItem :=
  { item with status }

def notifiedStatus : Option String → Option SubagentStatus
  | some "completed" => some .completed
  | some "failed" => some .failed
  | some "killed" => some .stopped
  | some "stopped" => some .stopped
  | _ => none

def startItem (t : ToolItems Call) (call : ToolCallInput) (cwd : String)
    (mcpServers : List String) : Option (AgentItem Call) :=
  if toolDisposition call.name ≠ .item then none
  else
    (parseId call.id).map (fun itemId =>
      if isSubagentTool call.name then ⟨itemId, .subagent (startSubagent call.input)⟩
      else ⟨itemId, .call (t.start call cwd mcpServers)⟩)

def completeItem (t : ToolItems Call) (started : AgentItem Call) (call : ToolCallInput)
    (outcome : ToolOutcome) : AgentItem Call :=
  match started.body with
  | .subagent item => ⟨started.itemId, .subagent (completeSubagent t item outcome)⟩
  | .call c => ⟨started.itemId, .call (t.complete c call outcome)⟩
  | _ => started

def failOpenItem (t : ToolItems Call) (item : AgentItem Call) : AgentItem Call :=
  match item.body with
  | .subagent subagent => ⟨item.itemId, .subagent (withStatus subagent .stopped)⟩
  | .call c => ⟨item.itemId, .call (t.fail c)⟩
  | _ => item

def executionStatus (result : ToolResultBlock) (nonExecution : Option String)
    (declinedByUser : Bool) : ExecutionStatus :=
  if declinedByUser = true ∨ nonExecution = some "permission-rule" then .declined
  else if nonExecution = some "cancelled" ∨ result.isError = true then .failed
  else .completed

def imageExtensions : List String := ["png", "jpg", "jpeg", "gif", "webp", "bmp"]

/-- What follows the last dot, in ASCII lower case. -/
def extensionOf (path : String) : Option String :=
  if '.' ∈ path.toList then
    some (String.ofList
      ((path.toList.reverse.takeWhile (fun c => c ≠ '.')).reverse.map Char.toLower))
  else none

def imageViewFor (id name : String) (input : Json) : Option (AgentItem Call) :=
  if name ≠ "Read" then none
  else
    (strOf input "file_path").bind (fun path =>
      (extensionOf path).bind (fun extension =>
        if extension ∈ imageExtensions then
          (parseId (id ++ ":image")).map (fun itemId => ⟨itemId, .imageView path⟩)
        else none))

inductive PlanStepStatus where
  | pending
  | inProgress
  | completed
deriving DecidableEq

structure PlanStep where
  step : String
  status : PlanStepStatus
  activeForm : Option String
deriving DecidableEq

def todoStatus : Option String → PlanStepStatus
  | some "completed" => .completed
  | some "in_progress" => .inProgress
  | _ => .pending

def todoPlan (input : Json) : List PlanStep :=
  (arrOf input "todos").filterMap (fun todo =>
    if todo.isObj then
      let activeForm := (strOf todo "activeForm").filter (fun form => form ≠ "")
      some { step := ((strOf todo "content").or activeForm).getD ""
             status := todoStatus (strOf todo "status")
             activeForm }
    else none)

def blockItemId (messageId : String) (blockIndex : Nat) : Option String :=
  parseId (messageId ++ ":" ++ toString blockIndex)

end CodeWide.Transcript
