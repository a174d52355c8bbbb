import CodeWide.Claude.Startup
import CodeWide.Transcript.Items
import Mathlib.Data.Sum.Order

/-!
# A Claude session

The actor of one thread: the query that is open, the active turn, the requests and client tool calls
that wait, the events of its turns and the answers written to Claude.
-/

namespace CodeWide.Claude

open Lib

inductive PermissionProfile where
  | readOnly
  | workspace
  | fullAccess
  deriving DecidableEq

def profileOf (id : String) : PermissionProfile :=
  if id = ":workspace" then .workspace
  else if id = ":full-access" ∨ id = ":danger-full-access" then .fullAccess
  else .readOnly

def switchesLive (old new : PermissionProfile) : Bool :=
  decide (old ≠ .readOnly) && decide (new ≠ .readOnly)

def readOnlyTools : List String := ["Read", "Glob", "Grep", "LS"]

def profileAllowsTool (profile : PermissionProfile) (toolName : String) : Bool :=
  decide (profile ≠ .readOnly) || readOnlyTools.contains toolName

inductive ToolDisposition where
  | item
  | plan
  | question
  | exitPlan
  deriving DecidableEq

def toolDisposition (name : String) : ToolDisposition :=
  if name = "TodoWrite" then .plan
  else if name = "AskUserQuestion" then .question
  else if name = "ExitPlanMode" then .exitPlan
  else .item

def qualifiedPrefix : String := "mcp__codewide__"

def clientToolServer : String := "codewide"

def clientToolOf (toolName : String) : Option String :=
  if qualifiedPrefix.toList.isPrefixOf toolName.toList then
    let bare := String.ofList (toolName.toList.drop qualifiedPrefix.length)
    if bare = "" then none else some bare
  else none

structure ThreadSettings where
  model : String
  effort : Option String
  permissionProfile : String
  serviceTier : Option String
  deriving DecidableEq

/-- A uuid, by its place among those that the session has drawn. -/
abbrev Uuid := Nat

def processExitedMessage : String := "Claude process exited unexpectedly"
def sessionLostMessage : String := "The Claude session for this thread was lost."

inductive RequestResolution where
  | responded
  | cancelled
  | turnEnded

inductive Event where
  | turnStarted (turnId : Uuid)
  | item (turnId : Uuid) (item : String)
  | turnCompleted (turnId : Uuid) (outcome : TurnOutcome)
  | requestOpened (turnId : Uuid) (requestId : String)
  | requestResolved (requestId : String) (reason : RequestResolution)

inductive Reply where
  | error (message : String)
  | mcpAnswer
  | toolResult (success : Bool) (text : String)
  | allow (input : String) (answers : Option (List (String × String)))
      (updatedPermissions : Option (List String))
  | deny (message : String) (interrupt : Bool)
  deriving DecidableEq

structure Answer where
  query : Nat
  requestId : String
  reply : Reply
  deriving DecidableEq

structure ActiveTurn where
  turnId : Uuid
  /-- A turn of the user, not one of Claude's own. -/
  user : Bool
  firstOffer : Bool
  interruptRequested : Bool
  interruptDeadline : Bool
  releaseAfter : Bool
  pendingSteerAborts : Nat
  sessionReplacements : Nat

structure Question where
  id : String
  question : String

inductive PendingKind where
  | approval (suggestions : List String)
  | userInput (questions : List Question)

structure PendingRequest where
  claudeRequestId : String
  toolUseId : String
  input : String
  kind : PendingKind

/-- The id of a client tool call: the item that it claimed, or a uuid drawn for it. -/
abbrev CallId := String ⊕ₗ Uuid

structure ClientToolCalls where
  running : Table CallId String
  claimed : List String

inductive Presence where
  | listed (archived : Bool)
  | deleted (deletedAt : Int)
  deriving DecidableEq

structure LiveQuery where
  generation : Nat
  deriving DecidableEq

structure Session where
  presence : Presence
  settings : ThreadSettings
  pendingSettings : Option ThreadSettings
  query : Option LiveQuery
  generation : Nat
  active : Option ActiveTurn
  pending : Table String PendingRequest
  backgroundTasks : Nat
  toolCalls : ClientToolCalls
  queryTools : List String
  queryModeOutdated : Bool
  disposed : Bool
  histories : List Uuid
  uuids : Nat
  outputs : List Event
  answers : List Answer
  /-- The client tool calls made, each with its turn. -/
  calls : List (Uuid × CallId)

/-- What a step is given from outside: the client tools, whether a query can be opened, and the
items. -/
structure Surroundings where
  tools : List String
  opens : Bool
  begun : List String
  shown : List String
  closed : List String

namespace Session

variable (env : Surroundings) (s : Session)

def emit (events : List Event) : Session := { s with outputs := s.outputs ++ events }

def emitItems (items : List String) : Session :=
  match s.active with
  | some active => s.emit (items.map (Event.item active.turnId))
  | none => s

def answer (requestId : String) (reply : Reply) : Session :=
  match s.query with
  | some query => { s with answers := s.answers ++ [⟨query.generation, requestId, reply⟩] }
  | none => s

def ensureQuery : Session :=
  match s.query with
  | some _ => s
  | none =>
    if env.opens then
      { s with
        query := some ⟨s.generation + 1⟩
        generation := s.generation + 1
        queryTools := env.tools
        queryModeOutdated := false }
    else s

def closeQuery : Session :=
  match s.query with
  | some _ => { s with query := none, generation := s.generation + 1 }
  | none => s

def applyPendingSettings : Session :=
  if (s.pendingSettings = none ∧ s.queryModeOutdated = false) ∨ s.active ≠ none ∨
      0 < s.backgroundTasks then s
  else
    match s.pendingSettings with
    | some pending => { s.closeQuery with settings := pending, pendingSettings := none }
    | none => s.closeQuery

def effectiveSettings : ThreadSettings := s.pendingSettings.getD s.settings

def switchPermissionsLive : Session :=
  match s.pendingSettings with
  | none => s
  | some pending =>
    if pending.permissionProfile = s.settings.permissionProfile then s
    else if s.query ≠ none ∧ switchesLive (profileOf s.settings.permissionProfile)
        (profileOf pending.permissionProfile) = false then s
    else
      let settings := { s.settings with permissionProfile := pending.permissionProfile }
      { s with
        settings := settings
        pendingSettings := if settings = pending then none else some pending }

def updateSettings (next : ThreadSettings) : Session :=
  if s.effectiveSettings = next then s
  else ({ s with pendingSettings := some next }).switchPermissionsLive.applyPendingSettings

def reopenForClientTools : Session :=
  if s.query = none ∨ s.queryTools = env.tools ∨ 0 < s.backgroundTasks then s
  else s.closeQuery

def declineMessage : String := "User declined tool execution."
def cancelMessage : String := "User cancelled the turn."
def exitPlanMessage : String :=
  "The user will review this plan. Stop here and wait for their reply."
def readOnlyDenyMessage (tool : String) : String :=
  "The read-only permission profile does not allow " ++ tool ++ "."
def toolCallCancelled : String := "The tool call was cancelled."
def noActiveTurn : String := "No turn is active."

def allowOnce (input : String) : Reply := .allow input none none

def cancelledDecision : Reply := .deny cancelMessage true

inductive ApprovalDecision where
  | accept
  | acceptForSession
  | decline
  | cancel

/-- The client's answer to a request; the answers to questions by question id. -/
inductive RuntimeResponse where
  | approval (decision : ApprovalDecision)
  | userInput (answers : List (String × String))
  | error

def approvalDecision (response : RuntimeResponse) (input : String) (suggestions : List String) :
    Reply :=
  match response with
  | .approval .accept => allowOnce input
  | .approval .acceptForSession => .allow input none (some suggestions)
  | .approval .cancel => cancelledDecision
  | _ => .deny declineMessage false

def userInputDecision (response : RuntimeResponse) (input : String) (questions : List Question) :
    Reply :=
  match response with
  | .userInput answers =>
    .allow input (some (questions.filterMap (fun question =>
      (answers.lookup question.id).map (fun answer => (question.question, answer))))) none
  | _ => .deny declineMessage false

def resolveRequest (key : String) (reason : RequestResolution) : Session :=
  s.emit [.requestResolved key reason]

def resolveEach (reason : RequestResolution) : Session → List (String × PendingRequest) → Session
  | s, [] => s
  | s, (key, request) :: rest =>
    resolveEach reason
      ((s.resolveRequest key reason).answer request.claudeRequestId cancelledDecision) rest

def resolveAllPending (reason : RequestResolution) : Session :=
  resolveEach reason { s with pending := ∅ } s.pending.entries

def cancelEach : Session → List (CallId × String) → Session
  | s, [] => s
  | s, (_, requestId) :: rest =>
    cancelEach (s.answer requestId (.toolResult false toolCallCancelled)) rest

def cancelToolCalls : Session :=
  cancelEach { s with toolCalls := ⟨∅, []⟩ } s.toolCalls.running.entries

def finishTurn (outcome : TurnOutcome) : Session :=
  match s.active with
  | none => s
  | some active =>
    let reason : RequestResolution := if outcome = .interrupted then .cancelled else .turnEnded
    let taken : Session := { s with active := none }
    let ended := (taken.cancelToolCalls.resolveAllPending reason).emit
      (env.closed.map (Event.item active.turnId) ++ [Event.turnCompleted active.turnId outcome])
    (if active.releaseAfter then ended.closeQuery else ended).applyPendingSettings

def beginTurn (turnId : Uuid) (user firstOffer : Bool) : Session :=
  let begun : Session :=
    { s with active := some ⟨turnId, user, firstOffer, false, false, false, 0, 0⟩ }
  begun.emit (Event.turnStarted turnId :: env.begun.map (Event.item turnId))

inductive TurnStart where
  | busy (activeTurnId : Uuid)
  | started (turnId : Uuid)

def startTurn (user : Bool) : Session × TurnStart :=
  match s.active with
  | some active => (s, .busy active.turnId)
  | none =>
    let ready := s.applyPendingSettings.reopenForClientTools env
    let begun := ({ ready with uuids := ready.uuids + 1 }).beginTurn env ready.uuids user true
    let opened := begun.ensureQuery env
    if opened.query = none then
      (opened.finishTurn env (.failed processExitedMessage), .started ready.uuids)
    else (opened, .started ready.uuids)

/-- The active turn, or a provider turn started for Claude's own work. -/
def activeOrWake : Session :=
  match s.active with
  | some _ => s
  | none => ({ s with uuids := s.uuids + 1 }).beginTurn env s.uuids false false

def steer (expected : Uuid) : Session :=
  match s.query, s.active with
  | some _, some active =>
    if active.turnId = expected ∧ active.interruptRequested = false then
      ({ s with
        uuids := s.uuids + 1
        active := some { active with
          pendingSteerAborts := active.pendingSteerAborts + 1 } }).emitItems env.shown
    else s
  | _, _ => s

def requestInterrupt (runningCommand : Bool) : Session :=
  let cancelled := s.cancelToolCalls
  match cancelled.active with
  | none => cancelled
  | some active =>
    let asked := { cancelled with
      active := some { active with interruptRequested := true, releaseAfter := runningCommand } }
    match asked.query with
    | none => asked.finishTurn env .interrupted
    | some _ =>
      { asked with
        active := some { active with
          interruptRequested := true, releaseAfter := runningCommand, interruptDeadline := true } }

def interrupt (turnId : Option Uuid) (runningCommand : Bool) : Session :=
  match s.active with
  | none => s
  | some active =>
    if (∀ id ∈ turnId, id = active.turnId) ∧ active.interruptRequested = false then
      s.requestInterrupt env runningCommand
    else s

def onInterruptTimeout : Session :=
  match s.active with
  | none => s
  | some active =>
    if active.interruptDeadline then
      (({ s with active := some { active with interruptDeadline := false } }).closeQuery).finishTurn
        env .interrupted
    else s

structure ResultFrame where
  lostSession : Bool
  interruption : Bool
  origin : Bool
  outcome : TurnOutcome

def replaceLostSession : Session :=
  match s.active with
  | none => s
  | some active =>
    if 1 ≤ active.sessionReplacements ∨ active.firstOffer = false then
      s.closeQuery.finishTurn env (.failed sessionLostMessage)
    else
      let replaced := { s with
        active := some { active with sessionReplacements := active.sessionReplacements + 1 } }
      let closed := replaced.closeQuery
      { closed with
        uuids := closed.uuids + 1
        histories := closed.histories ++ [active.turnId] }

def isIntermediateResult (active : ActiveTurn) (frame : ResultFrame) : Option ActiveTurn :=
  if active.interruptRequested then none
  else if frame.interruption ∧ 0 < active.pendingSteerAborts then
    some { active with pendingSteerAborts := active.pendingSteerAborts - 1 }
  else if active.user ∧ frame.origin then some active
  else none

def onResult (frame : ResultFrame) : Session :=
  match s.active with
  | none => s
  | some active =>
    if frame.lostSession then s.replaceLostSession env
    else
      match isIntermediateResult active frame with
      | some after => { s with active := some after }
      | none =>
        s.finishTurn env
          (if active.interruptRequested ∧ frame.interruption then .interrupted else frame.outcome)

def offerReplacement (turnId : Uuid) : Session :=
  if s.disposed then s
  else
    let drawn := { s with uuids := s.uuids + 1 }
    match drawn.active with
    | none => drawn
    | some active =>
      if active.turnId = turnId ∧ active.firstOffer = true then drawn.ensureQuery env else drawn

structure ToolRequest where
  subagent : Bool
  requestId : String
  toolName : String
  input : String
  toolUseId : String
  suggestions : List String
  questions : List Question

def ownsClientTool (toolName : String) : Bool :=
  match clientToolOf toolName with
  | some tool => s.queryTools.contains tool
  | none => false

/-- Shows the call's item in the active turn; a sub-agent's call has none here. -/
def startTool (request : ToolRequest) : Session :=
  if request.subagent then s else s.emitItems env.shown

def pendingId (toolUseId : String) : String := "perm-" ++ toolUseId

def openRequest (request : ToolRequest) (kind : PendingKind) : Session :=
  let woken := s.activeOrWake env
  match woken.active with
  | none => woken.answer request.requestId cancelledDecision
  | some active =>
    ({ woken with
      pending := woken.pending.insert (pendingId request.toolUseId)
        ⟨request.requestId, request.toolUseId, request.input, kind⟩ }).emit
      [.requestOpened active.turnId (pendingId request.toolUseId)]

def askApproval (request : ToolRequest) : Session :=
  let profile := profileOf s.settings.permissionProfile
  if profileAllowsTool profile request.toolName = false then
    s.answer request.requestId (.deny (readOnlyDenyMessage request.toolName) false)
  else
    let started := s.startTool env request
    if profile = .fullAccess then started.answer request.requestId (allowOnce request.input)
    else started.openRequest env request (.approval request.suggestions)

def canUseTool (request : ToolRequest) : Session :=
  let woken := if request.subagent then s else s.activeOrWake env
  if Transcript.parseId request.toolUseId = none then
    woken.answer request.requestId cancelledDecision
  else if woken.ownsClientTool request.toolName then
    ((woken.activeOrWake env).startTool env request).answer request.requestId
      (allowOnce request.input)
  else
    match toolDisposition request.toolName with
    | .exitPlan =>
      (woken.startTool env request).answer request.requestId (.deny exitPlanMessage false)
    | .question => woken.openRequest env request (.userInput request.questions)
    | .item | .plan => woken.askApproval env request

def respond (key : String) (response : RuntimeResponse) : Session :=
  match s.pending.get? key with
  | none => s
  | some pending =>
    (({ s with pending := s.pending.erase key }).resolveRequest key .responded).answer
      pending.claudeRequestId
      (match pending.kind with
      | .approval suggestions => approvalDecision response pending.input suggestions
      | .userInput questions => userInputDecision response pending.input questions)

def onRequestCancelled (requestId : String) : Session :=
  match s.pending.entries.find? (fun entry => entry.2.claudeRequestId = requestId) with
  | some (key, _) => ({ s with pending := s.pending.erase key }).resolveRequest key .cancelled
  | none =>
    match s.toolCalls.running.entries.find? (fun entry => entry.2 = requestId) with
    | some (callId, _) =>
      { s with toolCalls := { s.toolCalls with running := s.toolCalls.running.erase callId } }
    | none => s

def claim (openItems : List String) : CallId × Session :=
  match openItems.find? (fun id => !s.toolCalls.claimed.contains id) with
  | some id =>
    (toLex (.inl id), { s with toolCalls := { s.toolCalls with claimed := id :: s.toolCalls.claimed } })
  | none => (toLex (.inr s.uuids), { s with uuids := s.uuids + 1 })

def callClientTool (requestId : String) (openItems : List String) : Session :=
  match s.active with
  | none => s.answer requestId (.toolResult false noActiveTurn)
  | some active =>
    let (callId, claimed) := s.claim openItems
    { claimed with
      toolCalls := { claimed.toolCalls with
        running := claimed.toolCalls.running.insert callId requestId }
      calls := claimed.calls ++ [(active.turnId, callId)] }

inductive McpMessage where
  | other
  | call (tool : String) (openItems : List String)

def onMcpMessage (requestId serverName : String) (message : McpMessage) : Session :=
  if serverName ≠ clientToolServer then
    s.answer requestId (.error ("SDK MCP server not found: " ++ serverName))
  else
    match message with
    | .call tool openItems =>
      if s.queryTools.contains tool then s.callClientTool requestId openItems
      else s.answer requestId .mcpAnswer
    | .other => s.answer requestId .mcpAnswer

def onToolCallDone (callId : CallId) (requestId : String) (success : Bool) (text : String) : Session :=
  match s.toolCalls.running.get? callId with
  | some _ =>
    ({ s with toolCalls :=
      { s.toolCalls with running := s.toolCalls.running.erase callId } }).answer requestId
      (.toolResult success text)
  | none => s

def onQueryEnded (exited : TurnOutcome) : Session :=
  match s.query with
  | none => s
  | some _ =>
    let ended := { s with query := none, generation := s.generation + 1 }
    match ended.active with
    | none => ended
    | some active =>
      ended.finishTurn env (if active.interruptRequested then .interrupted else exited)

def dispose : Session :=
  let disposed := { s with disposed := true }
  match disposed.active with
  | some active =>
    (({ disposed with active := some { active with interruptRequested := true } }).closeQuery.finishTurn
      env .interrupted).closeQuery
  | none => disposed.closeQuery

def onIdleTimer (deferred : Bool) : Session :=
  if s.active ≠ none ∨ s.pending.entries ≠ [] ∨ s.query = none then s
  else if 0 < s.backgroundTasks ∧ deferred then s
  else s.closeQuery

def onModeChangeFailed (generation : Nat) : Session :=
  if generation = s.generation then
    ({ s with queryModeOutdated := true }).applyPendingSettings
  else s

def onBackgroundTasks (count : Nat) : Session :=
  let counted : Session := { s with backgroundTasks := count }
  if count = 0 ∧ s.active = none then counted.applyPendingSettings else counted

/-- Content of the conversation; a sub-agent's is passed over. -/
def onContent (topLevel : Bool) : Session :=
  if topLevel then (s.activeOrWake env).emitItems env.shown else s

end Session

inductive QueryEvent where
  | backgroundTasks (count : Nat)
  /-- The report of a task, which never wakes a turn. -/
  | task
  | content (topLevel : Bool)
  | result (frame : Session.ResultFrame)
  | canUseTool (request : Session.ToolRequest)
  | namesNoToolUse (requestId : String)
  | mcpMessage (requestId serverName : String) (message : Session.McpMessage)
  | otherRequest (requestId subtype : String)
  | cancelled (requestId : String)
  | exited (outcome : TurnOutcome)

inductive Act where
  | startTurn (user : Bool)
  | steer (expected : Uuid)
  | interrupt (turnId : Option Uuid) (runningCommand : Bool)
  | respond (key : String) (response : Session.RuntimeResponse)
  | updateSettings (next : ThreadSettings)
  /-- The owner's change of the presence; its other changes are not read here. -/
  | edit (presence : Presence)
  | dispose
  | query (event : QueryEvent)
  | toolCallDone (callId : CallId) (requestId : String) (success : Bool) (text : String)
  | modeChangeFailed (generation : Nat)
  | historyLines (turnId : Uuid)
  | interruptTimeout
  | idleTimer (deferred : Bool)

namespace Session

variable (env : Surroundings) (s : Session)

def onQueryEvent : QueryEvent → Session
  | .backgroundTasks count => s.onBackgroundTasks count
  | .task => s.emitItems env.shown
  | .content topLevel => s.onContent env topLevel
  | .result frame => s.onResult env frame
  | .canUseTool request => s.canUseTool env request
  | .namesNoToolUse requestId => s.answer requestId (.error "can_use_tool names no tool use")
  | .mcpMessage requestId serverName message => s.onMcpMessage requestId serverName message
  | .otherRequest requestId subtype =>
    s.answer requestId (.error ("unsupported control request: " ++ subtype))
  | .cancelled requestId => s.onRequestCancelled requestId
  | .exited outcome => s.onQueryEnded env outcome

def step (s : Session) : Surroundings × Act → Session
  | (env, .startTurn user) => (s.startTurn env user).1
  | (env, .steer expected) => s.steer env expected
  | (env, .interrupt turnId runningCommand) => s.interrupt env turnId runningCommand
  | (_, .respond key response) => s.respond key response
  | (_, .updateSettings next) => s.updateSettings next
  | (_, .edit presence) => { s with presence := presence }
  | (env, .dispose) => s.dispose env
  | (env, .query event) => if s.query = none then s else s.onQueryEvent env event
  | (_, .toolCallDone callId requestId success text) =>
    s.onToolCallDone callId requestId success text
  | (_, .modeChangeFailed generation) => s.onModeChangeFailed generation
  | (env, .historyLines turnId) =>
    if turnId ∈ s.histories then
      ({ s with histories := s.histories.erase turnId }).offerReplacement env turnId
    else s
  | (env, .interruptTimeout) => s.onInterruptTimeout env
  | (_, .idleTimer deferred) => s.onIdleTimer deferred

def spawn (presence : Presence) (settings : ThreadSettings) : Session where
  presence := presence
  settings := settings
  pendingSettings := none
  query := none
  generation := 0
  active := none
  pending := ∅
  backgroundTasks := 0
  toolCalls := ⟨∅, []⟩
  queryTools := []
  queryModeOutdated := false
  disposed := false
  histories := []
  uuids := 0
  outputs := []
  answers := []
  calls := []

end Session

end CodeWide.Claude
