import CodeWide.Projection.Reducer

/-!
# The operations of projection patches

The turns and items an operation changes, and the patch as a whole with the output footprint and the
activity metrics it carries.
-/

namespace CodeWide.Projection

open Lib Json

def updateReroutedModel (turnId : Option String) (toModel toModelLabel : Option Json) : Reducer :=
  fun t =>
    match toModel.bind asStr? with
    | none => []
    | some model =>
      let fallback := (t.fields.get? "codewide").bind (·.get? "executionSettings")
      editMetadata turnId (fun metadata =>
        let kept := fun k =>
          orNull ((present ((metadata.get? "execution").bind (·.get? k))).or
            (present (fallback.bind (·.get? k))))
        metadata.insert "execution" (.ofFields
          [("model", .str model), ("modelLabel", ofStr (toModelLabel.bind asStr?)),
            ("effort", kept "effort"), ("permissions", kept "permissions"),
            ("modelSource", .str "reroute")])) t

def isTurnUsageProjection (projection : Json) : Bool :=
  let tokens := fun k => (asObject (projection.get? k)).bind (fun scope => asObject (scope.get? "tokens"))
  decide (projection.get? "version" = some (.int 1)) &&
    (decide (projection.get? "status" = some (.str "live")) ||
      decide (projection.get? "status" = some (.str "final"))) &&
    (tokens "turn").isSome && (tokens "thread").isSome

def updateTurnUsage (turnId : Option String) (usage : Option Json) : Reducer := fun t =>
  match (asObject usage).filter isTurnUsageProjection with
  | some usage => editMetadata turnId (·.insert "usage" usage) t
  | none => []

def updateTurnDiff (turnId : Option String) (diff : Option Json) : Reducer := fun t =>
  match diff.bind asStr? with
  | some diff => editMetadata turnId (·.insert "diff" (.str (boundedText diff))) t
  | none => []

def planStep (step : Json) : Option Json := do
  let value ← asObject (some step)
  let text ← strField value "step"
  let status ← strField value "status"
  if status = "pending" ∨ status = "inProgress" ∨ status = "completed" then
    some (value.insert "step" (.str (boundedText text)))
  else none

def updateTurnPlan (turnId : Option String) (explanation plan : Option Json) : Reducer := fun t =>
  match plan.bind asArr? with
  | some plan =>
    editMetadata turnId (·.insert "plan" (.ofFields
      [("explanation", ofStr ((explanation.bind asStr?).map boundedText)),
        ("steps", .arr (plan.filterMap planStep))])) t
  | none => []

def spread (a : Json) : Json → Json
  | .obj fields => fields.foldl (fun v f => v.insert f.1 f.2) a
  | _ => a

def payloadFields : Option Json → Option Fields
  | some (.obj fields) => some fields
  | _ => none

def incomingTurn (source : Fields) (id : String) (cached : Option Turn) : Turn :=
  let fields := (source.erase "id").erase "items"
  match (source.get? "items").bind asArr? with
  | some items => ⟨id, fields, items⟩
  | none =>
    let itemsView := (present (cached.bind (·.fields.get? "itemsView"))).getD (.str "full")
    ⟨id, fields.insert "itemsView" itemsView, (cached.map Turn.items).getD []⟩

section Turns

variable (stringify : Json → String)

def mergeTurnMetadata (incoming cached : Turn) : Turn :=
  let items :=
    if cached.items = [] then incoming.items
    else reconcileTurnItems stringify cached.items incoming.items
  let fields :=
    match projectedTurnMetadata cached.fields with
    | none => incoming.fields
    | some metadata =>
      incoming.fields.insert "codewide"
        (spread metadata ((projectedTurnMetadata incoming.fields).getD .null))
  { incoming with fields, items }

def payloadId (value : Option Json) : Option String := (asObject value).bind (strField · "id")

def upsertTurn (value : Option Json) : Reducer := fun t =>
  match payloadFields value, payloadId value with
  | some source, some id =>
    match turnInThread t id with
    | none => [.pushTurn (incomingTurn source id none)]
    | some (i, cached) =>
      [.putTurn i (mergeTurnMetadata stringify (incomingTurn source id (some cached)) cached)]
  | _, _ => []

def itemWithLifecycleMetadata (t : Thread) (turnId : Option String) (value phase : Option Json) :
    Option Json :=
  (asObject value).map fun item =>
    let turn := (turnId.bind (turnInThread t)).map Prod.snd
    let existing := (strField item "id").bind (fun id =>
      turn.bind (·.items.find? (fun candidate => decide (itemId candidate = some (.str id)))))
    let leads := turn.any (fun turn =>
      !turn.items.any (fun candidate => decide (itemType candidate = some "userMessage")))
    let preTurn := decide (itemType item ≠ some "userMessage") &&
      (existing.any projectedPreTurn || leads)
    let item := if phase = some (.str "started") ∨ phase = some (.str "completed") then
        item.insert "codewideLifecyclePhase" (orNull phase)
      else item
    if preTurn then withProjectedPreTurn item else item

def placeholderId (turnId : String) : String := turnId ++ ":agent"

def removeMatchingAgentPlaceholder (turnId canonicalItemId : String) : Reducer := fun t =>
  match turnInThread t turnId with
  | none => []
  | some (i, turn) =>
    if canonicalItemId = placeholderId turnId then []
    else
      match turn.items.find? (fun candidate =>
          decide (itemId candidate = some (.str canonicalItemId))) with
      | none => []
      | some canonicalItem =>
        if itemType canonicalItem ≠ some "agentMessage" then []
        else
          match turn.items.findIdx? (fun candidate =>
              decide (itemType candidate = some "agentMessage") &&
                decide (itemId candidate = some (.str (placeholderId turnId))) &&
                (decide (candidate.get? "text" = canonicalItem.get? "text") ||
                  (decide (candidate.get? "phase" = some (.str "final_answer")) &&
                    decide (canonicalItem.get? "phase" = some (.str "final_answer"))))) with
          | none => []
          | some j => [.removeItem i j]

def sameUserBoundary (left right : Json) : Bool :=
  let clientId := fun item : Json => (present (item.get? "clientId")).getD (.str "")
  (decide (clientId left ≠ .str "") && decide (clientId left = clientId right)) ||
    decide (userMessageFingerprint stringify left = userMessageFingerprint stringify right)

def preserveProjectedUserClientId (incoming cached : Json) : Json :=
  if itemType cached ≠ some "userMessage" ∨ incoming.get? "clientId" ≠ some .null then incoming
  else if cached.get? "clientId" = some .null then incoming
  else withClientId incoming (cached.get? "clientId")

def userPlaceholder (turn : Turn) (item : Json) : Option Nat :=
  if itemType item = some "userMessage" then
    turn.items.findIdx? (fun candidate => decide (itemType candidate = some "userMessage") &&
      sameUserBoundary stringify candidate item)
  else none

def upsertItem (turnId : Option String) (value : Option Json) : Reducer := fun t =>
  match turnId, asObject value, payloadId value with
  | some turnId, some item, some id =>
    match turnInThread t turnId with
    | none => []
    | some (i, turn) =>
      match itemIndex turn id with
      | some j =>
        Reducer.andThen (fun _ => [.putItem i j item]) (removeMatchingAgentPlaceholder turnId id) t
      | none =>
        match userPlaceholder stringify turn item with
        | some j => [.putItem i j (preserveProjectedUserClientId item (turn.items.getD j .null))]
        | none =>
          Reducer.andThen (fun _ => [.pushItem i item]) (removeMatchingAgentPlaceholder turnId id) t
  | _, _, _ => []

end Turns

inductive TextKind where
  | agentMessage
  | plan
  | commandExecution

def TextKind.name : TextKind → String
  | .agentMessage => "agentMessage"
  | .plan => "plan"
  | .commandExecution => "commandExecution"

def TextKind.ofName (name : Option String) : Option TextKind :=
  [TextKind.agentMessage, .plan, .commandExecution].find? (fun kind => decide (name = some kind.name))

def textAppended (item : Json) (delta : String) : TextKind → Json
  | .agentMessage => item.insert "text" (.str (itemText item ++ delta))
  | .plan => item.insert "text" (.str (appendBoundedText (itemText item) delta))
  | .commandExecution =>
    item.insert "aggregatedOutput"
      (.str (appendBoundedText ((strField item "aggregatedOutput").getD "") delta))

def typedItem (t : Thread) (turnId id : Option String) (type : String) : Option ItemPlace :=
  (itemInTurn t turnId id).filter (fun place => decide (itemType place.value = some type))

def appendText (turnId id : Option String) (delta : Option Json) (kind : TextKind) (t : Thread) :
    List Write × Bool :=
  match delta.bind asStr?, typedItem t turnId id kind.name with
  | some delta, some place =>
    let append : Reducer := fun _ =>
      [.item place.turn place.item (textAppended place.value delta kind)]
    match kind, turnId, id with
    | .agentMessage, some turnId, some id =>
      (append.andThen (removeMatchingAgentPlaceholder turnId id) t, true)
    | _, _, _ => (append t, true)
  | _, _ => ([], false)

def appendCommandOutputReference (place : ItemPlace) (delta : Json) : Write :=
  let deltas := ((place.value.get? "codewideOutputDeltas").bind asArr?).getD []
  .item place.turn place.item (place.value.insert "codewideOutputDeltas" (.arr (deltas ++ [delta])))

def itemTextDelta (turnId id : Option String) (params : Json) (kind : TextKind) (t : Thread) :
    List Write × Bool :=
  match itemInTurn t turnId id, commandOutputField params "/delta", kind with
  | some place, some delta, .commandExecution => ([appendCommandOutputReference place delta], true)
  | _, _, _ => appendText turnId id (params.get? "delta") kind t

def updateFileChanges (turnId id : Option String) (changes : Option Json) : Reducer := fun t =>
  match typedItem t turnId id "fileChange", changes.bind asArr? with
  | some place, some changes =>
    [.item place.turn place.item (place.value.insert "changes" (.arr changes))]
  | _, _ => []

def appendMcpProgress (turnId id : Option String) (message : Option Json) : Reducer := fun t =>
  match (message.bind asStr?).filter (fun m => decide (m ≠ "")),
      typedItem t turnId id "mcpToolCall" with
  | some message, some place =>
    let progress := (((place.value.get? "progress").bind asArr?).getD []).filter isStr
    let bounded := str (Utf16.takeUnits 4096 message)
    let progress := if progress.getLast? = some bounded then progress else progress ++ [bounded]
    [.item place.turn place.item
      (place.value.insert "progress" (.arr (progress.drop (progress.length - 100))))]
  | _, _ => []

def reasoningParts (item : Json) (field : String) : List Json :=
  ((item.get? field).bind asArr?).getD []

def addReasoningPart (turnId id : Option String) (index : Option Json) (field : String) :
    Reducer := fun t =>
  match typedItem t turnId id "reasoning", count? index with
  | some place, some index =>
    let parts := reasoningParts place.value field
    let parts := parts ++ List.replicate (index + 1 - parts.length) (.str "")
    [.item place.turn place.item (place.value.insert field (.arr parts))]
  | _, _ => []

def appendReasoningText (turnId id : Option String) (index : Nat) (delta field : String) :
    Reducer := fun t =>
  match itemInTurn t turnId id with
  | some place =>
    let parts := reasoningParts place.value field
    let current := ((parts[index]?).bind asStr?).getD ""
    let parts := parts.set index (.str (appendBoundedText current delta))
    [.item place.turn place.item (place.value.insert field (.arr parts))]
  | none => []

def appendReasoning (turnId id : Option String) (index delta : Option Json) (field : String) :
    Reducer := fun t =>
  match delta.bind asStr?, typedItem t turnId id "reasoning", count? index with
  | some delta, some _, some position =>
    Reducer.andThen (addReasoningPart turnId id index field)
      (appendReasoningText turnId id position delta field) t
  | _, _, _ => []

inductive Kind where
  | threadStatus
  | threadName
  | threadSettings
  | turnStarted
  | turnCompleted
  | modelRerouted
  | itemUpsert
  | itemTextDelta
  | fileChanges
  | mcpProgress
  | tokenUsage
  | turnDiff
  | turnPlan
  | reasoningPart
  | reasoningDelta
  | other
deriving DecidableEq

def Kind.ofName : String → Kind
  | "threadStatus" => .threadStatus
  | "threadName" => .threadName
  | "threadSettings" => .threadSettings
  | "turnStarted" => .turnStarted
  | "turnCompleted" => .turnCompleted
  | "modelRerouted" => .modelRerouted
  | "itemUpsert" => .itemUpsert
  | "itemTextDelta" => .itemTextDelta
  | "fileChanges" => .fileChanges
  | "mcpProgress" => .mcpProgress
  | "tokenUsage" => .tokenUsage
  | "turnDiff" => .turnDiff
  | "turnPlan" => .turnPlan
  | "reasoningPart" => .reasoningPart
  | "reasoningDelta" => .reasoningDelta
  | _ => .other

structure ThreadProjectionPatch where
  threadId : String
  operation : Json

namespace ThreadProjectionPatch

def kind (p : ThreadProjectionPatch) : Kind := Kind.ofName ((strField p.operation "kind").getD "")

def turnId (p : ThreadProjectionPatch) : Option String := strField p.operation "turnId"

def itemId (p : ThreadProjectionPatch) : Option String := strField p.operation "itemId"

def payloadTurnId (p : ThreadProjectionPatch) : Option String := payloadId (p.operation.get? "turn")

def partIndex (p : ThreadProjectionPatch) : Option Json :=
  (present (p.operation.get? "summaryIndex")).or (p.operation.get? "contentIndex")

def reasoningField (p : ThreadProjectionPatch) : Option String :=
  (strField p.operation "field").filter
    (fun field => decide (field = "summary") || decide (field = "content"))

def metricsTurnId (p : ThreadProjectionPatch) : Option String :=
  match present (p.operation.get? "turnId") with
  | some turnId => turnId.asStr?
  | none => p.payloadTurnId

end ThreadProjectionPatch

variable (stringify : Json → String)

def operationWrites (t : Thread) (p : ThreadProjectionPatch) : List Write × Bool :=
  let field := fun k => p.operation.get? k
  match p.kind with
  | .threadStatus =>
    match field "status" with
    | some status => (threadStatus status (field "canAcceptDirectInput") t, true)
    | none => ([], false)
  | .threadName => (threadName (field "threadName") t, true)
  | .threadSettings => (updateThreadSettings (field "threadSettings") t, true)
  | .turnStarted =>
    ((upsertTurn stringify (field "turn")).andThen (snapshotTurnExecution p.payloadTurnId) t, true)
  | .turnCompleted =>
    ((upsertTurn stringify (field "turn")).andThen
      (updateTurnUsage p.payloadTurnId (field "usage")) t, true)
  | .modelRerouted =>
    (updateReroutedModel p.turnId (field "toModel") (field "toModelLabel") t, true)
  | .itemUpsert =>
    (upsertItem stringify p.turnId
      (itemWithLifecycleMetadata t p.turnId (field "item") (field "itemPhase")) t, true)
  | .itemTextDelta =>
    match TextKind.ofName (strField p.operation "itemType") with
    | some kind => itemTextDelta p.turnId p.itemId p.operation kind t
    | none => ([], false)
  | .fileChanges => (updateFileChanges p.turnId p.itemId (field "changes") t, true)
  | .mcpProgress => (appendMcpProgress p.turnId p.itemId (field "message") t, true)
  | .tokenUsage => (updateTurnUsage p.turnId (field "usage") t, true)
  | .turnDiff => (updateTurnDiff p.turnId (field "diff") t, true)
  | .turnPlan => (updateTurnPlan p.turnId (field "explanation") (field "plan") t, true)
  | .reasoningPart =>
    match p.reasoningField with
    | some part => (addReasoningPart p.turnId p.itemId p.partIndex part t, true)
    | none => ([], false)
  | .reasoningDelta =>
    match p.reasoningField with
    | some part => (appendReasoning p.turnId p.itemId p.partIndex (field "delta") part t, true)
    | none => ([], false)
  | .other => ([], false)

def footprintWrites (p : ThreadProjectionPatch) : Reducer := fun t =>
  match parseActivityFootprint (p.operation.get? "codewideOutputFootprint"),
      itemInTurn t p.turnId p.itemId with
  | some footprint, some place =>
    [.item place.turn place.item (place.value.insert "codewideOutputFootprint" footprint)]
  | _, _ => []

def metricsWrites (p : ThreadProjectionPatch) (t : Thread) : List Write × Bool :=
  match p.metricsTurnId with
  | none => ([], false)
  | some turnId =>
    match parseActivityMetrics (p.operation.get? "activityMetrics") with
    | some metrics => (editMetadata (some turnId) (·.insert "activityMetrics" metrics) t, true)
    | none =>
      if p.operation.get? "activityMetrics" = some .null then
        (editMetadata (some turnId) (·.erase "activityMetrics") t, true)
      else ([], false)

def patchWrites (t : Thread) (p : ThreadProjectionPatch) : List Write × Bool :=
  if p.threadId ≠ t.id then ([], false)
  else
    let operation := operationWrites stringify t p
    let shown := t.run operation.1
    let footprint := footprintWrites p shown
    let metrics := metricsWrites p (shown.run footprint)
    (operation.1 ++ footprint ++ metrics.1, operation.2 || metrics.2)

def applyThreadProjectionPatch (now : Int) (t : Thread) (p : ThreadProjectionPatch) :
    Thread × Bool :=
  let ws := patchWrites stringify t p
  let next := t.run ws.1
  (if ws.2 then { next with updatedAt := max next.updatedAt now } else next, ws.2)

end CodeWide.Projection
