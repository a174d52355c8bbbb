import CodeWide.Lib.Json
import CodeWide.Lib.Run
import CodeWide.Lib.Text

/-!
# The live activity of running threads

A state for each thread with a signal, and a published change whenever its activity
(`ThreadState.effective`) differs from the last.
-/

namespace CodeWide.Activity

open Lib

def reasoningHeaderWindowChars : Nat := 512
def maxLabelChars : Nat := 160
def maxTrackedThreads : Nat := 4096
def capabilityItemNamespacePrefixChars : List Char := "codewide.capability".toList
def taskNotificationItemType : String := "codewideTaskNotification"

inductive LiveActivity where
  | reasoning (title : String)
  | planStep (step : String)
  | command (command : String)
  | fileEdit (path : String) (more : Nat)
  | tool (server : Option String) (tool : String)
  | webSearch
  | compacting
deriving DecidableEq

inductive LiveActivityChange where
  | set (activity : LiveActivity)
  | cleared

/-- A part of a reasoning summary; `settled` once it gave its header or its window is full. -/
structure ReasoningPart where
  itemId : String
  summaryIndex : Int
  text : List Char := []
  settled : Bool := false

structure ThreadState where
  published : Option LiveActivity := none
  current : Option LiveActivity := none
  planStep : Option String := none
  reasoning : Option ReasoningPart := none

namespace ThreadState

def effective (s : ThreadState) : Option LiveActivity :=
  s.current.or (s.planStep.map .planStep)

def isIdle (s : ThreadState) : Bool :=
  s.published.isNone && s.current.isNone && s.planStep.isNone && s.reasoning.isNone

def publish (s : ThreadState) : ThreadState := { s with published := s.effective }

/-- Everything but what was published last is forgotten. -/
def reset (s : ThreadState) : ThreadState := { published := s.published }

end ThreadState

def boundedLabel (text : List Char) : Option String :=
  if Text.trimChars text = [] then none
  else some (String.ofList ((Text.trimChars text).take maxLabelChars))

def firstLine (text : List Char) : Option String := (Text.lines text).findSome? boundedLabel

def firstBold (text : List Char) : Option String :=
  (Text.splitOnce ['*', '*'] text).bind (fun r =>
    (Text.splitOnce ['*', '*'] r.2).bind (fun q => boundedLabel q.1))

def textField (v : Json) (k : String) : Option String := (v.get? k).bind Json.asStr?

def labelField (v : Json) (k : String) : Option String :=
  (textField v k).bind (fun s => boundedLabel s.toList)

def itemActivity (item : Json) : Option LiveActivity :=
  match textField item "type" with
  | some "commandExecution" =>
    let parsed := ((((item.get? "commandActions").bind Json.asArr?).bind List.head?).bind
      (textField · "command"))
    ((parsed.bind (fun s => firstLine s.toList)).or
      ((textField item "command").bind (fun s => firstLine s.toList))).map .command
  | some "fileChange" => do
    let changes ← (item.get? "changes").bind Json.asArr?
    let path ← changes.head?.bind (labelField · "path")
    some (.fileEdit path (min (changes.length - 1) (2 ^ 32 - 1)))
  | some "mcpToolCall" => (labelField item "tool").map (.tool (labelField item "server"))
  | some "dynamicToolCall" =>
    if (textField item "namespace").any
        (fun ns => capabilityItemNamespacePrefixChars.isPrefixOf ns.toList) then none
    else (labelField item "tool").map (.tool none)
  | some "webSearch" => some .webSearch
  | some "contextCompaction" => some .compacting
  | _ => none

def planStep (params : Json) : Option String := do
  let plan ← (params.get? "plan").bind Json.asArr?
  let step ← (plan.filter Json.isObj).find? (fun step =>
    decide (textField step "status" = some "inProgress"))
  (labelField step "codewideActiveForm").or (labelField step "step")

inductive Signal where
  | turnStarted
  | turnCompleted
  | statusChanged
  | itemStarted
  | summaryPartAdded
  | summaryTextDelta
  | planUpdated
  | other
deriving DecidableEq

def Signal.ofMethod (method : String) : Signal :=
  if method = "turn/started" then .turnStarted
  else if method = "turn/completed" then .turnCompleted
  else if method = "thread/status/changed" then .statusChanged
  else if method = "item/started" then .itemStarted
  else if method = "item/reasoning/summaryPartAdded" then .summaryPartAdded
  else if method = "item/reasoning/summaryTextDelta" then .summaryTextDelta
  else if method = "turn/plan/updated" then .planUpdated
  else .other

def startsTracking (signal : Signal) (params : Json) : Bool :=
  match signal with
  | .itemStarted => ((params.get? "item").bind itemActivity).isSome
  | .summaryPartAdded | .summaryTextDelta => true
  | .planUpdated => (planStep params).isSome
  | _ => false

def reasoningPartId (params : Json) : Option (String × Int) := do
  let itemId ← textField params "itemId"
  let summaryIndex ← (params.get? "summaryIndex").bind Json.asI64?
  some (itemId, summaryIndex)

/-- The part a delta belongs to: the open one, or a new one when the ids differ. -/
def openPart (reasoning : Option ReasoningPart) (part : String × Int) : ReasoningPart :=
  match reasoning with
  | some open' =>
    if open'.itemId = part.1 ∧ open'.summaryIndex = part.2 then open'
    else { itemId := part.1, summaryIndex := part.2 }
  | none => { itemId := part.1, summaryIndex := part.2 }

def ReasoningPart.extend (part : ReasoningPart) (delta : List Char) :
    ReasoningPart × Option String :=
  if part.settled then (part, none)
  else
    let text := part.text ++ delta.take (reasoningHeaderWindowChars - part.text.length)
    match firstBold text with
    | some title => ({ part with text := text, settled := true }, some title)
    | none =>
      ({ part with text := text, settled := decide (reasoningHeaderWindowChars ≤ text.length) },
        none)

def extendPart (s : ThreadState) (part : ReasoningPart) (delta : List Char) : ThreadState :=
  { s with
    reasoning := some (part.extend delta).1
    current := ((part.extend delta).2.map .reasoning).or s.current }

def observeReasoningDelta (s : ThreadState) (params : Json) : ThreadState :=
  match reasoningPartId params, textField params "delta" with
  | some part, some delta => extendPart s (openPart s.reasoning part) delta.toList
  | _, _ => s

def reduce (s : ThreadState) (signal : Signal) (params : Json) : ThreadState :=
  match signal with
  | .turnStarted | .turnCompleted => s.reset
  | .statusChanged =>
    if (params.get? "status").bind (textField · "type") = some "active" then s else s.reset
  | .itemStarted =>
    let item := params.get? "item"
    -- The report of a background task is not the agent's own work.
    if item.bind (textField · "type") = some taskNotificationItemType then s
    else { s with reasoning := none, current := item.bind itemActivity }
  | .summaryPartAdded =>
    match reasoningPartId params with
    | some part => { s with reasoning := some { itemId := part.1, summaryIndex := part.2 } }
    | none => s
  | .summaryTextDelta => observeReasoningDelta s params
  | .planUpdated =>
    if planStep params = s.planStep then s
    else { s with current := none, planStep := planStep params }
  | .other => s

abbrev Tracker : Type := Table String ThreadState

def target? (payload : Json) : Option (Signal × Json × String) := do
  let method ← payload.method?
  let params ← payload.get? "params"
  let threadId ← textField params "threadId"
  some (Signal.ofMethod method, params, threadId)

def changeOf (published next : Option LiveActivity) : Option LiveActivityChange :=
  if next = published then none
  else some (match next with
    | some activity => .set activity
    | none => .cleared)

def settle (t : Tracker) (threadId : String) (s : ThreadState) :
    Tracker × Option LiveActivityChange :=
  (if s.publish.isIdle then t.erase threadId else t.insert threadId s.publish,
    changeOf s.published s.effective)

/-- The table a signal of the thread finds: emptied when the thread is new and it is full. -/
def makeRoom (t : Tracker) (threadId : String) : Tracker :=
  if t.contains threadId = false ∧ maxTrackedThreads ≤ t.size then ∅ else t

def observe (t : Tracker) (payload : Json) : Tracker × Option LiveActivityChange :=
  match target? payload with
  | none => (t, none)
  | some (signal, params, threadId) =>
    if t.contains threadId = false ∧ startsTracking signal params = false then (t, none)
    else
      let room := makeRoom t threadId
      settle room threadId (reduce ((room.get? threadId).getD {}) signal params)

end CodeWide.Activity
