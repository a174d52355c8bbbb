import CodeWide.Lib.Positions
import CodeWide.Lib.Run
import CodeWide.Lib.Utf16
import CodeWide.Projection.Items

/-!
# The reducer of projection patches

What a patch does to a thread is a list of writes, computed from the thread as it stands.
-/

namespace CodeWide.Projection

open Lib Json

abbrev Fields := List (String × Json)

def Fields.get? (fields : Fields) (k : String) : Option Json := lookupField k fields

def Fields.insert (fields : Fields) (k : String) (v : Json) : Fields := insertField k v fields

def Fields.erase (fields : Fields) (k : String) : Fields := eraseField k fields

lemma Fields.get?_insert (fields : Fields) (k k' : String) (v : Json) :
    (fields.insert k v).get? k' = if k' = k then some v else fields.get? k' :=
  lookupField_insertField k k' v fields

structure Turn where
  id : String
  fields : Fields
  items : List Json

structure Thread where
  id : String
  updatedAt : Int
  /-- The fields besides `id`, `updatedAt` and `turns`. -/
  fields : Fields
  turns : List Turn

inductive Write where
  | thread (fields : Fields)
  | putTurn (i : Nat) (turn : Turn)
  | pushTurn (turn : Turn)
  | turn (i : Nat) (fields : Fields)
  | putItem (i j : Nat) (item : Json)
  | pushItem (i : Nat) (item : Json)
  | removeItem (i j : Nat)
  /-- The fields of the item at `j` of the turn at `i`, in place. -/
  | item (i j : Nat) (item : Json)

def Thread.write (t : Thread) : Write → Thread
  | .thread fields => { t with fields }
  | .putTurn i turn => { t with turns := t.turns.set i turn }
  | .pushTurn turn => { t with turns := t.turns ++ [turn] }
  | .turn i fields => { t with turns := t.turns.modify i (fun turn => { turn with fields }) }
  | .putItem i j item =>
    { t with turns := t.turns.modify i (fun turn => { turn with items := turn.items.set j item }) }
  | .pushItem i item =>
    { t with turns := t.turns.modify i (fun turn => { turn with items := turn.items ++ [item] }) }
  | .removeItem i j =>
    { t with turns := t.turns.modify i (fun turn => { turn with items := turn.items.eraseIdx j }) }
  | .item i j item =>
    { t with turns := t.turns.modify i (fun turn => { turn with items := turn.items.set j item }) }

def Thread.run (t : Thread) (ws : List Write) : Thread := exec Thread.write t ws

abbrev Reducer := Thread → List Write

def Reducer.andThen (f g : Reducer) : Reducer := fun t => f t ++ g (t.run (f t))

def Reducer.each {α : Type} (f : α → Reducer) : List α → Reducer
  | [] => fun _ => []
  | x :: rest => Reducer.andThen (f x) (Reducer.each f rest)

def turnIndex (t : Thread) (turnId : String) : Option Nat :=
  lastIdx? (fun turn => decide (turn.id = turnId)) t.turns

def turnInThread (t : Thread) (turnId : String) : Option (Nat × Turn) := do
  let i ← turnIndex t turnId
  let turn ← t.turns[i]?
  some (i, turn)

def itemIndex (turn : Turn) (id : String) : Option Nat :=
  lastIdx? (fun item => decide (itemId item = some (.str id))) turn.items

structure ItemPlace where
  turn : Nat
  item : Nat
  value : Json

def itemInTurn (t : Thread) (turnId id : Option String) : Option ItemPlace := do
  let (i, turn) ← turnInThread t (← turnId)
  let j ← itemIndex turn (← id)
  let value ← turn.items[j]?
  some ⟨i, j, value⟩

def metadataOf (fields : Fields) : Json := (asObject (fields.get? "codewide")).getD (.obj [])

def projectedTurnMetadata (fields : Fields) : Option Json := asObject (fields.get? "codewide")

def editMetadata (turnId : Option String) (edit : Json → Json) : Reducer := fun t =>
  match turnId.bind (turnInThread t) with
  | some (i, turn) => [.turn i (turn.fields.insert "codewide" (edit (metadataOf turn.fields)))]
  | none => []

def maxLiveFieldChars : Nat := 64 * 1024

def liveHeadChars : Nat := 48 * 1024

def liveTruncationMarker : String := "\n… [earlier live output omitted] …\n"

def boundedText (value : String) : String :=
  if Utf16.units value ≤ maxLiveFieldChars then value
  else
    let tailChars := maxLiveFieldChars - liveHeadChars - Utf16.units liveTruncationMarker
    Utf16.takeUnits liveHeadChars value ++ liveTruncationMarker ++ Utf16.lastUnits tailChars value

def appendBoundedText (current delta : String) : String := boundedText (current ++ delta)

structure ExecutionSettings where
  model : String
  modelLabel : Option String
  effort : Option String
  serviceTier : Option (Option String)
  permissions : Option String
  approvalPolicy : Option String
  sandboxPolicy : Option String

def ofStr (value : Option String) : Json := (value.map str).getD .null

def projectedThreadExecutionSettings (t : Thread) : Option ExecutionSettings :=
  let settings := (asObject (t.fields.get? "codewide")).bind
    (fun metadata => asObject (metadata.get? "executionSettings"))
  let setting := fun k => settings.bind (·.get? k)
  let direct := (t.fields.get? "model").isSome
  let model := if direct then t.fields.get? "model" else setting "model"
  let effort := if direct then t.fields.get? "reasoningEffort" else setting "effort"
  let serviceTier :=
    if (t.fields.get? "serviceTier").isSome then some ((t.fields.get? "serviceTier").bind asStr?)
    else (setting "serviceTier").map asStr?
  match model.bind asStr? with
  | none => none
  | some model =>
    let modelLabel :=
      if setting "model" = some (.str model) then (setting "modelLabel").bind asStr? else none
    let effort := effort.bind asStr?
    let permissions := (setting "permissions").bind asStr?
    let approvalPolicy := (setting "approvalPolicy").bind asStr?
    let sandboxPolicy := (setting "sandboxPolicy").bind asStr?
    if model = "" then none
    else some { model, modelLabel, effort, serviceTier, permissions, approvalPolicy, sandboxPolicy }

def snapshotTurnExecution (turnId : Option String) : Reducer := fun t =>
  match projectedThreadExecutionSettings t with
  | none => []
  | some settings =>
    editMetadata turnId (fun metadata => metadata.insert "execution" (.ofFields
      [("model", .str settings.model), ("modelLabel", ofStr settings.modelLabel),
        ("effort", ofStr settings.effort), ("permissions", ofStr settings.permissions),
        ("modelSource", .str "settings")])) t

def Turn.lacksExecution (turn : Turn) : Bool :=
  decide (turn.fields.get? "status" = some (.str "inProgress")) &&
    decide ((projectedTurnMetadata turn.fields).bind (·.get? "execution") = none)

def snapshotAt (i : Nat) : Reducer := fun t =>
  match t.turns[i]? with
  | some turn => if turn.lacksExecution then snapshotTurnExecution (some turn.id) t else []
  | none => []

def snapshotTurns : Reducer := fun t => Reducer.each snapshotAt (List.range t.turns.length) t

def approvalPolicyName (value : Option Json) : Option String :=
  match value.bind asStr? with
  | some name => some name
  | none => if ((asObject value).bind (·.get? "granular")).isSome then some "granular" else none

def sandboxPolicyName (value : Option Json) : Option String :=
  (asObject value).bind (strField · "type")

def settingsOf (value : Option Json) : Option ExecutionSettings := do
  let settings ← asObject value
  let model ← strField settings "model"
  let modelLabel := strField settings "modelLabel"
  let effort := strField settings "effort"
  let serviceTier := some (strField settings "serviceTier")
  let permissions := (asObject (settings.get? "activePermissionProfile")).bind (strField · "id")
  let approvalPolicy := approvalPolicyName (settings.get? "approvalPolicy")
  let sandboxPolicy := sandboxPolicyName (settings.get? "sandboxPolicy")
  some { model, modelLabel, effort, serviceTier, permissions, approvalPolicy, sandboxPolicy }

def seededFields (fields : Fields) (settings : ExecutionSettings) : Fields :=
  let metadata := metadataOf fields
  let previous := metadata.get? "executionSettings"
  let previously := fun k => orNull (present (previous.bind (·.get? k)))
  let orPrevious := fun (value : Option String) k =>
    match value with
    | some v => str v
    | none => previously k
  let modelLabel :=
    match settings.modelLabel with
    | some label => str label
    | none =>
      if previous.bind (·.get? "model") = some (.str settings.model) then previously "modelLabel"
      else .null
  let executionSettings := ofFields
    [("model", .str settings.model), ("modelLabel", modelLabel),
      ("effort", ofStr settings.effort), ("serviceTier", ofStr settings.serviceTier.join),
      ("permissions", ofStr settings.permissions),
      ("approvalPolicy", orPrevious settings.approvalPolicy "approvalPolicy"),
      ("sandboxPolicy", orPrevious settings.sandboxPolicy "sandboxPolicy")]
  let direct := (fields.insert "model" (.str settings.model)).insert "reasoningEffort"
    (ofStr settings.effort)
  let direct :=
    match settings.serviceTier with
    | some tier => direct.insert "serviceTier" (ofStr tier)
    | none => direct
  direct.insert "codewide" (metadata.insert "executionSettings" executionSettings)

def seedThreadExecutionSettings (settings : ExecutionSettings) : Reducer :=
  Reducer.andThen (fun t => [.thread (seededFields t.fields settings)]) snapshotTurns

def updateThreadSettings (value : Option Json) : Reducer := fun t =>
  match settingsOf value with
  | some settings => seedThreadExecutionSettings settings t
  | none => []

def threadStatus (status : Json) (canAcceptDirectInput : Option Json) : Reducer := fun t =>
  let fields := t.fields.insert "status" status
  match canAcceptDirectInput with
  | some (.bool b) => [.thread (fields.insert "canAcceptDirectInput" (.bool b))]
  | _ => [.thread fields]

def threadName (name : Option Json) : Reducer := fun t =>
  [.thread (t.fields.insert "name" (ofStr (name.bind asStr?)))]

end CodeWide.Projection
