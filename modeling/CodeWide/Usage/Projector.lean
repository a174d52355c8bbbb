import CodeWide.Lib.Run
import CodeWide.Usage.Journal

/-!
# Live usage

The token usage of every thread, projected from the notifications of its provider (`observe`).
-/

namespace CodeWide.Usage

open Lib Json

variable {F : Type}

def providerCostField : String := "codewideProviderCost"

def requestModelField : String := "codewideRequestModel"

structure PersistedTurnUsage (F : Type) where
  model : Option String
  baseline : Option TokenCounts
  total : TokenCounts
  latestRequest : TokenCounts
  modelContextWindow : Option UInt64
  /-- Missing in records of an earlier version. -/
  requests : Option (List RequestUsage)
  status : UsageStatus
  providerCost : Option (ProviderCost F)

structure PersistedThreadUsage (F : Type) where
  model : Option String
  provider : Option String
  total : TokenCounts
  hasTotal : Bool
  turns : Table String (PersistedTurnUsage F)
  providerCost : Option (ProviderCost F)

def PersistedThreadUsage.default : PersistedThreadUsage F :=
  ⟨none, none, .default, false, .empty, none⟩

structure LiveUsageProjector (F : Type) where
  store : Table String (PersistedThreadUsage F)
  pricing : UsagePricing F
  threads : Table String (PersistedThreadUsage F)

def payloadThreadId (payload : Json) : Option String :=
  (payload.get? "params").bind (fun params =>
    ((params.get? "threadId").bind asStr?).or ((params.getPath? ["thread", "id"]).bind asStr?))

def LiveUsageProjector.load (p : LiveUsageProjector F) (threadId : String) :
    PersistedThreadUsage F :=
  ((p.threads.get? threadId).or (p.store.get? threadId)).getD .default

def observeProvider (p : LiveUsageProjector F) (payload : Json) (provider : String) :
    LiveUsageProjector F :=
  match payloadThreadId payload with
  | none => p
  | some threadId =>
    let state := { p.load threadId with provider := some provider }
    { p with threads := p.threads.insert threadId state }

def PersistedThreadUsage.startTurn (state : PersistedThreadUsage F) : PersistedTurnUsage F :=
  { model := state.model
    baseline := if state.hasTotal then some state.total else none
    total := state.total
    latestRequest := .default
    modelContextWindow := none
    requests := some []
    status := .live
    providerCost := none }

def parseLiveUsage (value : Json) : Option (TokenCounts × TokenCounts × Option UInt64) :=
  match value.get? "total", value.get? "last" with
  | some total, some last =>
    some (.fromCamelCase total, .fromCamelCase last,
      ((value.get? "modelContextWindow").bind asU64?).map UInt64.ofNat)
  | _, _ => none

variable (A : Amounts F)

def updateTurn (state : PersistedThreadUsage F) (params : Json) (turn : PersistedTurnUsage F)
    (total last : TokenCounts) (modelContextWindow : Option UInt64)
    (providerCost : Option (ProviderCost F)) : PersistedTurnUsage F :=
  let baseline := turn.baseline.getD (total.saturatingSub last)
  let kept := total.isMonotonicFrom baseline
  let requests := if kept then turn.requests else none
  let requestModel := (((params.get? requestModelField).bind asStr?).or turn.model).or state.model
  { turn with
    baseline := some (if kept then baseline else total.saturatingSub last)
    requests :=
      if total = turn.total then requests
      else
        match requests, requestModel with
        | some requests, some model => some (requests ++ [⟨normalizeModel model, last⟩])
        | _, _ => none
    total
    latestRequest := last
    modelContextWindow
    providerCost }

def project (state : PersistedThreadUsage F) (turn : PersistedTurnUsage F)
    (pricing : UsagePricing F) : TurnUsageProjection F :=
  let model := turn.model.or state.model
  let turnTokens := turn.total.saturatingSub
    (turn.baseline.getD (turn.total.saturatingSub turn.latestRequest))
  { version := 1
    status := turn.status
    modelContextWindow := turn.modelContextWindow
    latestRequest := turn.latestRequest
    turn := ⟨turnTokens,
      match turn.providerCost with
      | some reported => some (providerReportedCost A reported reported.turnUsd turnTokens)
      | none => turn.requests.bind (requestsCost A pricing)⟩
    thread := ⟨state.total,
      match state.providerCost with
      | some reported =>
        reported.threadUsd.map (fun usd => providerReportedCost A reported usd state.total)
      | none =>
        if state.hasTotal then model.bind (fun model => pricing.sessionCost model state.total)
        else none⟩ }

def completedTurnId (params : Json) : Option String :=
  ((params.getPath? ["turn", "id"]).bind asStr?).or ((params.get? "turnId").bind asStr?)

def observeThread (pricing : UsagePricing F) (state : PersistedThreadUsage F) (method : String)
    (params : Json) : Option (PersistedThreadUsage F × Option (TurnUsageProjection F)) :=
  if method = "thread/started" then
    match (params.getPath? ["thread", "model"]).bind asStr? with
    | none => some (state, none)
    | some model => some ({ state with model := some (normalizeModel model) }, none)
  else if method = "thread/settings/updated" then
    match (params.getPath? ["threadSettings", "model"]).bind asStr? with
    | none => some (state, none)
    | some model => some ({ state with model := some (normalizeModel model) }, none)
  else if method = "turn/started" then
    match (params.getPath? ["turn", "id"]).bind asStr? with
    | none => some (state, none)
    | some turnId =>
      let turn := (state.turns.get? turnId).getD state.startTurn
      some ({ state with turns := state.turns.insert turnId turn }, none)
  else if method = "model/rerouted" then
    match (params.get? "turnId").bind asStr?, (params.get? "toModel").bind asStr? with
    | some turnId, some model =>
      let turn := (state.turns.get? turnId).getD state.startTurn
      some ({ state with
        turns := state.turns.insert turnId { turn with model := some (normalizeModel model) } }, none)
    | _, _ => some (state, none)
  else if method = "thread/tokenUsage/updated" then
    match (params.get? "turnId").bind asStr?, (params.get? "tokenUsage").bind parseLiveUsage with
    | some turnId, some (total, last, modelContextWindow) =>
      let providerCost := (params.get? providerCostField).bind (ProviderCost.ofJson? A)
      let turn := (state.turns.get? turnId).getD
        { model := state.model
          baseline := some (total.saturatingSub last)
          total
          latestRequest := last
          modelContextWindow
          requests := none
          status := .live
          providerCost := none }
      let turn := updateTurn state params turn total last modelContextWindow providerCost
      let state := { state with
        turns := state.turns.insert turnId turn
        total
        hasTotal := true
        providerCost }
      some (state, some (project A state turn pricing))
    | _, _ => some (state, none)
  else if method = "turn/completed" then
    match (completedTurnId params).bind (fun turnId =>
      (state.turns.get? turnId).map (fun turn => (turnId, turn))) with
    | none => some (state, none)
    | some (turnId, turn) =>
      let turn := { turn with status := .final }
      let state := { state with turns := state.turns.insert turnId turn }
      some (state, some (project A state turn pricing))
  else none

def observe (p : LiveUsageProjector F) (payload : Json) :
    LiveUsageProjector F × Option (TurnUsageProjection F) :=
  match (payload.get? "method").bind asStr?, payload.get? "params" with
  | some method, some params =>
    if params.isObj = false then (p, none)
    else
      match payloadThreadId payload with
      | none => (p, none)
      | some threadId =>
        let state := p.load threadId
        match observeThread A (p.pricing.forProvider state.provider) state method params with
        | none => (p, none)
        | some (state, projection) =>
          ({ p with
            store := p.store.insert threadId state
            threads := p.threads.insert threadId state }, projection)
  | _, _ => (p, none)

/-- The turn that is priced again: the one a notification names by its id, or else in its turn. -/
def replayTurnId (params : Json) : Option String :=
  ((params.get? "turnId").bind asStr?).or ((params.getPath? ["turn", "id"]).bind asStr?)

def replayPricing (p : LiveUsageProjector F) (payload : Json) : Option (ReplayPricing F) := do
  let params ← payload.get? "params"
  let threadId ← payloadThreadId payload
  let state ← p.threads.get? threadId
  let priced := !(p.pricing.forProvider state.provider).isEmpty
  let turn := (replayTurnId params).bind state.turns.get?
  let model := if priced then (turn.bind (·.model)).or state.model else none
  let method := (payload.get? "method").bind asStr?
  let hasUsageProjection := decide (method = some "thread/tokenUsage/updated") ||
    decide (method = some "turn/completed")
  return {
    model
    threadModel := if hasUsageProjection then model else none
    turnRequests :=
      if hasUsageProjection && priced then turn.bind (·.requests) else none
    providerCost :=
      if hasUsageProjection then
        (turn.bind (·.providerCost)).map (fun cost =>
          { cost with threadUsd := state.providerCost.bind (·.threadUsd) })
      else none }

def threadPricing (p : LiveUsageProjector F) (payload : Json) : UsagePricing F :=
  p.pricing.forProvider (((payloadThreadId payload).bind p.threads.get?).bind (·.provider))

/-- A payload is seen, a notification is observed, or the companion starts again. -/
inductive ProjectorStep where
  | provider (payload : Json) (provider : String)
  | notification (payload : Json)
  | restart

def LiveUsageProjector.step (p : LiveUsageProjector F) : ProjectorStep → LiveUsageProjector F
  | .provider payload provider => observeProvider p payload provider
  | .notification payload => (observe A p payload).1
  | .restart => { p with threads := .empty }

def LiveUsageProjector.new (store : Table String (PersistedThreadUsage F))
    (pricing : UsagePricing F) : LiveUsageProjector F := ⟨store, pricing, .empty⟩

end CodeWide.Usage
