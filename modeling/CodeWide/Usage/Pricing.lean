import CodeWide.Lib.Json
import CodeWide.Lib.Text
import Mathlib.Data.Option.Basic

/-!
# Token usage and its prices

Token counters, the costs that a price table or the provider gives them, and the fields of a journal
entry that carry a price.
-/

namespace CodeWide.Usage

open Lib Json

def isNumber : Json → Bool
  | .int _ => true
  | .float _ => true
  | _ => false

/-- Amounts of money and percentages: their arithmetic and their form in a JSON value. -/
structure Amounts (F : Type) where
  zero : F
  add : F → F → F
  /-- So many tokens at a price per million. -/
  usd : UInt64 → F → F
  /-- A part in percent of a total, zero for an empty total. -/
  percent : UInt64 → UInt64 → F
  toJson : F → Json
  ofJson? : Json → Option F
  ofJson?_toJson : ∀ x, ofJson? (toJson x) = some x
  number : ∀ x, isNumber (toJson x) = true

structure TokenCounts where
  totalTokens : UInt64
  inputTokens : UInt64
  cachedInputTokens : UInt64
  cacheWriteInputTokens : UInt64
  outputTokens : UInt64
  reasoningOutputTokens : UInt64
deriving DecidableEq

def saturatingSub (a b : UInt64) : UInt64 := if a < b then 0 else a - b

def saturatingAdd (a b : UInt64) : UInt64 := if a + b < a then UInt64.ofNat (2 ^ 64 - 1) else a + b

namespace TokenCounts

def default : TokenCounts := ⟨0, 0, 0, 0, 0, 0⟩

def saturatingSub (a baseline : TokenCounts) : TokenCounts :=
  ⟨Usage.saturatingSub a.totalTokens baseline.totalTokens,
    Usage.saturatingSub a.inputTokens baseline.inputTokens,
    Usage.saturatingSub a.cachedInputTokens baseline.cachedInputTokens,
    Usage.saturatingSub a.cacheWriteInputTokens baseline.cacheWriteInputTokens,
    Usage.saturatingSub a.outputTokens baseline.outputTokens,
    Usage.saturatingSub a.reasoningOutputTokens baseline.reasoningOutputTokens⟩

def isMonotonicFrom (a baseline : TokenCounts) : Bool :=
  decide (baseline.totalTokens ≤ a.totalTokens) && decide (baseline.inputTokens ≤ a.inputTokens) &&
    decide (baseline.cachedInputTokens ≤ a.cachedInputTokens) &&
    decide (baseline.cacheWriteInputTokens ≤ a.cacheWriteInputTokens) &&
    decide (baseline.outputTokens ≤ a.outputTokens) &&
    decide (baseline.reasoningOutputTokens ≤ a.reasoningOutputTokens)

/-- Reads counters of the client's wire; a missing counter is zero. -/
def fromCamelCase (value : Json) : TokenCounts :=
  let get := fun key => UInt64.ofNat (((value.get? key).bind asU64?).getD 0)
  ⟨get "totalTokens", get "inputTokens", get "cachedInputTokens", get "cacheWriteInputTokens",
    get "outputTokens", get "reasoningOutputTokens"⟩

def toJson (t : TokenCounts) : Json :=
  .ofFields [("totalTokens", .int t.totalTokens.toNat), ("inputTokens", .int t.inputTokens.toNat),
    ("cachedInputTokens", .int t.cachedInputTokens.toNat),
    ("cacheWriteInputTokens", .int t.cacheWriteInputTokens.toNat),
    ("outputTokens", .int t.outputTokens.toNat),
    ("reasoningOutputTokens", .int t.reasoningOutputTokens.toNat)]

def ofJson? (value : Json) : Option TokenCounts := do
  let get := fun key => ((value.get? key).bind asU64?).map UInt64.ofNat
  return ⟨← get "totalTokens", ← get "inputTokens", ← get "cachedInputTokens",
    ← get "cacheWriteInputTokens", ← get "outputTokens", ← get "reasoningOutputTokens"⟩

lemma ofJson?_toJson (t : TokenCounts) : ofJson? (toJson t) = some t := by
  have hread : ∀ (key : String) (x : UInt64), (toJson t).get? key = some (.int x.toNat) →
      (((toJson t).get? key).bind asU64?).map UInt64.ofNat = some x := by
    intro key x hget
    rw [hget, Option.bind_some, asU64?_natCast x.toNat_lt, Option.map_some, UInt64.ofNat_toNat]
  have hfield : ∀ key, (toJson t).get? key = _ := fun key => get?_ofFields _ key
  unfold ofJson?
  simp only [hread "totalTokens" t.totalTokens (hfield _), hread "inputTokens" t.inputTokens (hfield _),
    hread "cachedInputTokens" t.cachedInputTokens (hfield _),
    hread "cacheWriteInputTokens" t.cacheWriteInputTokens (hfield _),
    hread "outputTokens" t.outputTokens (hfield _),
    hread "reasoningOutputTokens" t.reasoningOutputTokens (hfield _)]
  rfl

end TokenCounts

inductive ProviderCostBasis where
  | list
  | managed

def ProviderCostBasis.name : ProviderCostBasis → String
  | .list => "list"
  | .managed => "managed"

structure ProviderCost (F : Type) where
  basis : ProviderCostBasis
  model : String
  turnUsd : F
  /-- The cost of the whole thread after the turn, `none` when a turn's cost is unknown. -/
  threadUsd : Option F

structure ModelPrice (F : Type) where
  input : F
  cachedInput : F
  output : F

structure CostProjection (F : Type) where
  model : String
  pricingVersion : String
  currency : String
  basis : String
  price : ModelPrice F
  uncachedInputTokens : UInt64
  cachedInputTokens : UInt64
  cacheWriteInputTokens : UInt64
  outputTokens : UInt64
  cacheHitPercent : F
  uncachedInputCostUsd : F
  cachedInputCostUsd : F
  cacheWriteInputCostUsd : F
  outputCostUsd : F
  totalCostUsd : F

structure RequestUsage where
  model : String
  tokens : TokenCounts

inductive UsageStatus where
  | live
  | final

def UsageStatus.name : UsageStatus → String
  | .live => "live"
  | .final => "final"

structure UsageScopeProjection (F : Type) where
  tokens : TokenCounts
  cost : Option (CostProjection F)

structure TurnUsageProjection (F : Type) where
  version : Nat
  status : UsageStatus
  modelContextWindow : Option UInt64
  latestRequest : TokenCounts
  turn : UsageScopeProjection F
  thread : UsageScopeProjection F

structure ReplayPricing (F : Type) where
  model : Option String
  threadModel : Option String
  turnRequests : Option (List RequestUsage)
  providerCost : Option (ProviderCost F)

def providerReportedBasis : String := "providerReported"

def apiEquivalentBasis : String := "apiEquivalent"

structure ModelPricing (F : Type) where
  requestCost : String → TokenCounts → Option (CostProjection F)
  sessionCost : String → TokenCounts → Option (CostProjection F)
  inputPrice : String → Option F
  requestBasis : ∀ {model usage cost}, requestCost model usage = some cost →
    cost.basis = apiEquivalentBasis
  sessionBasis : ∀ {model usage cost}, sessionCost model usage = some cost →
    cost.basis = apiEquivalentBasis

structure PricingEntry (F : Type) where
  provider : Option String
  table : ModelPricing F

structure UsagePricing (F : Type) where
  tables : List (PricingEntry F)

namespace UsagePricing

variable {F : Type} (p : UsagePricing F)

def forProvider (provider : Option String) : UsagePricing F :=
  match provider with
  | none => p
  | some provider => ⟨p.tables.filter (fun entry => decide (entry.provider = some provider))⟩

def isEmpty : Bool := p.tables.isEmpty

def requestCost (model : String) (usage : TokenCounts) : Option (CostProjection F) :=
  p.tables.findSome? (fun entry => entry.table.requestCost model usage)

def sessionCost (model : String) (usage : TokenCounts) : Option (CostProjection F) :=
  p.tables.findSome? (fun entry => entry.table.sessionCost model usage)

def inputPrice (model : String) : Option F :=
  p.tables.findSome? (fun entry => entry.table.inputPrice model)

end UsagePricing

def normalizeModel (model : String) : String :=
  String.ofList ((Text.trimChars model.toList).map Char.toLower)

variable {F : Type} (A : Amounts F)

def providerReportedCost (cost : ProviderCost F) (usd : F) (tokens : TokenCounts) :
    CostProjection F :=
  let cached := min tokens.cachedInputTokens tokens.inputTokens
  let cacheWrite := min tokens.cacheWriteInputTokens (saturatingSub tokens.inputTokens cached)
  { model := cost.model
    pricingVersion := cost.basis.name
    currency := "USD"
    basis := providerReportedBasis
    price := ⟨A.zero, A.zero, A.zero⟩
    uncachedInputTokens := saturatingSub (saturatingSub tokens.inputTokens cached) cacheWrite
    cachedInputTokens := cached
    cacheWriteInputTokens := cacheWrite
    outputTokens := tokens.outputTokens
    cacheHitPercent := A.percent cached tokens.inputTokens
    uncachedInputCostUsd := A.zero
    cachedInputCostUsd := A.zero
    cacheWriteInputCostUsd := A.zero
    outputCostUsd := A.zero
    totalCostUsd := usd }

/-- The sum of two costs. The sum of the token counts wraps, as the code's does. -/
def addCost (left right : Option (CostProjection F)) : Option (CostProjection F) :=
  match left, right with
  | none, value => value
  | value, none => value
  | some left, some right =>
    let same := decide (left.model = right.model)
    let uncached := saturatingAdd left.uncachedInputTokens right.uncachedInputTokens
    let cached := saturatingAdd left.cachedInputTokens right.cachedInputTokens
    let cacheWrite := saturatingAdd left.cacheWriteInputTokens right.cacheWriteInputTokens
    some {
      model := if same then left.model else "mixed"
      pricingVersion := left.pricingVersion
      currency := left.currency
      basis := left.basis
      price := if same then left.price else ⟨A.zero, A.zero, A.zero⟩
      uncachedInputTokens := uncached
      cachedInputTokens := cached
      cacheWriteInputTokens := cacheWrite
      outputTokens := saturatingAdd left.outputTokens right.outputTokens
      cacheHitPercent := A.percent cached (uncached + cached + cacheWrite)
      uncachedInputCostUsd := A.add left.uncachedInputCostUsd right.uncachedInputCostUsd
      cachedInputCostUsd := A.add left.cachedInputCostUsd right.cachedInputCostUsd
      cacheWriteInputCostUsd := A.add left.cacheWriteInputCostUsd right.cacheWriteInputCostUsd
      outputCostUsd := A.add left.outputCostUsd right.outputCostUsd
      totalCostUsd := A.add left.totalCostUsd right.totalCostUsd }

def requestsCost (pricing : UsagePricing F) (requests : List RequestUsage) :
    Option (CostProjection F) :=
  (requests.foldlM (fun total request =>
    (pricing.requestCost request.model request.tokens).map
      (fun estimate => addCost A total (some estimate))) none).join

def optionJson {α : Type} (f : α → Json) : Option α → Json
  | none => .null
  | some x => f x

/-- Reads an optional field: missing or null is none, and what cannot be read fails. -/
def readOption {α : Type} (f : Json → Option α) : Option Json → Option (Option α)
  | none => some none
  | some .null => some none
  | some v => (f v).map some

def ProviderCost.toJson (c : ProviderCost F) : Json :=
  .ofFields [("basis", .str c.basis.name), ("model", .str c.model), ("turnUsd", A.toJson c.turnUsd),
    ("threadUsd", optionJson A.toJson c.threadUsd)]

def ProviderCostBasis.ofName? (name : String) : Option ProviderCostBasis :=
  if name = "list" then some .list else if name = "managed" then some .managed else none

def ProviderCost.ofJson? (v : Json) : Option (ProviderCost F) := do
  let basis ← ((v.get? "basis").bind asStr?).bind ProviderCostBasis.ofName?
  let model ← (v.get? "model").bind asStr?
  let turnUsd ← (v.get? "turnUsd").bind A.ofJson?
  let threadUsd ← readOption A.ofJson? (v.get? "threadUsd")
  return { basis, model, turnUsd, threadUsd }

def RequestUsage.toJson (r : RequestUsage) : Json :=
  .ofFields [("model", .str r.model), ("tokens", r.tokens.toJson)]

def RequestUsage.ofJson? (v : Json) : Option RequestUsage := do
  let model ← (v.get? "model").bind asStr?
  let tokens ← (v.get? "tokens").bind TokenCounts.ofJson?
  return { model, tokens }

def ReplayPricing.toJson (p : ReplayPricing F) : Json :=
  .ofFields ([("model", optionJson .str p.model), ("threadModel", optionJson .str p.threadModel),
    ("turnRequests", optionJson (fun l => .arr (l.map RequestUsage.toJson)) p.turnRequests)] ++
    (p.providerCost.map (fun c => ("providerCost", c.toJson A))).toList)

def ReplayPricing.ofJson? (v : Json) : Option (ReplayPricing F) := do
  let model ← readOption asStr? (v.get? "model")
  let threadModel ← readOption asStr? (v.get? "threadModel")
  let turnRequests ← readOption (fun v => v.asArr?.bind (·.mapM RequestUsage.ofJson?))
    (v.get? "turnRequests")
  let providerCost ← readOption (ProviderCost.ofJson? A) (v.get? "providerCost")
  return { model, threadModel, turnRequests, providerCost }

def ModelPrice.toJson (p : ModelPrice F) : Json :=
  .ofFields [("input", A.toJson p.input), ("cachedInput", A.toJson p.cachedInput),
    ("output", A.toJson p.output)]

def CostProjection.toJson (c : CostProjection F) : Json :=
  .ofFields [("model", .str c.model), ("pricingVersion", .str c.pricingVersion),
    ("currency", .str c.currency), ("basis", .str c.basis), ("price", c.price.toJson A),
    ("uncachedInputTokens", .int c.uncachedInputTokens.toNat),
    ("cachedInputTokens", .int c.cachedInputTokens.toNat),
    ("cacheWriteInputTokens", .int c.cacheWriteInputTokens.toNat),
    ("outputTokens", .int c.outputTokens.toNat), ("cacheHitPercent", A.toJson c.cacheHitPercent),
    ("uncachedInputCostUsd", A.toJson c.uncachedInputCostUsd),
    ("cachedInputCostUsd", A.toJson c.cachedInputCostUsd),
    ("cacheWriteInputCostUsd", A.toJson c.cacheWriteInputCostUsd),
    ("outputCostUsd", A.toJson c.outputCostUsd), ("totalCostUsd", A.toJson c.totalCostUsd)]

def UsageScopeProjection.toJson (s : UsageScopeProjection F) : Json :=
  .ofFields [("tokens", s.tokens.toJson), ("cost", optionJson (·.toJson A) s.cost)]

def TurnUsageProjection.toJson (u : TurnUsageProjection F) : Json :=
  .ofFields [("version", .int u.version), ("status", .str u.status.name),
    ("modelContextWindow", optionJson (fun n : UInt64 => .int n.toNat) u.modelContextWindow),
    ("latestRequest", u.latestRequest.toJson), ("turn", u.turn.toJson A),
    ("thread", u.thread.toJson A)]

end CodeWide.Usage
