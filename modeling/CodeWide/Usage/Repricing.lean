import CodeWide.Usage.Projector

/-!
# Prices after a replay

A notification has the same prices when it is delivered from the journal exactly when the reported
costs of its turn and of its thread agree (`Repriced`).
-/

namespace CodeWide.Usage

open Lib List Option Json ProviderCost

variable {F : Type} {A : Amounts F} {pricing : Option (ReplayPricing F)} {tables : UsagePricing F}

/-! ## A projection in a visited entry -/

def PlainCost (cost : Option (CostProjection F)) : Prop :=
  ∀ c, cost = some c → c.basis ≠ "approxBytesPerToken"

lemma visit_tokens (t : TokenCounts) : visitPricingFields A pricing tables t.toJson = t.toJson := by
  have hturn : t.toJson.get? "turn" = none := by
    unfold TokenCounts.toJson
    rw [get?_ofFields]
    rfl
  have hbasis : t.toJson.get? "basis" = none := by
    unfold TokenCounts.toJson
    rw [get?_ofFields]
    rfl
  have hfoot : isFootprint t.toJson = false := by
    unfold isFootprint
    rw [hbasis]
    rfl
  refine visit_plain ?_ (isUsageScope_of_no_turn hturn) hfoot (fun k x hx => visit_leaf ?_)
  · unfold TokenCounts.toJson
    exact isObj_ofFields _
  unfold TokenCounts.toJson at hx
  refine fields_ofFields ?_ k x hx
  simp only [forall_mem_cons, not_mem_nil, false_implies, implies_true, and_true]
  exact ⟨trivial, trivial, trivial, trivial, trivial, trivial⟩

lemma get?_cost_basis (c : CostProjection F) : (c.toJson A).get? "basis" = some (.str c.basis) := by
  unfold CostProjection.toJson
  rw [get?_ofFields]
  rfl

lemma visit_price (p : ModelPrice F) :
    visitPricingFields A pricing tables (p.toJson A) = p.toJson A := by
  have hnone : ∀ key, key = "turn" ∨ key = "basis" → (p.toJson A).get? key = none := by
    intro key hkey
    unfold ModelPrice.toJson
    rw [get?_ofFields]
    rcases hkey with rfl | rfl <;> rfl
  refine visit_plain (isObj_price p) (isUsageScope_of_no_turn (hnone _ (.inl rfl))) ?_
    (fun k x hx => visit_leaf (fields_price p k x hx))
  unfold isFootprint
  rw [hnone _ (.inr rfl)]
  rfl

variable {cost : Option (CostProjection F)}

lemma visit_cost (h : PlainCost cost) :
    visitPricingFields A pricing tables (costJson A cost) = costJson A cost := by
  cases cost with
  | none => exact visit_leaf (by trivial)
  | some c =>
  rw [costJson_some]
  refine visit_plain (isObj_cost c) (isUsageScope_of_no_turn (get?_cost_scope c (.inl rfl))) ?_
    (fields_cost c (fun x hx => visit_leaf hx) (visit_price c.price))
  unfold isFootprint
  rw [get?_cost_basis, bind_some]
  exact beq_eq_false_iff_ne.mpr (fun heq => h c rfl (some.inj heq))

variable (s : UsageScopeProjection F)

lemma get?_scope (k : String) : (s.toJson A).get? k = if k = "cost" then some (costJson A s.cost)
    else if k = "tokens" then some s.tokens.toJson else none := by
  unfold UsageScopeProjection.toJson
  rw [get?_ofFields]
  rfl

lemma isObj_scope : (s.toJson A).isObj = true := by
  unfold UsageScopeProjection.toJson
  exact isObj_ofFields _

lemma scopeTokens_scope : scopeTokens (s.toJson A) = some s.tokens := by
  unfold scopeTokens
  rw [get?_scope, if_neg (by decide), if_pos rfl, bind_some, TokenCounts.ofJson?_toJson]

lemma visit_scope (h : PlainCost cost) :
    visitPricingFields A pricing tables ((s.toJson A).insert "cost" (costJson A cost)) =
      (UsageScopeProjection.mk s.tokens cost).toJson A := by
  have hset : (s.toJson A).insert "cost" (costJson A cost) =
      (UsageScopeProjection.mk s.tokens cost).toJson A := by
    unfold UsageScopeProjection.toJson ofFields
    simp only [foldl_cons, foldl_nil]
    rw [insert_insert]
    rfl
  rw [hset]
  have hfoot : isFootprint ((UsageScopeProjection.mk s.tokens cost).toJson A) = false := by
    unfold isFootprint
    rw [get?_scope, if_neg (by decide), if_neg (by decide)]
    rfl
  have hturn : ((UsageScopeProjection.mk s.tokens cost).toJson A).get? "turn" = none := by
    rw [get?_scope, if_neg (by decide), if_neg (by decide)]
  refine visit_plain (isObj_scope _) (isUsageScope_of_no_turn hturn) hfoot (fun k x hx => ?_)
  unfold UsageScopeProjection.toJson at hx
  refine fields_ofFields (P := fun x => visitPricingFields A pricing tables x = x) ?_ k x hx
  simp only [forall_mem_cons, not_mem_nil, false_implies, implies_true, and_true]
  exact ⟨visit_tokens _, visit_cost h⟩

def TurnUsageProjection.withCosts (u : TurnUsageProjection F)
    (turn thread : Option (CostProjection F)) : TurnUsageProjection F :=
  { u with turn := ⟨u.turn.tokens, turn⟩, thread := ⟨u.thread.tokens, thread⟩ }

variable (u : TurnUsageProjection F)

lemma get?_usage (k : String) : (u.toJson A).get? k = if k = "thread" then some (u.thread.toJson A)
    else if k = "turn" then some (u.turn.toJson A)
    else if k = "latestRequest" then some u.latestRequest.toJson
    else if k = "modelContextWindow" then
      some (optionJson (fun n : UInt64 => .int n.toNat) u.modelContextWindow)
    else if k = "status" then some (.str u.status.name)
    else if k = "version" then some (.int u.version) else none := by
  unfold TurnUsageProjection.toJson
  rw [get?_ofFields]
  rfl

lemma isObj_usage : (u.toJson A).isObj = true := by
  unfold TurnUsageProjection.toJson
  exact isObj_ofFields _

lemma ascending_usage : (u.toJson A).Ascending := by
  unfold TurnUsageProjection.toJson
  exact ascending_ofFields _

lemma isUsageScope_usage : isUsageScope (u.toJson A) = true := by
  unfold isUsageScope
  rw [get?_usage, get?_usage, if_neg (by decide), if_pos rfl, if_pos rfl, bind_some,
    bind_some, get?_scope, get?_scope, if_neg (by decide), if_pos rfl, if_neg (by decide),
    if_pos rfl]
  rfl

lemma visit_usage (hturn : PlainCost (replayTurnCost A pricing tables (some u.turn.tokens)))
    (hthr : PlainCost (replayThreadCost A pricing tables (some u.thread.tokens))) :
    visitPricingFields A pricing tables (u.toJson A) =
      (u.withCosts (replayTurnCost A pricing tables (some u.turn.tokens))
        (replayThreadCost A pricing tables (some u.thread.tokens))).toJson A := by
  refine eq_of_get? (ascending_visit (ascending_usage u)) (ascending_usage _)
    ((isObj_visit _).trans (isObj_usage u)) (isObj_usage _) (fun k => ?_)
  rw [get?_visit, get?_usage (u.withCosts _ _)]
  by_cases hk : k = "thread"
  · rw [hk, if_pos rfl, get?_priced_thread, if_pos (isUsageScope_usage u), get?_usage, if_pos rfl,
      map_some, map_some, scopeTokens_scope, visit_scope u.thread hthr]
    rfl
  by_cases hk' : k = "turn"
  · rw [hk', if_neg (by decide), if_pos rfl, get?_priced_turn, if_pos (isUsageScope_usage u),
      get?_usage, if_neg (by decide), if_pos rfl, map_some, map_some,
      scopeTokens_scope, visit_scope u.turn hturn]
    rfl
  rw [if_neg hk, if_neg hk']
  have hfoot : isFootprint (priceScopes A pricing tables (u.toJson A)) = false := by
    unfold isFootprint priceScopes
    rw [if_pos (isUsageScope_usage u), get?_onField, if_neg (by decide), get?_onField,
      if_neg (by decide), get?_usage]
    rfl
  have hkeep : (priced A pricing tables (u.toJson A)).get? k = (u.toJson A).get? k := by
    unfold priced priceFootprint
    rw [if_neg (by rw [hfoot]; exact Bool.false_ne_true)]
    unfold priceScopes
    rw [if_pos (isUsageScope_usage u), get?_onField, if_neg hk, get?_onField, if_neg hk']
  rw [hkeep, get?_usage, if_neg hk, if_neg hk']
  have hleaf : ∀ n : Option UInt64, IsLeaf (optionJson (fun n : UInt64 => .int n.toNat) n) :=
    fun n => isLeaf_optionJson (fun _ => by trivial) n
  by_cases hreq : k = "latestRequest"
  · rw [if_pos hreq, if_pos hreq, map_some, visit_tokens]
    rfl
  rw [if_neg hreq, if_neg hreq]
  split
  · rw [map_some, visit_leaf (hleaf _)]
    rfl
  split
  · rw [map_some, visit_leaf (by trivial)]
    rfl
  split
  · rw [map_some, visit_leaf (by trivial)]
    rfl
  · rfl

/-! ## The inputs in the journal -/

lemma readOption_optionJson {α : Type} {f : α → Json} {g : Json → Option α}
    (hread : ∀ x, g (f x) = some x) (hnull : ∀ x, f x ≠ .null) (o : Option α) :
    readOption g (some (optionJson f o)) = some o := by
  cases o with
  | none => rfl
  | some x =>
  have hvalue : ∀ v : Json, v ≠ .null → readOption g (some v) = (g v).map some := by
    intro v hv
    cases v with
    | null => exact absurd rfl hv
    | _ => rfl
  simp only [optionJson]
  rw [hvalue _ (hnull x), hread]
  rfl

lemma ProviderCost.ofJson?_toJson (c : ProviderCost F) :
    ProviderCost.ofJson? A (c.toJson A) = some c := by
  have hfield : ∀ key, (c.toJson A).get? key = _ := fun key => get?_ofFields _ key
  have hbasis : (c.toJson A).get? "basis" = some (.str c.basis.name) := hfield _
  have hmodel : (c.toJson A).get? "model" = some (.str c.model) := hfield _
  have hturn : (c.toJson A).get? "turnUsd" = some (A.toJson c.turnUsd) := hfield _
  have hthr : (c.toJson A).get? "threadUsd" = some (optionJson A.toJson c.threadUsd) := hfield _
  have hname : ProviderCostBasis.ofName? c.basis.name = some c.basis := by
    cases c.basis <;> rfl
  have hnum : ∀ x, A.toJson x ≠ .null := by
    intro x hx
    have := A.number x
    rw [hx] at this
    cases this
  unfold ofJson?
  rw [hbasis, hmodel, hturn, hthr, readOption_optionJson A.ofJson?_toJson hnum]
  simp only [bind_some, asStr?, hname, A.ofJson?_toJson]
  rfl

lemma RequestUsage.ofJson?_toJson (r : RequestUsage) : RequestUsage.ofJson? r.toJson = some r := by
  have hmodel : r.toJson.get? "model" = some (.str r.model) := get?_ofFields _ _
  have htoks : r.toJson.get? "tokens" = some r.tokens.toJson := get?_ofFields _ _
  unfold RequestUsage.ofJson?
  rw [hmodel, htoks, bind_some, bind_some, TokenCounts.ofJson?_toJson]
  rfl

lemma mapM_requests (l : List RequestUsage) :
    (l.map RequestUsage.toJson).mapM RequestUsage.ofJson? = some l := by
  induction l with
  | nil => rfl
  | cons r rest ih =>
    rw [map_cons, mapM_cons, RequestUsage.ofJson?_toJson, ih]
    rfl

lemma get?_replayPricing (p : ReplayPricing F) :
    (p.toJson A).get? "model" = some (optionJson .str p.model) ∧
      (p.toJson A).get? "threadModel" = some (optionJson .str p.threadModel) ∧
      (p.toJson A).get? "turnRequests" =
        some (optionJson (fun l => .arr (l.map RequestUsage.toJson)) p.turnRequests) ∧
      (p.toJson A).get? "providerCost" = p.providerCost.map (fun c => c.toJson A) ∧
      (p.toJson A).get? "turn" = none ∧ (p.toJson A).get? "basis" = none := by
  unfold ReplayPricing.toJson
  simp only [get?_ofFields]
  cases p.providerCost with
  | none | some c => exact ⟨rfl, rfl, rfl, rfl, rfl, rfl⟩

lemma ReplayPricing.ofJson?_toJson (p : ReplayPricing F) :
    ReplayPricing.ofJson? A (p.toJson A) = some p := by
  obtain ⟨hmodel, hthr, hreqs, hcost, -, -⟩ := @get?_replayPricing F A p
  have hprov : readOption (ProviderCost.ofJson? A) (p.providerCost.map (fun c => c.toJson A)) =
      some p.providerCost := by
    cases p.providerCost with
    | none => rfl
    | some c =>
    have hnull : ∀ c : ProviderCost F, c.toJson A ≠ .null := by
      intro c hc
      have hobj : (c.toJson A).isObj = true := by
        unfold ProviderCost.toJson
        exact isObj_ofFields _
      rw [hc] at hobj
      cases hobj
    exact readOption_optionJson ProviderCost.ofJson?_toJson hnull (some c)
  have hstr : ∀ o : Option String, readOption asStr? (some (optionJson .str o)) = some o := by
    intro o
    cases o <;> rfl
  have hlist : ∀ o : Option (List RequestUsage),
      readOption (fun v => v.asArr?.bind (·.mapM RequestUsage.ofJson?))
        (some (optionJson (fun l => .arr (l.map RequestUsage.toJson)) o)) = some o := by
    intro o
    cases o with
    | none => rfl
    | some l => exact congrArg (Option.map some) (mapM_requests l)
  unfold ReplayPricing.ofJson?
  rw [hmodel, hthr, hreqs, hcost, hprov, hstr, hstr, hlist]
  rfl

lemma noPrice_replayPricing (p : ReplayPricing F) : NoPrice (p.toJson A) := by
  have hnum : ∀ x, NoPrice (A.toJson x) := fun x => noPrice_leaf (IsLeaf.of_number (A.number x))
  have hstr : ∀ s, NoPrice (.str s) := fun s => noPrice_leaf (by trivial)
  have hoption : ∀ {α : Type} (f : α → Json) (o : Option α), (∀ x, NoPrice (f x)) →
      NoPrice (optionJson f o) := by
    intro α f o h
    cases o with
    | none => exact noPrice_leaf (by trivial)
    | some x => exact h x
  have hplain : ∀ v : Json, v.isObj = true → v.get? "turn" = none →
      (v.get? "basis").bind asStr? ≠ some "approxBytesPerToken" →
      (∀ k x, (k, x) ∈ v.fields → NoPrice x) → NoPrice v := by
    intro v hobj hturn hbasis h
    refine noPrice_obj hobj (fun hscope => ?_) (fun hfoot => ?_) h
    · rw [isUsageScope_of_no_turn hturn] at hscope
      cases hscope
    · exact absurd (beq_iff_eq.mp hfoot) hbasis
  have htoks : ∀ t : TokenCounts, NoPrice t.toJson := by
    intro t
    have h := @noPrice_visit F A t.toJson
    rw [visit_tokens] at h
    exact h
  have hreq : ∀ r : RequestUsage, NoPrice r.toJson := by
    intro r
    have hnone : ∀ key, key = "turn" ∨ key = "basis" → r.toJson.get? key = none := by
      intro key hkey
      unfold RequestUsage.toJson
      rw [get?_ofFields]
      rcases hkey with rfl | rfl <;> rfl
    refine hplain _ (by unfold RequestUsage.toJson; exact isObj_ofFields _)
      (hnone _ (.inl rfl)) (by rw [hnone _ (.inr rfl)]; exact fun h => (nomatch h)) ?_
    intro k x hx
    unfold RequestUsage.toJson at hx
    refine fields_ofFields ?_ k x hx
    simp only [forall_mem_cons, not_mem_nil, false_implies, implies_true, and_true]
    exact ⟨hstr _, htoks _⟩
  have hcost : ∀ c : ProviderCost F, NoPrice (c.toJson A) := by
    intro c
    have hturn : (c.toJson A).get? "turn" = none := by
      unfold toJson
      rw [get?_ofFields]
      rfl
    have hbasis : (c.toJson A).get? "basis" = some (.str c.basis.name) := by
      unfold toJson
      rw [get?_ofFields]
      rfl
    refine hplain _ (by unfold toJson; exact isObj_ofFields _) hturn ?_ ?_
    · rw [hbasis, bind_some]
      cases c.basis <;> exact fun h => (nomatch h)
    intro k x hx
    unfold toJson at hx
    refine fields_ofFields ?_ k x hx
    simp only [forall_mem_cons, not_mem_nil, false_implies, implies_true, and_true]
    exact ⟨hstr _, hstr _, hnum _, hoption _ _ hnum⟩
  obtain ⟨-, -, -, -, hturn, hbasis⟩ := @get?_replayPricing F A p
  refine hplain _ (by unfold ReplayPricing.toJson; exact isObj_ofFields _) hturn
    (by rw [hbasis]; exact fun h => (nomatch h)) ?_
  intro k x hx
  unfold ReplayPricing.toJson at hx
  refine fields_ofFields (fun e he => ?_) k x hx
  rcases mem_append.mp he with he | he
  · have hreqs : ∀ l : List RequestUsage, NoPrice (.arr (l.map RequestUsage.toJson)) := by
      intro l
      refine noPrice_arr (fun x hx => ?_)
      obtain ⟨r, -, rfl⟩ := mem_map.mp hx
      exact hreq r
    simp only [mem_cons, not_mem_nil, or_false] at he
    rcases he with rfl | rfl | rfl
    · exact hoption _ _ hstr
    · exact hoption _ _ hstr
    · exact hoption _ _ hreqs
  cases hp : p.providerCost with
  | none =>
    rw [hp] at he
    cases he
  | some c =>
  rw [hp] at he
  cases mem_singleton.mp he
  exact hcost c

/-! ## The costs of a projection -/

lemma addCost_basis (left : Option (CostProjection F)) (right : CostProjection F)
    (hright : right.basis = apiEquivalentBasis)
    (hleft : ∀ c, left = some c → c.basis = apiEquivalentBasis) :
    ∀ c, addCost A left (some right) = some c → c.basis = apiEquivalentBasis := by
  intro c hc
  cases left with
  | none =>
    cases hc
    exact hright
  | some l =>
    cases hc
    exact hleft l rfl

lemma requestsCost_basis {requests : List RequestUsage} {c : CostProjection F}
    (h : requestsCost A tables requests = some c) : c.basis = apiEquivalentBasis := by
  have hreq : ∀ {model usage cost}, tables.requestCost model usage = some cost →
      cost.basis = apiEquivalentBasis := by
    intro model usage cost hcost
    obtain ⟨entry, -, hentry⟩ := exists_of_findSome?_eq_some hcost
    exact entry.table.requestBasis hentry
  have hfold : ∀ (l : List RequestUsage) (total last : Option (CostProjection F)),
      (∀ c, total = some c → c.basis = apiEquivalentBasis) →
      l.foldlM (fun total request => (tables.requestCost request.model request.tokens).map
        (fun estimate => addCost A total (some estimate))) total = some last →
      ∀ c, last = some c → c.basis = apiEquivalentBasis := by
    intro l
    induction l with
    | nil =>
      intro total last htotal hlast
      cases hlast
      exact htotal
    | cons request rest ih =>
    intro total last htotal hlast
    rw [foldlM_cons] at hlast
    obtain ⟨next, hnext, hrest⟩ := bind_eq_some_iff.mp hlast
    obtain ⟨estimate, hestimate, heq⟩ := map_eq_some_iff.mp hnext
    refine ih next last ?_ hrest
    rw [← heq]
    exact addCost_basis total estimate (hreq hestimate) htotal
  unfold requestsCost at h
  cases hlast : requests.foldlM (fun total request =>
      (tables.requestCost request.model request.tokens).map
        (fun estimate => addCost A total (some estimate))) none with
  | none =>
    rw [hlast] at h
    cases h
  | some last =>
    rw [hlast] at h
    exact hfold requests none last (fun c hc => (nomatch hc)) hlast c h

lemma sessionCost_basis {model : String} {usage : TokenCounts} {c : CostProjection F}
    (h : tables.sessionCost model usage = some c) : c.basis = apiEquivalentBasis := by
  obtain ⟨entry, -, hentry⟩ := exists_of_findSome?_eq_some h
  exact entry.table.sessionBasis hentry

lemma providerReportedCost_basis (r : ProviderCost F) (usd : F) (tokens : TokenCounts) :
    (providerReportedCost A r usd tokens).basis = providerReportedBasis := rfl

variable (tokens : Option TokenCounts)

lemma plainCost_turn : PlainCost (replayTurnCost A pricing tables tokens) := by
  intro c hc
  unfold replayTurnCost at hc
  split at hc
  · obtain ⟨t, -, rfl⟩ := map_eq_some_iff.mp hc
    exact (by decide : providerReportedBasis ≠ "approxBytesPerToken")
  · obtain ⟨requests, -, hcost⟩ := bind_eq_some_iff.mp hc
    rw [requestsCost_basis hcost]
    decide

lemma plainCost_thread : PlainCost (replayThreadCost A pricing tables tokens) := by
  intro c hc
  unfold replayThreadCost at hc
  split at hc
  · obtain ⟨usd, -, hcost⟩ := bind_eq_some_iff.mp hc
    obtain ⟨t, -, rfl⟩ := map_eq_some_iff.mp hcost
    exact (by decide : providerReportedBasis ≠ "approxBytesPerToken")
  obtain ⟨model, -, hcost⟩ := bind_eq_some_iff.mp hc
  obtain ⟨t, -, hcost⟩ := bind_eq_some_iff.mp hcost
  rw [sessionCost_basis hcost]
  decide

def Unpriced (state : PersistedThreadUsage F) (turn : PersistedTurnUsage F)
    (tables : UsagePricing F) : Prop :=
  (turn.model.or state.model).bind (fun model => tables.sessionCost model state.total) = none

/-- The reported costs of the turn and of its thread leave the thread's price as it is. -/
def Repriced (state : PersistedThreadUsage F) (turn : PersistedTurnUsage F)
    (tables : UsagePricing F) : Prop :=
  match state.providerCost, turn.providerCost with
  | some reported, some own =>
    reported.threadUsd = none ∨ (reported.model = own.model ∧ reported.basis = own.basis)
  | some reported, none => reported.threadUsd = none ∧ Unpriced state turn tables
  | none, some _ => state.hasTotal = false ∨ Unpriced state turn tables
  | none, none => state.hasTotal = true ∨ Unpriced state turn tables

def capturedPricing (state : PersistedThreadUsage F) (turn : PersistedTurnUsage F)
    (tables : UsagePricing F) : ReplayPricing F :=
  let model := if tables.isEmpty then none else turn.model.or state.model
  { model
    threadModel := model
    turnRequests := if tables.isEmpty then none else turn.requests
    providerCost := turn.providerCost.map (fun cost =>
      { cost with threadUsd := state.providerCost.bind (·.threadUsd) }) }

lemma sessionCost_of_isEmpty (h : tables.isEmpty = true) (model : String) (usage : TokenCounts) :
    tables.sessionCost model usage = none := by
  unfold UsagePricing.sessionCost
  rw [isEmpty_iff.mp h]
  rfl

lemma requestsCost_of_isEmpty (h : tables.isEmpty = true) (requests : List RequestUsage) :
    requestsCost A tables requests = none := by
  have hnone : ∀ model usage, tables.requestCost model usage = none := by
    intro model usage
    unfold UsagePricing.requestCost
    rw [isEmpty_iff.mp h]
    rfl
  unfold requestsCost
  cases requests with
  | nil => rfl
  | cons request rest =>
    rw [foldlM_cons, hnone]
    rfl

variable (state : PersistedThreadUsage F)

variable (turn : PersistedTurnUsage F)

lemma replayTurnCost_eq (tables : UsagePricing F) :
    replayTurnCost A (some (capturedPricing state turn tables)) tables
        (some (project A state turn tables).turn.tokens) =
      (project A state turn tables).turn.cost := by
  unfold replayTurnCost capturedPricing project
  simp only [bind_some]
  cases hcost : turn.providerCost with
  | some own => rfl
  | none =>
  simp only [map_none]
  cases hempty : tables.isEmpty with
  | false => rfl
  | true =>
  simp only [if_true, bind_none]
  cases turn.requests with
  | none => rfl
  | some requests => exact (requestsCost_of_isEmpty hempty requests).symm

lemma reported_ne_session {r : ProviderCost F} {usd : F} {tokens : TokenCounts}
    {o : Option (CostProjection F)} (h : ∀ c, o = some c → c.basis = apiEquivalentBasis) :
    some (providerReportedCost A r usd tokens) ≠ o := by
  intro heq
  exact absurd (h _ heq.symm) (by rw [providerReportedCost_basis]; decide)

lemma replayThreadCost_eq_iff (tables : UsagePricing F) :
    replayThreadCost A (some (capturedPricing state turn tables)) tables
        (some (project A state turn tables).thread.tokens) =
      (project A state turn tables).thread.cost ↔ Repriced state turn tables := by
  have hsess : ∀ c, (turn.model.or state.model).bind
      (fun model => tables.sessionCost model state.total) = some c →
        c.basis = apiEquivalentBasis := by
    intro c hc
    obtain ⟨model, -, hcost⟩ := bind_eq_some_iff.mp hc
    exact sessionCost_basis hcost
  -- The model that is kept for the replay prices what the model of the turn prices.
  have hkept : ((capturedPricing state turn tables).threadModel).bind
      (fun model => tables.sessionCost model state.total) =
        (turn.model.or state.model).bind (fun model => tables.sessionCost model state.total) := by
    unfold capturedPricing
    simp only
    cases hempty : tables.isEmpty with
    | false => rfl
    | true =>
    simp only [if_true, bind_none]
    cases turn.model.or state.model with
    | none => rfl
    | some model => exact (sessionCost_of_isEmpty hempty model state.total).symm
  unfold Repriced Unpriced
  unfold replayThreadCost project
  simp only [bind_some]
  rw [hkept]
  unfold capturedPricing
  cases hown : turn.providerCost with
  | some own =>
    cases hreported : state.providerCost with
    | some reported =>
      simp only [map_some, bind_some]
      cases hthr : reported.threadUsd with
      | none => simp
      | some usd =>
      simp only [bind_some, map_some, some.injEq, reduceCtorEq, false_or]
      constructor
      · intro heq
        have hmodel := congrArg CostProjection.model heq
        have hver := congrArg CostProjection.pricingVersion heq
        refine ⟨hmodel.symm, ?_⟩
        have hname : own.basis.name = reported.basis.name := hver
        cases hb : own.basis <;> cases hb' : reported.basis <;> rw [hb, hb'] at hname <;>
          first | rfl | exact absurd hname (by decide)
      · rintro ⟨hmodel, hbasis⟩
        unfold providerReportedCost
        rw [hmodel, hbasis]
    | none =>
    simp only [map_some, bind_none]
    cases state.hasTotal with
    | false => simp
    | true =>
      simp only [if_true, Bool.true_eq_false, false_or]
      exact eq_comm
  | none =>
  cases hreported : state.providerCost with
  | some reported =>
    simp only [map_none]
    cases hthr : reported.threadUsd with
    | none => simp
    | some usd =>
      simp only [map_some, reduceCtorEq, false_and, iff_false]
      exact fun heq => reported_ne_session hsess heq.symm
  | none =>
  simp only [map_none]
  cases state.hasTotal with
  | false | true => simp

/-! ## Observed notifications -/

def NamesOneTurn (payload : Json) : Prop :=
  (payload.get? "method").bind asStr? = some "turn/completed" →
    ∀ params, payload.get? "params" = some params → replayTurnId params = completedTurnId params

/-- The notification is no end of a turn, or the state of its thread keeps the thread's price. -/
def KeepsPrice (p : LiveUsageProjector F) (payload : Json) : Prop :=
  (payload.get? "method").bind asStr? = some "turn/completed" →
    ∀ params threadId turnId turn, payload.get? "params" = some params →
      payloadThreadId payload = some threadId → completedTurnId params = some turnId →
      (p.load threadId).turns.get? turnId = some turn →
        Repriced (p.load threadId) turn (p.pricing.forProvider (p.load threadId).provider)

lemma observeThread_spec {tables : UsagePricing F} {state state' : PersistedThreadUsage F}
    {method : String} {params : Json} {u : TurnUsageProjection F}
    (h : observeThread A tables state method params = some (state', some u)) :
    state'.provider = state.provider ∧ ∃ turnId turn, state'.turns.get? turnId = some turn ∧
      u = project A state' turn tables ∧
      ((method = "thread/tokenUsage/updated" ∧ (params.get? "turnId").bind asStr? = some turnId ∧
          turn.providerCost = state'.providerCost ∧ state'.hasTotal = true) ∨
        (method = "turn/completed" ∧ completedTurnId params = some turnId ∧
          ∃ before, state.turns.get? turnId = some before ∧
            (Repriced state' turn tables ↔ Repriced state before tables))) := by
  unfold observeThread at h
  split at h
  · split at h <;> cases h
  split at h
  · split at h <;> cases h
  split at h
  · split at h <;> cases h
  split at h
  · split at h <;> cases h
  split at h
  · rename_i hmeth
    split at h
    · rename_i turnId total last modelContextWindow hturn husage
      cases h
      refine ⟨rfl, turnId, _, ?_, rfl, .inl ⟨hmeth, hturn, rfl, rfl⟩⟩
      simp only
      rw [Table.get?_insert, if_pos rfl]
    · cases h
  split at h
  · rename_i hmeth
    split at h
    · cases h
    rename_i turnId before hturn
    cases h
    obtain ⟨id, hid, hget⟩ := bind_eq_some_iff.mp hturn
    obtain ⟨found, hfound, heq⟩ := map_eq_some_iff.mp hget
    cases heq
    refine ⟨rfl, turnId, _, ?_, rfl, .inr ⟨hmeth, hid, before, hfound, Iff.rfl⟩⟩
    simp only
    rw [Table.get?_insert, if_pos rfl]
  · cases h

lemma observe_spec {p p' : LiveUsageProjector F} {payload : Json} {u : TurnUsageProjection F}
    (hone : NamesOneTurn payload) (h : observe A p payload = (p', some u)) :
    ∃ state turn tables, u = project A state turn tables ∧
      replayPricing p' payload = some (capturedPricing state turn tables) ∧
      threadPricing p' payload = tables ∧
      (Repriced state turn tables ↔ KeepsPrice p payload) := by
  unfold observe at h
  cases hmeth : (payload.get? "method").bind asStr? with
  | none =>
    rw [hmeth] at h
    cases h
  | some method =>
  cases hpar : payload.get? "params" with
  | none =>
    rw [hmeth, hpar] at h
    cases h
  | some params =>
  rw [hmeth, hpar] at h
  simp only at h
  split at h
  · cases h
  cases hthr : payloadThreadId payload with
  | none =>
    rw [hthr] at h
    cases h
  | some threadId =>
  rw [hthr] at h
  simp only at h
  cases hstep : observeThread A (p.pricing.forProvider (p.load threadId).provider)
      (p.load threadId) method params with
  | none =>
    rw [hstep] at h
    cases h
  | some r =>
  obtain ⟨state, projection⟩ := r
  rw [hstep] at h
  cases h
  obtain ⟨hprov, turnId, turn, hturn, hu, hkind⟩ := observeThread_spec hstep
  refine ⟨state, turn, p.pricing.forProvider (p.load threadId).provider, hu, ?_, ?_, ?_⟩
  · -- The replay reads the same turn of the state that was just stored.
    have hid : replayTurnId params = some turnId := by
      rcases hkind with ⟨-, hid, -⟩ | ⟨hcomp, hid, -⟩
      · unfold replayTurnId
        rw [hid]
        rfl
      · rw [hone (by rw [hmeth, hcomp]) params hpar, hid]
    have hprojection : (decide (some method = some "thread/tokenUsage/updated") ||
        decide (some method = some "turn/completed")) = true := by
      rcases hkind with ⟨rfl, -⟩ | ⟨rfl, -⟩ <;> rfl
    unfold replayPricing
    simp only [hpar, hthr, bind_eq_bind, bind_some]
    rw [Table.get?_insert, if_pos rfl]
    simp only [bind_some, hid, hturn, hmeth, hprojection, hprov, if_true, Bool.true_and]
    unfold capturedPricing
    cases (p.pricing.forProvider (p.load threadId).provider).isEmpty <;> rfl
  · unfold threadPricing
    simp only [hthr, bind_some]
    rw [Table.get?_insert, if_pos rfl, bind_some, hprov]
  rcases hkind with ⟨hupdated, -, hcost, htotal⟩ | ⟨hcomp, hid, before, hbef, hiff⟩
  · constructor
    · intro _ hcomp
      rw [hmeth, hupdated] at hcomp
      exact absurd (some.inj hcomp) (by decide)
    intro _
    unfold Repriced
    rw [hcost]
    cases state.providerCost with
    | none => exact .inl htotal
    | some reported => exact .inr ⟨rfl, rfl⟩
  rw [hiff]
  constructor
  · intro hrepriced _ params' threadId' turnId' turn' hpar' hthr' hid' hturn'
    cases hpar.symm.trans hpar'
    cases hthr.symm.trans hthr'
    cases hid.symm.trans hid'
    cases hbef.symm.trans hturn'
    exact hrepriced
  · intro hkeeps
    exact hkeeps (by rw [hmeth, hcomp]) params threadId turnId before hpar hthr hid hbef

/-! ## Replayed notifications -/

lemma toJson_amount_inj {x y : F} (h : A.toJson x = A.toJson y) : x = y :=
  some.inj (by rw [← A.ofJson?_toJson, h, A.ofJson?_toJson])

lemma int_inj {x y : UInt64} (h : int x.toNat = .int y.toNat) : x = y :=
  UInt64.toNat_inj.mp (Int.ofNat.inj (int.inj h))

lemma ModelPrice.toJson_inj {p q : ModelPrice F} (h : p.toJson A = q.toJson A) : p = q := by
  have hfield : ∀ key, (p.toJson A).get? key = (q.toJson A).get? key := fun key => by rw [h]
  unfold ModelPrice.toJson at hfield
  simp only [get?_ofFields] at hfield
  have hinput := toJson_amount_inj (some.inj (hfield "input"))
  have hcach := toJson_amount_inj (some.inj (hfield "cachedInput"))
  have houtput := toJson_amount_inj (some.inj (hfield "output"))
  cases p
  cases q
  simp only at hinput hcach houtput
  rw [hinput, hcach, houtput]

lemma CostProjection.toJson_inj {c d : CostProjection F} (h : c.toJson A = d.toJson A) : c = d := by
  have hfield : ∀ key, (c.toJson A).get? key = (d.toJson A).get? key := fun key => by rw [h]
  unfold CostProjection.toJson at hfield
  simp only [get?_ofFields] at hfield
  have hmodel := str.inj (some.inj (hfield "model"))
  have hver := str.inj (some.inj (hfield "pricingVersion"))
  have hcurrency := str.inj (some.inj (hfield "currency"))
  have hbasis := str.inj (some.inj (hfield "basis"))
  have hprice := ModelPrice.toJson_inj (some.inj (hfield "price"))
  have huncached := int_inj (some.inj (hfield "uncachedInputTokens"))
  have hcach := int_inj (some.inj (hfield "cachedInputTokens"))
  have hwrite := int_inj (some.inj (hfield "cacheWriteInputTokens"))
  have houtput := int_inj (some.inj (hfield "outputTokens"))
  have hpercent := toJson_amount_inj (some.inj (hfield "cacheHitPercent"))
  have huncachedUsd := toJson_amount_inj (some.inj (hfield "uncachedInputCostUsd"))
  have hcachedUsd := toJson_amount_inj (some.inj (hfield "cachedInputCostUsd"))
  have hwriteUsd := toJson_amount_inj (some.inj (hfield "cacheWriteInputCostUsd"))
  have houtputUsd := toJson_amount_inj (some.inj (hfield "outputCostUsd"))
  have htotal := toJson_amount_inj (some.inj (hfield "totalCostUsd"))
  cases c
  cases d
  simp only at *
  rw [hmodel, hver, hcurrency, hbasis, hprice, huncached, hcach, hwrite, houtput, hpercent,
    huncachedUsd, hcachedUsd, hwriteUsd, houtputUsd, htotal]

lemma costJson_inj {c d : Option (CostProjection F)} (h : costJson A c = costJson A d) : c = d := by
  have hnull : ∀ c : CostProjection F, c.toJson A ≠ .null := by
    intro c hc
    have hobj := isObj_cost (A := A) c
    rw [hc] at hobj
    cases hobj
  cases c with
  | none =>
    cases d with
    | none => rfl
    | some d =>
      rw [costJson_some] at h
      exact absurd h.symm (hnull d)
  | some c =>
  cases d with
  | none =>
    rw [costJson_some] at h
    exact absurd h (hnull c)
  | some d =>
    rw [costJson_some, costJson_some] at h
    rw [CostProjection.toJson_inj h]

/-- Where a journal entry carries the usage projection of its notification. -/
def usagePath : List String := ["codewideThreadPatch", "operation", "usage"]

lemma getPath?_usage_of_get? {v w : Json}
    (h : v.get? "codewideThreadPatch" = w.get? "codewideThreadPatch") :
    v.getPath? usagePath = w.getPath? usagePath := by
  unfold usagePath
  rw [getPath?, getPath?, h]

lemma replayed_usage {entry : Json} {u : TurnUsageProjection F} (captured : ReplayPricing F)
    (tables : UsagePricing F) (hentry : entry.getPath? usagePath = some (u.toJson A)) :
    (priceReplayPayload A (prepareReplayPayload A entry (some (captured.toJson A))) tables).getPath?
        usagePath =
      some ((u.withCosts (replayTurnCost A (some captured) tables (some u.turn.tokens))
        (replayThreadCost A (some captured) tables (some u.thread.tokens))).toJson A) := by
  have hpath : ∀ k ∈ usagePath, k ≠ "turn" ∧ k ≠ "thread" ∧ k ≠ "estimatedInputCostUsd" := by
    decide
  have hobj : entry.isObj = true := by
    unfold usagePath at hentry
    obtain ⟨x, hx, -⟩ := bind_eq_some_iff.mp hentry
    exact isObj_of_get? hx
  have hsto : (prepareReplayPayload A entry (some (captured.toJson A))).get? replayPricingField =
      some (captured.toJson A) := by
    unfold prepareReplayPayload
    simp only
    rw [get?_insert ((isObj_visit _).trans hobj), if_pos rfl]
  have hunpriced : PlainCost (replayTurnCost A none ⟨[]⟩ (some u.turn.tokens)) ∧
      PlainCost (replayThreadCost A none ⟨[]⟩ (some u.thread.tokens)) :=
    ⟨plainCost_turn _, plainCost_thread _⟩
  have hkept : ((prepareReplayPayload A entry (some (captured.toJson A))).erase
      replayPricingField).getPath? usagePath = some ((u.withCosts none none).toJson A) := by
    have hfield : ((prepareReplayPayload A entry (some (captured.toJson A))).erase
        replayPricingField).get? "codewideThreadPatch" =
          (visitPricingFields A none ⟨[]⟩ entry).get? "codewideThreadPatch" := by
      rw [get?_erase_of_ne _ (by decide)]
      exact get?_insert_of_ne _ _ (by decide)
    rw [getPath?_usage_of_get? hfield, getPath?_visit _ _ hpath, hentry, map_some,
      visit_usage u hunpriced.1 hunpriced.2]
    rfl
  unfold priceReplayPayload
  rw [hsto, bind_some, ReplayPricing.ofJson?_toJson]
  simp only
  rw [getPath?_visit _ _ hpath, hkept, map_some,
    visit_usage _ (plainCost_turn _) (plainCost_thread _)]
  rfl

lemma withCosts_eq_iff (turn thread : Option (CostProjection F)) :
    (u.withCosts turn thread).toJson A = u.toJson A ↔
      turn = u.turn.cost ∧ thread = u.thread.cost := by
  constructor
  · intro h
    have hfield : ∀ key, ((u.withCosts turn thread).toJson A).get? key = (u.toJson A).get? key :=
      fun key => by rw [h]
    have hthr := hfield "thread"
    have hturn := hfield "turn"
    rw [get?_usage, get?_usage, if_pos rfl, if_pos rfl] at hthr
    rw [get?_usage, get?_usage, if_neg (by decide), if_pos rfl, if_neg (by decide),
      if_pos rfl] at hturn
    have hcost : ∀ s t : UsageScopeProjection F, s.toJson A = t.toJson A → s.cost = t.cost := by
      intro s t hst
      have hget : (s.toJson A).get? "cost" = (t.toJson A).get? "cost" := by rw [hst]
      rw [get?_scope, get?_scope, if_pos rfl, if_pos rfl] at hget
      exact costJson_inj (some.inj hget)
    exact ⟨hcost _ _ (some.inj hturn), hcost _ _ (some.inj hthr)⟩
  · rintro ⟨rfl, rfl⟩
    rfl

/-- An entry is delivered with its projection's prices exactly when the thread's price is kept. -/
theorem replayed_price_iff (A : Amounts F) (store : Table String (PersistedThreadUsage F))
    (pricing : UsagePricing F) (steps : List ProjectorStep) (payload entry : Json)
    {p' : LiveUsageProjector F} {u : TurnUsageProjection F} (hone : NamesOneTurn payload)
    (hobserved : observe A (exec (LiveUsageProjector.step A) (.new store pricing) steps) payload =
      (p', some u))
    (hentry : entry.getPath? usagePath = some (u.toJson A)) :
    NoPrice (prepareReplayPayload A entry ((replayPricing p' payload).map (·.toJson A))) ∧
      ((priceReplayPayload A
          (prepareReplayPayload A entry ((replayPricing p' payload).map (·.toJson A)))
          (threadPricing p' payload)).getPath? usagePath = some (u.toJson A) ↔
        KeepsPrice (exec (LiveUsageProjector.step A) (.new store pricing) steps) payload) := by
  obtain ⟨state, turn, tables, hu, hcaptured, htables, hiff⟩ := observe_spec hone hobserved
  rw [hcaptured, htables, map_some]
  constructor
  · unfold prepareReplayPayload
    simp only
    have hvisit := @noPrice_visit F A entry
    cases hentry' : visitPricingFields A none ⟨[]⟩ entry with
    | obj fields =>
      rw [hentry'] at hvisit
      have hself := hvisit _ (.self _)
      refine noPrice_obj rfl (fun hscope => ?_) (fun hfoot => ?_) (fun k x hx => ?_)
      · unfold isUsageScope at hscope
        rw [get?_insert_of_ne _ _ (by decide), get?_insert_of_ne _ _ (by decide)] at hscope
        simp only [getPath?]
        rw [get?_insert_of_ne _ _ (by decide), get?_insert_of_ne _ _ (by decide)]
        exact hself.1 hscope
      · unfold isFootprint at hfoot
        rw [get?_insert_of_ne _ _ (by decide)] at hfoot ⊢
        exact hself.2 hfoot
      · rcases mem_fields_insert hx with rfl | hx
        · exact noPrice_replayPricing _
        · exact fun w hw => hvisit w (.field hx hw)
    | _ =>
      rw [hentry'] at hvisit
      exact hvisit
  rw [replayed_usage _ tables hentry, ← hiff, some.injEq, withCosts_eq_iff, hu]
  constructor
  · exact fun h => (replayThreadCost_eq_iff state turn tables).mp h.2
  · exact fun h => ⟨replayTurnCost_eq state turn tables,
      (replayThreadCost_eq_iff state turn tables).mpr h⟩

def wholeAmounts : Amounts Int where
  zero := 0
  add := (· + ·)
  usd tokens price := tokens.toNat * price
  percent part total := if total = 0 then 0 else part.toNat * 100 / total.toNat
  toJson := .int
  ofJson?
    | .int n => some n
    | _ => none
  ofJson?_toJson _ := rfl
  number _ := rfl

def claudeNotification (method : String) (fields : List (String × Json)) : Json :=
  .ofFields [("method", .str method), ("params", .ofFields (("threadId", .str "thread") :: fields))]

def startTurnOf (turn : String) : Json :=
  claudeNotification "turn/started" [("turn", .ofFields [("id", .str turn)])]

def completeTurnOf (turn : String) : Json :=
  claudeNotification "turn/completed" [("turn", .ofFields [("id", .str turn)])]

def reportUsage (turn : String) : Json :=
  claudeNotification "thread/tokenUsage/updated" [("turnId", .str turn),
    ("tokenUsage", .ofFields [("total", .ofFields [("totalTokens", .int 12)]),
      ("last", .ofFields [("totalTokens", .int 12)])]),
    (providerCostField, .ofFields [("basis", .str "list"), ("model", .str "claude-sonnet-4-6"),
      ("turnUsd", .int 2), ("threadUsd", .int 5)])]

def interruptedRun : List ProjectorStep :=
  [.provider (startTurnOf "first") "claude", .notification (startTurnOf "first"),
    .notification (reportUsage "first"), .notification (completeTurnOf "first"),
    .notification (startTurnOf "second")]

def claudeProjector (steps : List ProjectorStep) : LiveUsageProjector Int :=
  exec (LiveUsageProjector.step wholeAmounts) (.new .empty ⟨[]⟩) steps

def journalEntry (u : TurnUsageProjection Int) : Json :=
  .ofFields [("codewideThreadPatch",
    .ofFields [("operation", .ofFields [("usage", u.toJson wholeAmounts)])])]

def deliveredUsage (p : LiveUsageProjector Int) (payload : Json) : Option (Option Json) :=
  let r := observe wholeAmounts p payload
  r.2.map (fun u => (priceReplayPayload wholeAmounts
    (prepareReplayPayload wholeAmounts (journalEntry u)
      ((replayPricing r.1 payload).map (·.toJson wholeAmounts)))
    (threadPricing r.1 payload)).getPath? usagePath)

/-- The thread cost that is shown live when the second turn ends is gone after a replay. -/
theorem interrupted_turn_loses_price :
    ((observe wholeAmounts (claudeProjector interruptedRun) (completeTurnOf "second")).2.bind
        (fun u => u.thread.cost.map (·.totalCostUsd)) = some 5) ∧
      ((deliveredUsage (claudeProjector interruptedRun) (completeTurnOf "second")).join.bind
        (·.getPath? ["thread", "cost"]) = some .null) := by
  constructor
  · decide
  · decide

/-- The usage update of the first turn is delivered with the prices it had. -/
theorem reported_usage_repriced :
    ∃ p' u, observe wholeAmounts (claudeProjector (interruptedRun.take 2)) (reportUsage "first") =
        (p', some u) ∧
      (priceReplayPayload wholeAmounts (prepareReplayPayload wholeAmounts (journalEntry u)
        ((replayPricing p' (reportUsage "first")).map (·.toJson wholeAmounts)))
        (threadPricing p' (reportUsage "first"))).getPath? usagePath =
          some (u.toJson wholeAmounts) := by
  obtain ⟨u, hu⟩ : ∃ u, (observe wholeAmounts (claudeProjector (interruptedRun.take 2))
      (reportUsage "first")).2 = some u := isSome_iff_exists.mp (by decide)
  have hmeth : (reportUsage "first").get? "method" =
      some (.str "thread/tokenUsage/updated") := by decide
  obtain ⟨⟨p', projection⟩, hobserved⟩ : ∃ r, observe wholeAmounts
      (claudeProjector (interruptedRun.take 2)) (reportUsage "first") = r := ⟨_, rfl⟩
  rw [hobserved] at hu
  have hprojection : projection = some u := hu
  rw [hprojection] at hobserved
  refine ⟨p', u, hobserved, ?_⟩
  refine (replayed_price_iff wholeAmounts .empty ⟨[]⟩ (interruptedRun.take 2) (reportUsage "first")
    (journalEntry u) ?_ hobserved rfl).2.mpr ?_
  · intro hcomp
    rw [hmeth] at hcomp
    exact absurd hcomp (by decide)
  · intro hcomp
    rw [hmeth] at hcomp
    exact absurd hcomp (by decide)

end CodeWide.Usage
