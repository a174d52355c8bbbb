import CodeWide.Usage.Pricing

/-!
# Prices in the replay journal

An entry is stored without prices (`prepareReplayPayload`) and priced again when it is delivered
(`priceReplayPayload`).
-/

namespace CodeWide.Usage

open Lib Option Json List

variable {F : Type} (A : Amounts F)

def scopeTokens (scope : Json) : Option TokenCounts :=
  (scope.get? "tokens").bind TokenCounts.ofJson?

def isUsageScope (object : Json) : Bool :=
  ((object.get? "turn").bind (·.get? "tokens")).isSome &&
    ((object.get? "thread").bind (·.get? "tokens")).isSome

def isFootprint (object : Json) : Bool :=
  (object.get? "basis").bind asStr? == some "approxBytesPerToken"

def onField (k : String) (f : Json → Json) (object : Json) : Json :=
  match object.get? k with
  | none => object
  | some x => object.insert k (f x)

variable (pricing : Option (ReplayPricing F)) (tables : UsagePricing F)

def replayTurnCost (tokens : Option TokenCounts) : Option (CostProjection F) :=
  match pricing.bind (·.providerCost) with
  | some reported => tokens.map (providerReportedCost A reported reported.turnUsd)
  | none => (pricing.bind (·.turnRequests)).bind (requestsCost A tables)

def replayThreadCost (tokens : Option TokenCounts) : Option (CostProjection F) :=
  match pricing.bind (·.providerCost) with
  | some reported =>
    reported.threadUsd.bind (fun usd => tokens.map (providerReportedCost A reported usd))
  | none =>
    (pricing.bind (·.threadModel)).bind (fun model => tokens.bind (tables.sessionCost model))

def costJson (cost : Option (CostProjection F)) : Json := optionJson (·.toJson A) cost

def priceScopes (object : Json) : Json :=
  if isUsageScope object = true then
    onField "thread" (fun thread => thread.insert "cost"
        (costJson A (replayThreadCost A pricing tables (scopeTokens thread))))
      (onField "turn" (fun turn => turn.insert "cost"
        (costJson A (replayTurnCost A pricing tables (scopeTokens turn)))) object)
  else object

def priceFootprint (object : Json) : Json :=
  if isFootprint object = true then
    let price := (pricing.bind (·.model)).bind tables.inputPrice
    let tokens := (object.get? "estimatedTokens").bind asU64?
    object.insert "estimatedInputCostUsd"
      (optionJson A.toJson (tokens.bind (fun n => price.map (A.usd (UInt64.ofNat n)))))
  else object

def priced (object : Json) : Json :=
  priceFootprint A pricing tables (priceScopes A pricing tables object)

def visitTo : Nat → Json → Json
  | 0, v => v
  | n + 1, .arr values => .arr (values.map (visitTo n))
  | n + 1, .obj fields => (priced A pricing tables (.obj fields)).mapFields (visitTo n)
  | _ + 1, v => v

/-- Visits all values: what is set on the way adds no more than four levels. -/
def visitPricingFields (v : Json) : Json := visitTo A pricing tables (v.depth + 4) v

def replayPricingField : String := "codewideReplayPricing"

/-- Stores a notification without prices, with what is needed to price it again. -/
def prepareReplayPayload (payload : Json) (pricing : Option Json) : Json :=
  let payload := visitPricingFields A none ⟨[]⟩ payload
  match pricing with
  | none => payload
  | some pricing => payload.insert replayPricingField pricing

def priceReplayPayload (payload : Json) (tables : UsagePricing F) : Json :=
  let pricing := (payload.get? replayPricingField).bind (ReplayPricing.ofJson? A)
  visitPricingFields A pricing tables (payload.erase replayPricingField)

section Fields

variable {A pricing tables}

lemma get?_onField (k k' : String) (f : Json → Json) (v : Json) :
    (onField k f v).get? k' = if k' = k then (v.get? k).map f else v.get? k' := by
  unfold onField
  cases hget : v.get? k with
  | none =>
    simp only [map_none]
    split
    · rename_i heq
      rw [heq, hget]
    · rfl
  | some x =>
    simp only [map_some]
    rw [get?_insert (isObj_of_get? hget)]

lemma isObj_onField (k : String) (f : Json → Json) (v : Json) :
    (onField k f v).isObj = v.isObj := by
  unfold onField
  split
  · rfl
  · exact isObj_insert _ _ _

variable {v : Json}

lemma ascending_onField (h : v.Ascending) (k : String) (f : Json → Json) :
    (onField k f v).Ascending := by
  unfold onField
  split
  · exact h
  · exact h.insert _ _

lemma mem_fields_onField {k k' : String} {f : Json → Json} {v y : Json}
    (h : (k', y) ∈ (onField k f v).fields) :
    (∃ x, v.get? k = some x ∧ y = f x) ∨ (k', y) ∈ v.fields := by
  unfold onField at h
  cases hget : v.get? k with
  | none =>
    rw [hget] at h
    exact .inr h
  | some x =>
    rw [hget] at h
    exact (mem_fields_insert h).imp_left (fun heq => ⟨x, rfl, heq⟩)

lemma isObj_priced (v : Json) : (priced A pricing tables v).isObj = v.isObj := by
  unfold priced priceFootprint priceScopes
  split <;> split <;> simp only [isObj_insert, isObj_onField]

lemma ascending_priced (h : v.Ascending) : (priced A pricing tables v).Ascending := by
  have hscopes : (priceScopes A pricing tables v).Ascending := by
    unfold priceScopes
    split
    · exact ascending_onField (ascending_onField h _ _) _ _
    · exact h
  unfold priced priceFootprint
  split
  · exact hscopes.insert _ _
  · exact hscopes

lemma get?_priced_of_ne {k : String} (hturn : k ≠ "turn") (hthr : k ≠ "thread")
    (hestimate : k ≠ "estimatedInputCostUsd") (v : Json) :
    (priced A pricing tables v).get? k = v.get? k := by
  have hscopes : (priceScopes A pricing tables v).get? k = v.get? k := by
    unfold priceScopes
    split
    · rw [get?_onField, if_neg hthr, get?_onField, if_neg hturn]
    · rfl
  unfold priced priceFootprint
  split
  · simp only
    rw [get?_insert_of_ne _ _ hestimate, hscopes]
  · exact hscopes

lemma get?_priced_turn (v : Json) :
    (priced A pricing tables v).get? "turn" = if isUsageScope v = true then
      (v.get? "turn").map (fun turn => turn.insert "cost"
        (costJson A (replayTurnCost A pricing tables (scopeTokens turn)))) else v.get? "turn" := by
  have hscopes : (priced A pricing tables v).get? "turn" =
      (priceScopes A pricing tables v).get? "turn" := by
    unfold priced priceFootprint
    split
    · exact get?_insert_of_ne _ _ (by decide)
    · rfl
  rw [hscopes]
  unfold priceScopes
  split
  · rw [get?_onField, if_neg (by decide), get?_onField, if_pos rfl]
  · rfl

lemma get?_priced_thread (v : Json) :
    (priced A pricing tables v).get? "thread" = if isUsageScope v = true then
      (v.get? "thread").map (fun thread => thread.insert "cost"
        (costJson A (replayThreadCost A pricing tables (scopeTokens thread))))
      else v.get? "thread" := by
  have hscopes : (priced A pricing tables v).get? "thread" =
      (priceScopes A pricing tables v).get? "thread" := by
    unfold priced priceFootprint
    split
    · exact get?_insert_of_ne _ _ (by decide)
    · rfl
  rw [hscopes]
  unfold priceScopes
  split
  · rw [get?_onField, if_pos rfl, get?_onField, if_neg (by decide)]
  · rfl

lemma mem_fields_priced {k : String} {v y : Json}
    (h : (k, y) ∈ (priced A pricing tables v).fields) :
    (k, y) ∈ v.fields ∨ (∃ key x cost, (key = "turn" ∨ key = "thread") ∧ v.get? key = some x ∧
        (cost = replayTurnCost A pricing tables (scopeTokens x) ∨
          cost = replayThreadCost A pricing tables (scopeTokens x)) ∧
        y = x.insert "cost" (costJson A cost)) ∨
      ∃ estimate, y = optionJson A.toJson estimate := by
  have hscopes : (k, y) ∈ (priceScopes A pricing tables v).fields → (k, y) ∈ v.fields ∨
      ∃ key x cost, (key = "turn" ∨ key = "thread") ∧ v.get? key = some x ∧
        (cost = replayTurnCost A pricing tables (scopeTokens x) ∨
          cost = replayThreadCost A pricing tables (scopeTokens x)) ∧
        y = x.insert "cost" (costJson A cost) := by
    intro h
    unfold priceScopes at h
    split at h
    · rcases mem_fields_onField h with ⟨x, hx, rfl⟩ | h
      · rw [get?_onField, if_neg (by decide)] at hx
        exact .inr ⟨"thread", x, _, .inr rfl, hx, .inr rfl, rfl⟩
      · rcases mem_fields_onField h with ⟨x, hx, rfl⟩ | h
        · exact .inr ⟨"turn", x, _, .inl rfl, hx, .inl rfl, rfl⟩
        · exact .inl h
    · exact .inl h
  unfold priced priceFootprint at h
  split at h
  · rcases mem_fields_insert h with rfl | h
    · exact .inr (.inr ⟨_, rfl⟩)
    · exact (hscopes h).imp_right .inl
  · exact (hscopes h).imp_right .inl

/-- From some depth on, visiting deeper changes nothing. -/
def Settled (k : Nat) (v : Json) : Prop :=
  ∀ n, k ≤ n → visitTo A pricing tables n v = visitTo A pricing tables k v

lemma Settled.eq {k m n : Nat} (h : @Settled F A pricing tables k v) (hm : k ≤ m)
    (hn : k ≤ n) : visitTo A pricing tables m v = visitTo A pricing tables n v :=
  (h m hm).trans (h n hn).symm

lemma Settled.mono {k m : Nat} (h : @Settled F A pricing tables k v) (hm : k ≤ m) :
    @Settled F A pricing tables m v :=
  fun _ hn => h.eq (Nat.le_trans hm hn) hm

/-- A value without values inside is left as it is. -/
def IsLeaf : Json → Prop
  | .arr _ => False
  | .obj _ => False
  | _ => True

lemma visitTo_leaf (h : IsLeaf v) (n : Nat) : visitTo A pricing tables n v = v := by
  cases n with
  | zero => rfl
  | succ n =>
  cases v with
  | arr values | obj fields => cases h
  | _ => rfl

lemma settled_leaf (h : IsLeaf v) (k : Nat) : @Settled F A pricing tables k v :=
  fun n _ => (visitTo_leaf h n).trans (visitTo_leaf h k).symm

lemma IsLeaf.of_number (h : isNumber v = true) : IsLeaf v := by
  cases v <;> trivial

lemma isLeaf_optionJson {α : Type} {f : α → Json} (h : ∀ x, IsLeaf (f x)) (o : Option α) :
    IsLeaf (optionJson f o) := by
  cases o with
  | none => trivial
  | some x => exact h x

lemma visitTo_succ_obj (h : v.isObj = true) (n : Nat) : visitTo A pricing tables (n + 1) v =
      (priced A pricing tables v).mapFields (visitTo A pricing tables n) := by
  cases v with
  | obj fields => rfl
  | _ => cases h

lemma mapFields_congr {f g : Json → Json} (h : ∀ k x, (k, x) ∈ v.fields → f x = g x) :
    v.mapFields f = v.mapFields g := by
  cases v with
  | obj fields =>
    refine congrArg obj (map_congr_left (fun e he => ?_))
    exact congrArg (Prod.mk e.1) (h e.1 e.2 he)
  | _ => rfl

lemma settled_obj {k : Nat} (hobj : v.isObj = true)
    (h : ∀ key x, (key, x) ∈ (priced A pricing tables v).fields → @Settled F A pricing tables k x) :
    @Settled F A pricing tables (k + 1) v := by
  intro n hn
  obtain ⟨m, rfl⟩ : ∃ m, n = m + 1 := ⟨n - 1, by omega⟩
  rw [visitTo_succ_obj hobj, visitTo_succ_obj hobj]
  exact mapFields_congr (fun key x hx => h key x hx m (by omega))

lemma priced_of_plain (hscope : isUsageScope v = false) (hfoot : isFootprint v = false) :
    priced A pricing tables v = v := by
  unfold priced priceScopes
  rw [if_neg (by rw [hscope]; exact Bool.false_ne_true)]
  unfold priceFootprint
  rw [if_neg (by rw [hfoot]; exact Bool.false_ne_true)]

lemma isUsageScope_of_no_turn (h : v.get? "turn" = none) : isUsageScope v = false := by
  unfold isUsageScope
  rw [h]
  rfl

lemma settled_flat (hobj : v.isObj = true) (h : ∀ k x, (k, x) ∈ v.fields → IsLeaf x) :
    @Settled F A pricing tables 1 v := by
  refine settled_obj hobj (fun key x hx => settled_leaf ?_ 0)
  rcases mem_fields_priced hx with hx | ⟨key, y, cost, -, hy, -, rfl⟩ | ⟨estimate, rfl⟩
  · exact h key x hx
  · have hleaf : IsLeaf y := by
      cases v with
      | obj fields => exact h key y (mem_of_lookupField hy)
      | _ => cases hobj
    cases y with
    | obj fields => cases hleaf
    | _ => exact hleaf
  · exact isLeaf_optionJson (fun x => IsLeaf.of_number (A.number x)) estimate

lemma fields_ofFields {P : Json → Prop} {l : List (String × Json)} (h : ∀ e ∈ l, P e.2)
    (k : String) (x : Json) (hx : (k, x) ∈ (ofFields l).fields) : P x := by
  obtain ⟨key, hmem⟩ := mem_fields_ofFields hx
  exact h _ hmem

variable (c : CostProjection F)

lemma fields_cost {P : Json → Prop} (hleaf : ∀ x, IsLeaf x → P x)
    (hprice : P (c.price.toJson A)) (k : String) (x : Json)
    (hx : (k, x) ∈ (c.toJson A).fields) : P x := by
  have hnum : ∀ x, P (A.toJson x) := fun x => hleaf _ (IsLeaf.of_number (A.number x))
  refine fields_ofFields ?_ k x hx
  simp only [forall_mem_cons, not_mem_nil, false_implies, implies_true, and_true]
  exact ⟨hleaf _ trivial, hleaf _ trivial, hleaf _ trivial, hleaf _ trivial, hprice,
    hleaf _ trivial, hleaf _ trivial, hleaf _ trivial, hleaf _ trivial, hnum _, hnum _,
    hnum _, hnum _, hnum _, hnum _⟩

lemma fields_price (p : ModelPrice F) (k : String) (x : Json)
    (hx : (k, x) ∈ (p.toJson A).fields) : IsLeaf x := by
  refine fields_ofFields ?_ k x hx
  simp only [forall_mem_cons, not_mem_nil, false_implies, implies_true, and_true]
  exact ⟨IsLeaf.of_number (A.number _), IsLeaf.of_number (A.number _),
    IsLeaf.of_number (A.number _)⟩

lemma isObj_cost : (c.toJson A).isObj = true := by
  unfold CostProjection.toJson
  exact isObj_ofFields _

lemma isObj_price (p : ModelPrice F) : (p.toJson A).isObj = true := by
  unfold ModelPrice.toJson
  exact isObj_ofFields _

lemma get?_cost_scope {key : String} (h : key = "turn" ∨ key = "thread") :
    (c.toJson A).get? key = none := by
  unfold CostProjection.toJson
  rw [get?_ofFields]
  rcases h with rfl | rfl <;> rfl

lemma costJson_some : costJson A (some c) = c.toJson A := by
  simp only [costJson, optionJson]

lemma settled_cost (cost : Option (CostProjection F)) :
    @Settled F A pricing tables 2 (costJson A cost) := by
  cases cost with
  | none =>
    have hleaf : IsLeaf (costJson A none) := trivial
    exact settled_leaf hleaf 2
  | some c =>
  have hprice : @Settled F A pricing tables 1 (c.price.toJson A) :=
    settled_flat (isObj_price c.price) (fields_price c.price)
  rw [costJson_some]
  refine settled_obj (isObj_cost c) (fun key x hx => ?_)
  rcases mem_fields_priced hx with hx | ⟨key, y, other, hkey, hy, -, rfl⟩ | ⟨estimate, rfl⟩
  · exact fields_cost c (fun x hx => settled_leaf hx 1) hprice key x hx
  · rw [get?_cost_scope c hkey] at hy
    cases hy
  · exact settled_leaf (isLeaf_optionJson (fun x => IsLeaf.of_number (A.number x)) estimate) 1

lemma settled_insert_leaf (h : IsLeaf v) (k : Nat) : @Settled F A pricing tables k v ∧
      ∀ cost, @Settled F A pricing tables k (v.insert "cost" (costJson A cost)) := by
  have hsame : ∀ x, v.insert "cost" x = v := by
    intro x
    cases v with
    | obj fields => cases h
    | _ => rfl
  refine ⟨settled_leaf h k, fun cost => ?_⟩
  rw [hsame]
  exact settled_leaf h k

lemma settled (d : Nat) (v : Json) (hv : v.depth ≤ d) : @Settled F A pricing tables (d + 4) v ∧
      ∀ cost, @Settled F A pricing tables (d + 4) (v.insert "cost" (costJson A cost)) := by
  induction d generalizing v with
  | zero =>
    cases v with
    | arr values | obj fields =>
      rw [depth] at hv
      omega
    | _ => exact settled_insert_leaf (by trivial) _
  | succ d ih =>
  by_cases hleaf : IsLeaf v
  · exact settled_insert_leaf hleaf _
  cases v with
  | null | bool b | int n | float bits | str s => exact absurd trivial hleaf
  | arr values =>
    rw [depth] at hv
    have harr : @Settled F A pricing tables (d + 1 + 4) (.arr values) := by
      intro n hn
      obtain ⟨m, rfl⟩ : ∃ m, n = m + 1 := ⟨n - 1, by omega⟩
      refine congrArg arr (map_congr_left (fun x hx => ?_))
      have hdepth := depth_le_depthItems hx
      exact (ih x (by omega)).1.eq (by omega) (by omega)
    exact ⟨harr, fun cost => harr⟩
  | obj fields =>
  have hchild : ∀ k x, (k, x) ∈ (obj fields).fields → x.depth ≤ d := by
    intro k x hx
    have := depth_lt_of_mem_fields hx
    omega
  -- The values of the object, with or without a cost set in it.
  have hobj : ∀ w : Json, w.isObj = true →
      (∀ k x, (k, x) ∈ w.fields → x.depth ≤ d ∨ ∃ cost, x = costJson A cost) →
      (∀ x, w.get? "turn" = some x → x.depth ≤ d) →
      (∀ x, w.get? "thread" = some x → x.depth ≤ d) →
      @Settled F A pricing tables (d + 1 + 4) w := by
    intro w hw hflds hturn hthr
    refine settled_obj hw (fun key x hx => ?_)
    rcases mem_fields_priced hx with hx | ⟨key, y, cost, hkey, hy, -, rfl⟩ | ⟨estimate, rfl⟩
    · rcases hflds key x hx with hdepth | ⟨cost, rfl⟩
      · exact (ih x hdepth).1
      · exact (settled_cost cost).mono (by omega)
    · rcases hkey with rfl | rfl
      · exact (ih y (hturn y hy)).2 cost
      · exact (ih y (hthr y hy)).2 cost
    · exact settled_leaf (isLeaf_optionJson (fun x => IsLeaf.of_number (A.number x)) estimate) _
  have hget : ∀ k x, (obj fields).get? k = some x → x.depth ≤ d :=
    fun k x hx => hchild k x (mem_of_lookupField hx)
  refine ⟨hobj _ rfl (fun k x hx => .inl (hchild k x hx)) (hget _) (hget _),
    fun cost => hobj _ rfl (fun k x hx => ?_) (fun x hx => ?_) (fun x hx => ?_)⟩
  · rcases mem_fields_insert hx with rfl | hx
    · exact .inr ⟨cost, rfl⟩
    · exact .inl (hchild k x hx)
  · rw [get?_insert_of_ne _ _ (by decide)] at hx
    exact hget _ x hx
  · rw [get?_insert_of_ne _ _ (by decide)] at hx
    exact hget _ x hx

lemma visit_eq_visitTo {n : Nat} (h : @Settled F A pricing tables n v) :
    visitTo A pricing tables n v = visitPricingFields A pricing tables v := by
  have hself := (@settled F A pricing tables v.depth v le_rfl).1
  unfold visitPricingFields
  rw [← h (max n (v.depth + 4)) (Nat.le_max_left _ _),
    ← hself (max n (v.depth + 4)) (Nat.le_max_right _ _)]

lemma visit_leaf (h : IsLeaf v) : visitPricingFields A pricing tables v = v :=
  visitTo_leaf h _

lemma visit_arr (values : List Json) : visitPricingFields A pricing tables (.arr values) =
    .arr (values.map (visitPricingFields A pricing tables)) := by
  refine congrArg arr (map_congr_left (fun x hx => ?_))
  have hdepth := depth_le_depthItems hx
  have hx := (@settled F A pricing tables (depthItems values) x hdepth).1
  exact (hx.eq (by rw [depth]) le_rfl).trans (visit_eq_visitTo hx)

lemma visit_obj (h : v.isObj = true) : visitPricingFields A pricing tables v =
    (priced A pricing tables v).mapFields (visitPricingFields A pricing tables) := by
  have hself := (@settled F A pricing tables v.depth v le_rfl).1
  rw [← visit_eq_visitTo hself, visitTo_succ_obj h]
  refine mapFields_congr (fun key x hx => visit_eq_visitTo ?_)
  rcases mem_fields_priced hx with hx | ⟨key, y, cost, -, hy, -, rfl⟩ | ⟨estimate, rfl⟩
  · have hdepth := depth_lt_of_mem_fields hx
    exact ((@settled F A pricing tables (v.depth - 1) x (by omega)).1).mono (by omega)
  · have hdepth := depth_lt_of_get? hy
    exact ((@settled F A pricing tables (v.depth - 1) y (by omega)).2 cost).mono (by omega)
  · exact settled_leaf (isLeaf_optionJson (fun x => IsLeaf.of_number (A.number x)) estimate) _

lemma isObj_visit (v : Json) : (visitPricingFields A pricing tables v).isObj = v.isObj := by
  cases v with
  | obj fields => rw [visit_obj rfl, isObj_mapFields, isObj_priced]
  | arr values => rw [visit_arr]; rfl
  | _ => rw [visit_leaf (by trivial)]

lemma get?_visit (v : Json) (k : String) : (visitPricingFields A pricing tables v).get? k =
    ((priced A pricing tables v).get? k).map (visitPricingFields A pricing tables) := by
  cases v with
  | obj fields => rw [visit_obj rfl, get?_mapFields]
  | arr values => rw [visit_arr]; rfl
  | _ => rw [visit_leaf (by trivial)]; rfl

lemma ascending_visit (h : v.Ascending) : (visitPricingFields A pricing tables v).Ascending := by
  cases v with
  | obj fields =>
    rw [visit_obj rfl]
    exact (ascending_priced h).mapFields _
  | arr values => rw [visit_arr]; trivial
  | _ => rw [visit_leaf (by trivial)]; trivial

lemma visit_plain (hobj : v.isObj = true) (hscope : isUsageScope v = false)
    (hfoot : isFootprint v = false)
    (h : ∀ k x, (k, x) ∈ v.fields → visitPricingFields A pricing tables x = x) :
    visitPricingFields A pricing tables v = v := by
  rw [visit_obj hobj, priced_of_plain hscope hfoot]
  cases v with
  | obj fields =>
    refine congrArg obj ((map_congr_left (fun e he => ?_)).trans (map_id fields))
    exact congrArg (Prod.mk e.1) (h e.1 e.2 he)
  | _ => cases hobj

lemma getPath?_visit (path : List String) (v : Json)
    (h : ∀ k ∈ path, k ≠ "turn" ∧ k ≠ "thread" ∧ k ≠ "estimatedInputCostUsd") :
    (visitPricingFields A pricing tables v).getPath? path =
      (v.getPath? path).map (visitPricingFields A pricing tables) := by
  induction path generalizing v with
  | nil => rfl
  | cons k path ih =>
  obtain ⟨⟨hturn, hthr, hestimate⟩, hpath⟩ := forall_mem_cons.mp h
  simp only [getPath?]
  rw [get?_visit, get?_priced_of_ne hturn hthr hestimate]
  cases hk : v.get? k with
  | none => rfl
  | some x => exact ih x hpath

inductive Inside : Json → Json → Prop where
  | self (v : Json) : Inside v v
  | item {values : List Json} {x w : Json} : x ∈ values → Inside x w → Inside (.arr values) w
  | field {fields : List (String × Json)} {k : String} {x w : Json} :
      (k, x) ∈ fields → Inside x w → Inside (.obj fields) w

def NoPrice (v : Json) : Prop :=
  ∀ w, Inside v w →
    (isUsageScope w = true →
      w.getPath? ["turn", "cost"] = some .null ∧ w.getPath? ["thread", "cost"] = some .null) ∧
    (isFootprint w = true → w.get? "estimatedInputCostUsd" = some .null)

lemma noPrice_leaf (h : IsLeaf v) : NoPrice v := by
  intro w hw
  cases hw with
  | self =>
    cases v with
    | obj fields | arr values => cases h
    | _ => exact ⟨fun h => (nomatch h), fun h => (nomatch h)⟩
  | item _ _ | field _ _ => cases h

lemma noPrice_arr {values : List Json} (h : ∀ x ∈ values, NoPrice x) : NoPrice (.arr values) := by
  intro w hw
  cases hw with
  | self => exact ⟨fun h => (nomatch h), fun h => (nomatch h)⟩
  | item hx hin => exact h _ hx w hin

lemma noPrice_obj (hobj : v.isObj = true) (hscope : isUsageScope v = true →
      v.getPath? ["turn", "cost"] = some .null ∧ v.getPath? ["thread", "cost"] = some .null)
    (hfoot : isFootprint v = true → v.get? "estimatedInputCostUsd" = some .null)
    (h : ∀ k x, (k, x) ∈ v.fields → NoPrice x) : NoPrice v := by
  cases v with
  | obj fields =>
    intro w hw
    cases hw with
    | self => exact ⟨hscope, hfoot⟩
    | field hx hin => exact h _ _ hx w hin
  | _ => cases hobj

lemma isUsageScope_of_visit
    (h : isUsageScope (visitPricingFields A pricing tables v) = true) : isUsageScope v = true := by
  have htoks : ∀ x : Json, ((visitPricingFields A pricing tables x).get? "tokens").isSome =
      (x.get? "tokens").isSome := by
    intro x
    rw [get?_visit, get?_priced_of_ne (by decide) (by decide) (by decide), isSome_map]
  by_cases hscope : isUsageScope v = true
  · exact hscope
  unfold isUsageScope at h ⊢
  rw [get?_visit, get?_visit, get?_priced_turn, if_neg hscope, get?_priced_thread,
    if_neg hscope] at h
  cases hturn : v.get? "turn" with
  | none =>
    rw [hturn] at h
    cases h
  | some turn =>
  cases hthr : v.get? "thread" with
  | none =>
    rw [hturn, hthr, map_none, bind_none, isSome_none, Bool.and_false] at h
    cases h
  | some thread =>
    rw [hturn, hthr, map_some, map_some, bind_some, bind_some, htoks, htoks] at h
    exact h

lemma asStr?_visit (x : Json) : (visitPricingFields A pricing tables x).asStr? = x.asStr? := by
  cases x with
  | obj fields =>
    have hobj := @isObj_visit F A pricing tables (.obj fields)
    cases hv : visitPricingFields A pricing tables (.obj fields) with
    | obj others => rfl
    | _ =>
      rw [hv] at hobj
      cases hobj
  | arr values => rw [visit_arr]; rfl
  | _ => rw [visit_leaf (by trivial)]

lemma isFootprint_visit (v : Json) :
    isFootprint (visitPricingFields A pricing tables v) = isFootprint v := by
  unfold isFootprint
  rw [get?_visit, get?_priced_of_ne (by decide) (by decide) (by decide)]
  cases v.get? "basis" with
  | none => rfl
  | some x => rw [map_some, bind_some, bind_some, asStr?_visit]

end Fields

variable {A}

lemma cost_visit {key : String} {v x : Json} (hx : (x.get? "tokens").isSome = true)
    (hpriced : (priced A none ⟨[]⟩ v).get? key = some (x.insert "cost" .null)) :
    (visitPricingFields A none ⟨[]⟩ v).getPath? [key, "cost"] = some .null := by
  obtain ⟨tokens, htoks⟩ := isSome_iff_exists.mp hx
  simp only [getPath?]
  rw [get?_visit, hpriced, map_some, bind_some, get?_visit,
    get?_priced_of_ne (by decide) (by decide) (by decide),
    get?_insert (isObj_of_get? htoks), if_pos rfl, map_some,
    visit_leaf (by trivial), bind_some]

lemma noPrice_visit_obj {v : Json} (hobj : v.isObj = true)
    (h : ∀ k x, (k, x) ∈ (priced A none ⟨[]⟩ v).fields →
      NoPrice (visitPricingFields A none ⟨[]⟩ x)) : NoPrice (visitPricingFields A none ⟨[]⟩ v) := by
  refine noPrice_obj ((isObj_visit v).trans hobj) (fun hvisited => ?_) (fun hvisited => ?_) ?_
  · have hscope := isUsageScope_of_visit hvisited
    have hparts := hscope
    unfold isUsageScope at hparts
    rw [Bool.and_eq_true] at hparts
    obtain ⟨⟨tokens, hturn⟩, ⟨others, hthr⟩⟩ :=
      hparts.imp isSome_iff_exists.mp isSome_iff_exists.mp
    obtain ⟨turn, hturn, htoks⟩ := bind_eq_some_iff.mp hturn
    obtain ⟨thread, hthr, hoth⟩ := bind_eq_some_iff.mp hthr
    constructor
    · refine cost_visit (x := turn) (by rw [htoks]; rfl) ?_
      rw [get?_priced_turn, if_pos hscope, hturn]
      rfl
    · refine cost_visit (x := thread) (by rw [hoth]; rfl) ?_
      rw [get?_priced_thread, if_pos hscope, hthr]
      rfl
  · rw [isFootprint_visit] at hvisited
    have hfoot : isFootprint (priceScopes A none ⟨[]⟩ v) = true := by
      unfold isFootprint priceScopes at *
      split
      · rw [get?_onField, if_neg (by decide), get?_onField, if_neg (by decide)]
        exact hvisited
      · exact hvisited
    have hscopes : (priceScopes A none ⟨[]⟩ v).isObj = true := by
      unfold priceScopes
      split
      · rw [isObj_onField, isObj_onField, hobj]
      · exact hobj
    rw [get?_visit]
    unfold priced priceFootprint
    rw [if_pos hfoot]
    simp only
    rw [get?_insert hscopes, if_pos rfl, map_some, bind_none, bind_none]
    have hnone : ∀ o : Option Nat, o.bind (fun n =>
        (none : Option F).map (A.usd (UInt64.ofNat n))) = none := by
      intro o
      cases o <;> rfl
    rw [hnone]
    exact congrArg some (visit_leaf (by trivial))
  intro k x hx
  rw [visit_obj hobj] at hx
  cases hpriced : priced A none ⟨[]⟩ v with
  | obj fields =>
    rw [hpriced] at hx h
    obtain ⟨e, he, heq⟩ := mem_map.mp hx
    cases heq
    exact h e.1 e.2 he
  | _ =>
    rw [hpriced] at hx
    cases hx

lemma noPrice_visit (v : Json) : NoPrice (visitPricingFields A none ⟨[]⟩ v) := by
  -- By the depth of the value, also for a scope whose cost was taken out.
  have hdepth : ∀ (d : Nat) (v : Json), v.depth ≤ d → NoPrice (visitPricingFields A none ⟨[]⟩ v) ∧
        NoPrice (visitPricingFields A none ⟨[]⟩ (v.insert "cost" .null)) := by
    intro d
    induction d with
    | zero =>
      intro v hv
      cases v with
      | arr values | obj fields =>
        rw [depth] at hv
        omega
      | _ => exact ⟨noPrice_leaf (by trivial), noPrice_leaf (by trivial)⟩
    | succ d ih =>
    intro v hv
    by_cases hleaf : IsLeaf v
    · have hsame : v.insert "cost" .null = v := by
        cases v with
        | obj fields => cases hleaf
        | _ => rfl
      rw [hsame, visit_leaf hleaf]
      exact ⟨noPrice_leaf hleaf, noPrice_leaf hleaf⟩
    cases v with
    | arr values =>
      rw [depth] at hv
      have harr : NoPrice (visitPricingFields A none ⟨[]⟩ (.arr values)) := by
        rw [visit_arr]
        refine noPrice_arr (fun x hx => ?_)
        obtain ⟨y, hy, rfl⟩ := mem_map.mp hx
        have := depth_le_depthItems hy
        exact (ih y (by omega)).1
      exact ⟨harr, harr⟩
    | obj fields =>
      have hchild : ∀ k x, (k, x) ∈ (obj fields).fields → x.depth ≤ d := by
        intro k x hx
        have := depth_lt_of_mem_fields hx
        omega
      have hobj : ∀ w : Json, w.isObj = true →
          (∀ k x, (k, x) ∈ w.fields → x.depth ≤ d ∨ x = .null) →
          NoPrice (visitPricingFields A none ⟨[]⟩ w) := by
        intro w hw hflds
        have hnull : NoPrice (visitPricingFields A none ⟨[]⟩ .null) := by
          rw [visit_leaf (by trivial)]
          exact noPrice_leaf (by trivial)
        refine noPrice_visit_obj hw (fun k x hx => ?_)
        rcases mem_fields_priced hx with hx | ⟨key, y, cost, -, hy, hcost, rfl⟩ | ⟨estimate, rfl⟩
        · rcases hflds k x hx with hdepth | rfl
          · exact (ih x hdepth).1
          · exact hnull
        · have hnone : cost = none := by rcases hcost with rfl | rfl <;> rfl
          have hmem : (key, y) ∈ w.fields := by
            cases w with
            | obj others => exact mem_of_lookupField hy
            | _ => cases hw
          rw [hnone]
          rcases hflds key y hmem with hdepth | rfl
          · exact (ih y hdepth).2
          · exact hnull
        have hnum := isLeaf_optionJson (fun x => IsLeaf.of_number (A.number x)) estimate
        rw [visit_leaf hnum]
        exact noPrice_leaf hnum
      refine ⟨hobj _ rfl (fun k x hx => .inl (hchild k x hx)), hobj _ rfl (fun k x hx => ?_)⟩
      rcases mem_fields_insert hx with rfl | hx
      · exact .inr rfl
      · exact .inl (hchild k x hx)
    | _ => exact absurd (by trivial) hleaf
  exact (hdepth v.depth v le_rfl).1

end CodeWide.Usage
