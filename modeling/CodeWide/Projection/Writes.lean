import CodeWide.Projection.Operations
import CodeWide.Projection.Reconciled

/-!
# What a patch writes

Every write of a patch is one of a few kinds.
-/

namespace CodeWide.Projection

open Lib Option

variable {t : Thread} {id : String}

variable {turn : Turn}

lemma turnInThread_spec {i : Nat}
    (h : turnInThread t id = some (i, turn)) : t.turns[i]? = some turn ∧ turn.id = id := by
  unfold turnInThread at h
  obtain ⟨k, hk, h⟩ := bind_eq_some_iff.mp h
  obtain ⟨found, hfound, h⟩ := bind_eq_some_iff.mp h
  cases h
  obtain ⟨x, hx, hp⟩ := lastIdx?_getElem? hk
  rw [hx] at hfound
  cases hfound
  exact ⟨hx, of_decide_eq_true hp⟩

lemma turnInThread_eq_none : turnInThread t id = none ↔ ∀ turn ∈ t.turns, turn.id ≠ id := by
  constructor
  · intro h turn hmem heq
    cases hidx : turnIndex t id with
    | none =>
      have hnot := lastIdx?_eq_none.mp hidx turn hmem
      exact of_decide_eq_false hnot heq
    | some i =>
      obtain ⟨x, hx, -⟩ := lastIdx?_getElem? hidx
      simp [turnInThread, hidx, hx] at h
  intro h
  have hidx : turnIndex t id = none :=
    lastIdx?_eq_none.mpr (fun turn hmem => decide_eq_false (h turn hmem))
  simp [turnInThread, hidx]

lemma itemIndex_spec {j : Nat} (h : itemIndex turn id = some j) :
    ∃ item, turn.items[j]? = some item ∧ idOf item = some id := by
  obtain ⟨item, hitem, hp⟩ := lastIdx?_getElem? h
  refine ⟨item, hitem, ?_⟩
  have hid : item.get? "id" = some (.str id) := of_decide_eq_true hp
  unfold idOf strField
  rw [hid]
  rfl

lemma itemId_of_idOf {item : Json} (h : idOf item = some id) : itemId item = some (.str id) := by
  obtain ⟨v, hv, hs⟩ := bind_eq_some_iff.mp h
  unfold itemId
  rw [hv]
  cases v <;> simp only [Json.asStr?, reduceCtorEq, some.injEq] at hs
  rw [hs]

lemma itemIndex_eq_none (h : itemIndex turn id = none) :
    ∀ item ∈ turn.items, idOf item ≠ some id := by
  intro item hmem hid
  have hnot := lastIdx?_eq_none.mp h item hmem
  exact of_decide_eq_false hnot (itemId_of_idOf hid)

lemma itemInTurn_spec {turnId id : Option String} {place : ItemPlace}
    (h : itemInTurn t turnId id = some place) :
    ∃ T X turn, turnId = some T ∧ id = some X ∧ turnInThread t T = some (place.turn, turn) ∧
      itemIndex turn X = some place.item ∧ turn.items[place.item]? = some place.value := by
  unfold itemInTurn at h
  obtain ⟨T, hT, h⟩ := bind_eq_some_iff.mp h
  obtain ⟨⟨i, turn⟩, hturn, h⟩ := bind_eq_some_iff.mp h
  obtain ⟨X, hX, h⟩ := bind_eq_some_iff.mp h
  obtain ⟨j, hj, h⟩ := bind_eq_some_iff.mp h
  obtain ⟨value, hvalue, h⟩ := bind_eq_some_iff.mp h
  cases h
  exact ⟨T, X, turn, hT, hX, hturn, hj, hvalue⟩

lemma typedItem_spec {turnId id : Option String} {type : String}
    {place : ItemPlace} (h : typedItem t turnId id type = some place) :
    itemInTurn t turnId id = some place := by
  unfold typedItem at h
  exact (filter_eq_some_iff.mp h).1

def ThreadProjectionPatch.addresses (p : ThreadProjectionPatch) (id : String) : Prop :=
  p.turnId = some id ∨ p.payloadTurnId = some id

instance (p : ThreadProjectionPatch) (id : String) : Decidable (p.addresses id) :=
  inferInstanceAs (Decidable (_ ∨ _))

/-- New thread settings that name a model: turns in progress without execution take them. -/
def ThreadProjectionPatch.seeds (p : ThreadProjectionPatch) : Bool :=
  decide (p.kind = .threadSettings) &&
    (settingsOf (p.operation.get? "threadSettings")).any (fun s => decide (s.model ≠ ""))

def withExecution (fields : Fields) (execution : Json) : Fields :=
  fields.insert "codewide" ((metadataOf fields).insert "execution" execution)

/-- Writes that keep the items of every turn, their ids and types, but for a placeholder. -/
inductive Touch (p : ThreadProjectionPatch) (t : Thread) : Write → Prop
  | thread (fields : Fields) : Touch p t (.thread fields)
  | metadata {id : String} {i : Nat} {turn : Turn} (fields : Fields)
      (hturn : turnInThread t id = some (i, turn)) (haddr : p.addresses id) :
      Touch p t (.turn i fields)
  | snapshot {i k : Nat} {bearer turn : Turn} (execution : Json) (hseeds : p.seeds = true)
      (hbearer : t.turns[k]? = some bearer) (hlacks : bearer.lacksExecution = true)
      (hturn : turnInThread t bearer.id = some (i, turn)) :
      Touch p t (.turn i (withExecution turn.fields execution))
  | item {place : ItemPlace} (value : Json)
      (hplace : itemInTurn t p.turnId p.itemId = some place) (hsig : sig value = sig place.value) :
      Touch p t (.item place.turn place.item value)
  | removeItem {id : String} {i j : Nat} {turn : Turn} {old : Json} (haddr : p.turnId = some id)
      (hturn : turnInThread t id = some (i, turn)) (hold : turn.items[j]? = some old)
      (hid : idOf old = some (placeholderId id)) : Touch p t (.removeItem i j)

abbrev Touches (p : ThreadProjectionPatch) (t : Thread) (ws : List Write) : Prop :=
  Always Thread.write (Touch p) t ws

lemma touches_nil (p : ThreadProjectionPatch) (t : Thread) : Touches p t [] := trivial

variable {p : ThreadProjectionPatch}

lemma touches_single {w : Write} (h : Touch p t w) : Touches p t [w] := ⟨h, trivial⟩

lemma touches_append {l m : List Write}
    (hl : Touches p t l) (hm : Touches p (t.run l) m) : Touches p t (l ++ m) :=
  always_append.mpr ⟨hl, hm⟩

variable {turnId : Option String}

section

variable (haddr : ∀ id, turnId = some id → p.addresses id)
include haddr

lemma touches_editMetadata (edit : Json → Json) (t : Thread) :
    Touches p t (editMetadata turnId edit t) := by
  unfold editMetadata
  split
  · rename_i i turn h
    obtain ⟨id, hid, hturn⟩ := bind_eq_some_iff.mp h
    exact touches_single (.metadata _ hturn (haddr id hid))
  · exact touches_nil p t

lemma touches_snapshotTurnExecution (t : Thread) :
    Touches p t (snapshotTurnExecution turnId t) := by
  unfold snapshotTurnExecution
  split
  · exact touches_nil p t
  · exact touches_editMetadata haddr _ t

lemma touches_updateReroutedModel (toModel toModelLabel : Option Json)
    (t : Thread) : Touches p t (updateReroutedModel turnId toModel toModelLabel t) := by
  unfold updateReroutedModel
  split
  · exact touches_nil p t
  · exact touches_editMetadata haddr _ t

lemma touches_updateTurnUsage (usage : Option Json) (t : Thread) :
    Touches p t (updateTurnUsage turnId usage t) := by
  unfold updateTurnUsage
  split
  · exact touches_editMetadata haddr _ t
  · exact touches_nil p t

lemma touches_updateTurnDiff (diff : Option Json) (t : Thread) :
    Touches p t (updateTurnDiff turnId diff t) := by
  unfold updateTurnDiff
  split
  · exact touches_editMetadata haddr _ t
  · exact touches_nil p t

lemma touches_updateTurnPlan (explanation plan : Option Json)
    (t : Thread) : Touches p t (updateTurnPlan turnId explanation plan t) := by
  unfold updateTurnPlan
  split
  · exact touches_editMetadata haddr _ t
  · exact touches_nil p t

end

lemma touches_removeMatchingAgentPlaceholder
    (haddr : p.turnId = some id) (canonicalItemId : String) (t : Thread) :
    Touches p t (removeMatchingAgentPlaceholder id canonicalItemId t) := by
  unfold removeMatchingAgentPlaceholder
  split
  · exact touches_nil p t
  rename_i i turn hturn
  split
  · exact touches_nil p t
  split
  · exact touches_nil p t
  split
  · exact touches_nil p t
  split
  · exact touches_nil p t
  rename_i j hj
  obtain ⟨hlt, hp, -⟩ := List.findIdx?_eq_some_iff_getElem.mp hj
  simp only [Bool.and_eq_true, decide_eq_true_eq] at hp
  refine touches_single (.removeItem haddr hturn (List.getElem?_eq_getElem hlt) ?_)
  obtain ⟨⟨-, hid⟩, -⟩ := hp
  unfold itemId at hid
  unfold idOf strField
  rw [hid]
  rfl

lemma sig_textAppended (item : Json) (delta : String) (kind : TextKind) :
    sig (textAppended item delta kind) = sig item := by
  cases kind <;> exact sig_insert item _ (by decide) (by decide)

lemma touches_appendText (p : ThreadProjectionPatch) (delta : Option Json) (kind : TextKind)
    (t : Thread) : Touches p t (appendText p.turnId p.itemId delta kind t).1 := by
  unfold appendText
  split
  · rename_i delta place hdelta hplace
    have happ : ∀ k, Touch p t (.item place.turn place.item (textAppended place.value delta k)) :=
      fun k => .item _ (typedItem_spec hplace) (sig_textAppended place.value delta k)
    split
    · rename_i turnId id hturn hid
      exact touches_append (touches_single (happ _))
        (touches_removeMatchingAgentPlaceholder hturn id _)
    · exact touches_single (happ _)
  · exact touches_nil p t

lemma touches_itemTextDelta (p : ThreadProjectionPatch) (kind : TextKind) (t : Thread) :
    Touches p t (itemTextDelta p.turnId p.itemId p.operation kind t).1 := by
  unfold itemTextDelta
  split
  · rename_i place delta hplace hdelta
    exact touches_single (.item _ hplace (sig_insert place.value _ (by decide) (by decide)))
  · exact touches_appendText p _ _ t

lemma touches_updateFileChanges (p : ThreadProjectionPatch) (changes : Option Json)
    (t : Thread) : Touches p t (updateFileChanges p.turnId p.itemId changes t) := by
  unfold updateFileChanges
  split
  · rename_i place changes hplace hchanges
    exact touches_single
      (.item _ (typedItem_spec hplace) (sig_insert place.value _ (by decide) (by decide)))
  · exact touches_nil p t

lemma touches_appendMcpProgress (p : ThreadProjectionPatch) (message : Option Json)
    (t : Thread) : Touches p t (appendMcpProgress p.turnId p.itemId message t) := by
  unfold appendMcpProgress
  split
  · rename_i message place hmessage hplace
    exact touches_single
      (.item _ (typedItem_spec hplace) (sig_insert place.value _ (by decide) (by decide)))
  · exact touches_nil p t

variable {field : String}

lemma reasoningField_ne (h : p.reasoningField = some field) : field ≠ "id" ∧ field ≠ "type" := by
  obtain ⟨-, hp⟩ := filter_eq_some_iff.mp h
  simp only [Bool.or_eq_true, decide_eq_true_eq] at hp
  rcases hp with rfl | rfl
  · exact ⟨by decide, by decide⟩
  · exact ⟨by decide, by decide⟩

lemma touches_addReasoningPart
    (hfield : p.reasoningField = some field) (index : Option Json) (t : Thread) :
    Touches p t (addReasoningPart p.turnId p.itemId index field t) := by
  obtain ⟨hid, htype⟩ := reasoningField_ne hfield
  unfold addReasoningPart
  split
  · rename_i place position hplace hposition
    exact touches_single (.item _ (typedItem_spec hplace) (sig_insert place.value _ hid htype))
  · exact touches_nil p t

lemma touches_appendReasoning
    (hfield : p.reasoningField = some field) (index delta : Option Json) (t : Thread) :
    Touches p t (appendReasoning p.turnId p.itemId index delta field t) := by
  obtain ⟨hid, htype⟩ := reasoningField_ne hfield
  unfold appendReasoning
  split
  · refine touches_append (touches_addReasoningPart hfield index t) ?_
    unfold appendReasoningText
    split
    · rename_i place hplace
      exact touches_single (.item _ hplace (sig_insert place.value _ hid htype))
    · exact touches_nil p _
  · exact touches_nil p t

lemma touches_footprintWrites (p : ThreadProjectionPatch) (t : Thread) :
    Touches p t (footprintWrites p t) := by
  unfold footprintWrites
  split
  · rename_i footprint place hfootprint hplace
    exact touches_single (.item _ hplace (sig_insert place.value _ (by decide) (by decide)))
  · exact touches_nil p t

lemma metricsTurnId_addresses (h : p.metricsTurnId = some id) : p.addresses id := by
  unfold ThreadProjectionPatch.metricsTurnId at h
  split at h
  · rename_i turnId hpres
    left
    have hfield := (filter_eq_some_iff.mp hpres).1
    unfold ThreadProjectionPatch.turnId strField
    rw [hfield]
    exact h
  · exact .inr h

lemma touches_metricsWrites (p : ThreadProjectionPatch) (t : Thread) :
    Touches p t (metricsWrites p t).1 := by
  unfold metricsWrites
  split
  · exact touches_nil p t
  rename_i turnId hturn
  have haddr : ∀ id, some turnId = some id → p.addresses id := by
    intro id hid
    cases hid
    exact metricsTurnId_addresses hturn
  split
  · rename_i metrics hmetrics
    exact touches_editMetadata haddr (fun x => x.insert "activityMetrics" metrics) t
  · split
    · exact touches_editMetadata haddr (fun x => x.erase "activityMetrics") t
    · exact touches_nil p t

lemma get?_seededFields_model (fields : Fields) (s : ExecutionSettings) :
    (seededFields fields s).get? "model" = some (.str s.model) := by
  unfold seededFields
  simp only [Fields.get?_insert]
  cases s.serviceTier with
  | none | some tier => simp [Fields.get?_insert]

lemma projectedThreadExecutionSettings_isSome {model : String}
    (h : t.fields.get? "model" = some (.str model)) :
    (projectedThreadExecutionSettings t).isSome = true ↔ model ≠ "" := by
  unfold projectedThreadExecutionSettings
  simp only [h, isSome_some, if_true, bind_some, Json.asStr?]
  split
  · rename_i hempty
    simp [hempty]
  · rename_i hname
    simp [hname]

lemma touches_each {α : Type} {f : α → Reducer}
    (h : ∀ x t, Touches p t (f x t)) (l : List α) (t : Thread) :
    Touches p t (Reducer.each f l t) := by
  induction l generalizing t with
  | nil => exact touches_nil p t
  | cons x rest ih => exact touches_append (h x t) (ih _)

lemma touches_snapshotAt (hseeds : p.seeds = true) (k : Nat)
    (t : Thread) : Touches p t (snapshotAt k t) := by
  unfold snapshotAt
  split
  · rename_i bearer hbearer
    split
    · rename_i hlacks
      unfold snapshotTurnExecution
      split
      · exact touches_nil p t
      unfold editMetadata
      split
      · rename_i i turn hturn
        exact touches_single (.snapshot _ hseeds hbearer hlacks hturn)
      · exact touches_nil p t
    · exact touches_nil p t
  · exact touches_nil p t

lemma snapshotTurns_of_empty (h : t.fields.get? "model" = some (.str "")) :
    snapshotTurns t = [] := by
  have hnone : projectedThreadExecutionSettings t = none := by
    have hiff := projectedThreadExecutionSettings_isSome h
    rw [← not_isSome_iff_eq_none, hiff]
    exact fun hne => hne rfl
  have hat : ∀ k, snapshotAt k t = [] := by
    intro k
    unfold snapshotAt snapshotTurnExecution
    rw [hnone]
    split
    · split <;> rfl
    · rfl
  have heach : ∀ l, Reducer.each snapshotAt l t = [] := by
    intro l
    induction l with
    | nil => rfl
    | cons k rest ih =>
    unfold Reducer.each Reducer.andThen
    rw [hat k]
    exact ih
  exact heach _

lemma touches_updateThreadSettings (hkind : p.kind = .threadSettings)
    (t : Thread) : Touches p t (updateThreadSettings (p.operation.get? "threadSettings") t) := by
  unfold updateThreadSettings
  split
  · rename_i s hs
    refine touches_append (touches_single (.thread _)) ?_
    by_cases hmodel : s.model = ""
    · have hempty : (t.run [.thread (seededFields t.fields s)]).fields.get? "model" =
          some (.str "") := by
        rw [← hmodel]
        exact get?_seededFields_model t.fields s
      rw [snapshotTurns_of_empty hempty]
      exact touches_nil p _
    have hseeds : p.seeds = true := by
      unfold ThreadProjectionPatch.seeds
      rw [hkind, hs]
      simp [hmodel]
    exact touches_each (touches_snapshotAt hseeds) _ _
  · exact touches_nil p t

def ThreadProjectionPatch.Upserts (p : ThreadProjectionPatch) (id : String) (item : Json) : Prop :=
  p.kind = .itemUpsert ∧ idOf item = some id ∧
    ∃ payload, asObject (p.operation.get? "item") = some payload ∧ sig item = sig payload

def ThreadProjectionPatch.Carries (p : ThreadProjectionPatch) (source : Fields) (id : String) :
    Prop :=
  (p.kind = .turnStarted ∨ p.kind = .turnCompleted) ∧
    payloadFields (p.operation.get? "turn") = some source ∧ p.payloadTurnId = some id

variable (stringify : Json → String)

inductive Put (p : ThreadProjectionPatch) (t : Thread) : Write → Prop
  | putTurn {source : Fields} {id : String} {i : Nat} {cached : Turn}
      (hcarries : p.Carries source id) (hturn : turnInThread t id = some (i, cached)) :
      Put p t (.putTurn i
        (mergeTurnMetadata stringify (incomingTurn source id (some cached)) cached))
  | pushTurn {source : Fields} {id : String} (hcarries : p.Carries source id)
      (hturn : turnInThread t id = none) : Put p t (.pushTurn (incomingTurn source id none))
  | putItem {T X : String} {i j : Nat} {turn : Turn} {item : Json} (hupserts : p.Upserts X item)
      (haddr : p.turnId = some T) (hturn : turnInThread t T = some (i, turn))
      (hindex : itemIndex turn X = some j) : Put p t (.putItem i j item)
  | putUser {T X : String} {i j : Nat} {turn : Turn} {item old : Json}
      (hupserts : p.Upserts X item) (haddr : p.turnId = some T)
      (hturn : turnInThread t T = some (i, turn)) (hindex : itemIndex turn X = none)
      (hold : turn.items[j]? = some old) (huser : itemType old = some "userMessage")
      (hnew : itemType item = some "userMessage") : Put p t (.putItem i j item)
  | pushItem {T X : String} {i : Nat} {turn : Turn} {item : Json} (hupserts : p.Upserts X item)
      (haddr : p.turnId = some T) (hturn : turnInThread t T = some (i, turn))
      (hindex : itemIndex turn X = none) : Put p t (.pushItem i item)

def PutFirst (p : ThreadProjectionPatch) (t : Thread) (ws : List Write) : Prop :=
  ∃ w rest, ws = w :: rest ∧ Put stringify p t w ∧ Touches p (t.write w) rest

variable {p : ThreadProjectionPatch} {t : Thread}

lemma PutFirst.append {stringify : Json → String}
    {ws more : List Write} (h : PutFirst stringify p t ws) (hmore : Touches p (t.run ws) more) :
    PutFirst stringify p t (ws ++ more) := by
  obtain ⟨w, rest, rfl, hput, hrest⟩ := h
  exact ⟨w, rest ++ more, rfl, hput, touches_append hrest hmore⟩

lemma upsertTurn_cases (hkind : p.kind = .turnStarted ∨ p.kind = .turnCompleted) (t : Thread) :
    (upsertTurn stringify (p.operation.get? "turn") t = [] ∧ p.payloadTurnId = none) ∨
      PutFirst stringify p t (upsertTurn stringify (p.operation.get? "turn") t) := by
  unfold upsertTurn
  split
  · rename_i source id hsrc hid
    right
    split
    · rename_i hturn
      exact ⟨_, [], rfl, .pushTurn ⟨hkind, hsrc, hid⟩ hturn, trivial⟩
    · rename_i i cached hturn
      exact ⟨_, [], rfl, .putTurn ⟨hkind, hsrc, hid⟩ hturn, trivial⟩
  rename_i hnot
  refine .inl ⟨rfl, ?_⟩
  cases hid : p.payloadTurnId with
  | none => rfl
  | some id =>
  obtain ⟨v, hv, -⟩ := bind_eq_some_iff.mp hid
  obtain ⟨hget, hobj⟩ := filter_eq_some_iff.mp hv
  cases v with
  | obj fields => exact (hnot fields id (by rw [hget]; rfl) hid).elim
  | _ => cases hobj

lemma sig_withProjectedPreTurn (item : Json) : sig (withProjectedPreTurn item) = sig item :=
  sig_insert item _ (by decide) (by decide)

lemma itemWithLifecycleMetadata_spec {turnId : Option String}
    {value phase : Option Json} {item : Json}
    (h : itemWithLifecycleMetadata t turnId value phase = some item) :
    ∃ payload, asObject value = some payload ∧ sig item = sig payload := by
  obtain ⟨payload, hpay, rfl⟩ := map_eq_some_iff.mp h
  refine ⟨payload, hpay, ?_⟩
  have hphase : sig (if phase = some (.str "started") ∨ phase = some (.str "completed") then
      payload.insert "codewideLifecyclePhase" (orNull phase) else payload) = sig payload :=
    sig_ite (sig_insert payload _ (by decide) (by decide)) rfl
  exact sig_ite ((sig_withProjectedPreTurn _).trans hphase) hphase

lemma sig_preserveProjectedUserClientId (incoming cached : Json) :
    sig (preserveProjectedUserClientId incoming cached) = sig incoming := by
  unfold preserveProjectedUserClientId
  exact sig_ite rfl (sig_ite rfl (sig_withClientId incoming _))

lemma upsertItem_cases (hkind : p.kind = .itemUpsert) (t : Thread) :
    let value := itemWithLifecycleMetadata t p.turnId (p.operation.get? "item")
      (p.operation.get? "itemPhase")
    (upsertItem stringify p.turnId value t = [] ∧
      ∀ T, p.turnId = some T → (turnInThread t T).isSome = true →
        (asObject (p.operation.get? "item")).bind idOf = none) ∨
      PutFirst stringify p t (upsertItem stringify p.turnId value t) := by
  intro value
  unfold upsertItem
  split
  · rename_i T item X haddr hitem hid
    have hvalue : value = some item := (filter_eq_some_iff.mp hitem).1
    have hidof : idOf item = some X := by
      unfold payloadId at hid
      rw [hitem] at hid
      exact hid
    obtain ⟨payload, hpay, hsig⟩ := itemWithLifecycleMetadata_spec hvalue
    have hupserts : p.Upserts X item := ⟨hkind, hidof, payload, hpay, hsig⟩
    split
    · rename_i hturn
      refine .inl ⟨rfl, fun T' hT' hsome => ?_⟩
      rw [haddr] at hT'
      cases hT'
      rw [hturn] at hsome
      cases hsome
    rename_i i turn hturn
    right
    split
    · rename_i j hindex
      exact PutFirst.append ⟨_, [], rfl, .putItem hupserts haddr hturn hindex, trivial⟩
        (touches_removeMatchingAgentPlaceholder haddr X _)
    rename_i hindex
    split
    · rename_i j hplace
      obtain ⟨hnew, hidx⟩ : itemType item = some "userMessage" ∧
          turn.items.findIdx? (fun candidate =>
            decide (itemType candidate = some "userMessage") &&
              sameUserBoundary stringify candidate item) = some j := by
        unfold userPlaceholder at hplace
        split at hplace
        · rename_i htype
          exact ⟨htype, hplace⟩
        · cases hplace
      obtain ⟨hlt, hp, -⟩ := List.findIdx?_eq_some_iff_getElem.mp hidx
      simp only [Bool.and_eq_true, decide_eq_true_eq] at hp
      have hold := List.getElem?_eq_getElem hlt
      have hsig' := sig_preserveProjectedUserClientId item (turn.items.getD j .null)
      refine ⟨_, [], rfl, .putUser ⟨hkind, ?_, payload, hpay, hsig'.trans hsig⟩ haddr
        hturn hindex hold hp.1 ?_, trivial⟩
      · rw [idOf_eq_of_sig hsig', hidof]
      · rw [itemType_eq_of_sig hsig', hnew]
    · exact PutFirst.append ⟨_, [], rfl, .pushItem hupserts haddr hturn hindex, trivial⟩
        (touches_removeMatchingAgentPlaceholder haddr X _)
  rename_i hnot
  refine .inl ⟨rfl, fun T hT _ => ?_⟩
  cases hitem : asObject (p.operation.get? "item") with
  | none => rfl
  | some payload =>
  cases hid : idOf payload with
  | none => exact hid
  | some X =>
  exfalso
  obtain ⟨item, hmap⟩ : ∃ item, value = some item := by
    unfold value itemWithLifecycleMetadata
    rw [hitem]
    exact ⟨_, rfl⟩
  obtain ⟨payload', hpay', hsig⟩ := itemWithLifecycleMetadata_spec hmap
  rw [hitem] at hpay'
  cases hpay'
  have hidof := (idOf_eq_of_sig hsig).trans hid
  have hobj : asObject value = some item := by
    rw [hmap]
    refine filter_eq_some_iff.mpr ⟨rfl, ?_⟩
    obtain ⟨v, hv, -⟩ := bind_eq_some_iff.mp hidof
    exact Json.isObj_of_get? hv
  refine hnot T item X hT hobj ?_
  unfold payloadId
  rw [hobj]
  exact hidof

lemma operationWrites_spec (t : Thread) (p : ThreadProjectionPatch) :
    Touches p t (operationWrites stringify t p).1 ∨
      PutFirst stringify p t (operationWrites stringify t p).1 := by
  have hturn : ∀ id, p.turnId = some id → p.addresses id := fun id h => .inl h
  have hpay : ∀ id, p.payloadTurnId = some id → p.addresses id := fun id h => .inr h
  unfold operationWrites
  simp only
  split
  · left
    split
    · unfold threadStatus
      simp only
      split
      · exact touches_single (.thread _)
      · exact touches_single (.thread _)
    · exact touches_nil p t
  · exact .inl (touches_single (.thread _))
  · rename_i hkind
    exact .inl (touches_updateThreadSettings hkind t)
  · rename_i hkind
    rcases upsertTurn_cases stringify (.inl hkind) t with ⟨hnil, -⟩ | hput
    · refine .inl (touches_append ?_ (touches_snapshotTurnExecution hpay _))
      rw [hnil]
      exact touches_nil p t
    · exact .inr (hput.append (touches_snapshotTurnExecution hpay _))
  · rename_i hkind
    rcases upsertTurn_cases stringify (.inr hkind) t with ⟨hnil, -⟩ | hput
    · refine .inl (touches_append ?_ (touches_updateTurnUsage hpay _ _))
      rw [hnil]
      exact touches_nil p t
    · exact .inr (hput.append (touches_updateTurnUsage hpay _ _))
  · exact .inl (touches_updateReroutedModel hturn _ _ t)
  · rename_i hkind
    rcases upsertItem_cases stringify hkind t with ⟨hnil, -⟩ | hput
    · rw [hnil]
      exact .inl (touches_nil p t)
    · exact .inr hput
  · left
    split
    · exact touches_itemTextDelta p _ t
    · exact touches_nil p t
  · exact .inl (touches_updateFileChanges p _ t)
  · exact .inl (touches_appendMcpProgress p _ t)
  · exact .inl (touches_updateTurnUsage hturn _ t)
  · exact .inl (touches_updateTurnDiff hturn _ t)
  · exact .inl (touches_updateTurnPlan hturn _ _ t)
  · left
    split
    · rename_i hfield
      exact touches_addReasoningPart hfield _ t
    · exact touches_nil p t
  · left
    split
    · rename_i hfield
      exact touches_appendReasoning hfield _ _ t
    · exact touches_nil p t
  · exact .inl (touches_nil p t)

lemma patchWrites_split (h : p.threadId = t.id) :
    ∃ more, (patchWrites stringify t p).1 = (operationWrites stringify t p).1 ++ more ∧
      Touches p (t.run (operationWrites stringify t p).1) more := by
  unfold patchWrites
  rw [if_neg (not_not.mpr h)]
  refine ⟨_, List.append_assoc _ _ _, ?_⟩
  exact touches_append (touches_footprintWrites p _) (touches_metricsWrites p _)

lemma patchWrites_spec (t : Thread) (p : ThreadProjectionPatch) :
    Touches p t (patchWrites stringify t p).1 ∨
      PutFirst stringify p t (patchWrites stringify t p).1 := by
  by_cases hthr : p.threadId = t.id
  · obtain ⟨more, hmore, htouches⟩ := patchWrites_split stringify hthr
    rw [hmore]
    rcases operationWrites_spec stringify t p with h | h
    · exact .inl (touches_append h htouches)
    · exact .inr (h.append htouches)
  · unfold patchWrites
    rw [if_pos hthr]
    exact .inl (touches_nil p t)

lemma patchWrites_puts_turn (h : p.threadId = t.id)
    (hkind : p.kind = .turnStarted ∨ p.kind = .turnCompleted) {id : String}
    (hid : p.payloadTurnId = some id) : PutFirst stringify p t (patchWrites stringify t p).1 := by
  obtain ⟨more, hmore, htouches⟩ := patchWrites_split stringify h
  rw [hmore]
  refine PutFirst.append ?_ htouches
  have hpay : ∀ id, p.payloadTurnId = some id → p.addresses id := fun id h => .inr h
  rcases upsertTurn_cases stringify hkind t with ⟨-, hnone⟩ | hput
  · rw [hid] at hnone
    cases hnone
  rcases hkind with hk | hk
  · simp only [operationWrites, hk]
    exact hput.append (touches_snapshotTurnExecution hpay _)
  · simp only [operationWrites, hk]
    exact hput.append (touches_updateTurnUsage hpay _ _)

lemma patchWrites_puts_item (h : p.threadId = t.id)
    (hkind : p.kind = .itemUpsert) {T X : String} {payload : Json} (haddr : p.turnId = some T)
    (hturn : (turnInThread t T).isSome = true)
    (hpay : asObject (p.operation.get? "item") = some payload) (hid : idOf payload = some X) :
    PutFirst stringify p t (patchWrites stringify t p).1 := by
  obtain ⟨more, hmore, htouches⟩ := patchWrites_split stringify h
  rw [hmore]
  refine PutFirst.append ?_ htouches
  simp only [operationWrites, hkind]
  rcases upsertItem_cases stringify hkind t with ⟨-, hnone⟩ | hput
  · have hnot := hnone T haddr hturn
    rw [hpay] at hnot
    exact nomatch hid.symm.trans hnot
  · exact hput

end CodeWide.Projection
