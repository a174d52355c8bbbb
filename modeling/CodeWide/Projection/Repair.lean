import CodeWide.Projection.Writes

/-!
# Detecting a batch that needs a repair

The checker follows a batch with a map of turn ids to the types of their items.
-/

namespace CodeWide.Projection

open Lib List Table Option

/-! ## The checker -/

abbrev TypeMap := Table String (Table String (Option String))

def addCachedType (types : Table String (Option String)) (item : Json) :
    Table String (Option String) :=
  match idOf item with
  | some id => types.insert id (itemType item)
  | none => types

/-- `new Map(items.map(item => [item.id, item.type]))` on the string ids. -/
def cachedTypes (items : List Json) : Table String (Option String) :=
  items.foldl addCachedType ∅

def addPayloadType (types : Table String (Option String)) (item : Json) :
    Table String (Option String) :=
  match idOf item, itemType item with
  | some id, some type => types.insert id (some type)
  | _, _ => types

def payloadTypes (items : List Json) : Table String (Option String) :=
  items.foldl addPayloadType ∅

def initialTypes (t : Thread) : TypeMap :=
  t.turns.foldl (fun m turn => m.insert turn.id (cachedTypes turn.items)) ∅

def expectedProjectionItemType (p : ThreadProjectionPatch) : Option String :=
  match p.kind with
  | .itemTextDelta => some ((strField p.operation "itemType").getD "")
  | .fileChanges => some "fileChange"
  | .mcpProgress => some "mcpToolCall"
  | .reasoningPart => some "reasoning"
  | .reasoningDelta => some "reasoning"
  | _ => none

def isTurnScoped (p : ThreadProjectionPatch) : Bool :=
  decide (p.kind = .modelRerouted) || decide (p.kind = .tokenUsage) ||
    decide (p.kind = .turnDiff) || decide (p.kind = .turnPlan)

def payloadItems (p : ThreadProjectionPatch) : Option (List Json) :=
  (asObject (p.operation.get? "turn")).bind (fun turn => (turn.get? "items").bind Json.asArr?)

def checkAddressed (m : TypeMap) (p : ThreadProjectionPatch) : Bool :=
  match expectedProjectionItemType p with
  | some expected =>
    match p.turnId, p.itemId with
    | some turnId, some itemId =>
      decide ((m.get? turnId).bind (·.get? itemId) = some (some expected))
    | _, _ => false
  | none => if isTurnScoped p then p.turnId.any m.contains else true

def checkPatch (m : TypeMap) (p : ThreadProjectionPatch) : Option TypeMap :=
  match p.kind with
  | .turnCompleted =>
    match p.payloadTurnId, payloadItems p with
    | some id, some items =>
      if (asObject (p.operation.get? "turn")).bind (·.get? "itemsView") = some (.str "full") then
        some (m.insert id (payloadTypes items))
      else none
    | _, _ => none
  | .turnStarted =>
    match p.payloadTurnId with
    | some id => some (m.insert id (payloadTypes ((payloadItems p).getD [])))
    | none => none
  | .itemUpsert =>
    match p.turnId, asObject (p.operation.get? "item") with
    | some turnId, some item =>
      match m.get? turnId, idOf item, itemType item with
      | some types, some id, some type => some (m.insert turnId (types.insert id (some type)))
      | _, _, _ => none
    | _, _ => none
  | _ => if checkAddressed m p then some m else none

/-- The checker's map after a batch; nothing when it asks for a repair. -/
def checkedTypes (threadId : String) (m : TypeMap) : List ThreadProjectionPatch → Option TypeMap
  | [] => some m
  | p :: rest =>
    if p.threadId ≠ threadId then checkedTypes threadId m rest
    else
      match checkPatch m p with
      | some m' => checkedTypes threadId m' rest
      | none => none

def threadProjectionNeedsAuthoritativeRepair (t : Thread) (ps : List ThreadProjectionPatch) :
    Bool :=
  (checkedTypes t.id (initialTypes t) ps).isNone

/-! ## What a turn has -/

def Has (turn : Turn) (id type : String) : Prop :=
  ∃ item ∈ turn.items, idOf item = some id ∧ itemType item = some type

variable {id type : String} {turn next : Turn}

lemma has_of_sigs (h : next.items.map sig = turn.items.map sig)
    (hhas : Has turn id type) : Has next id type := by
  obtain ⟨item, hitem, hid, htype⟩ := hhas
  have hmem : sig item ∈ next.items.map sig := by
    rw [h]
    exact mem_map_of_mem hitem
  obtain ⟨kept, hkept, hsig⟩ := mem_map.mp hmem
  exact ⟨kept, hkept, (idOf_eq_of_sig hsig).trans hid, (itemType_eq_of_sig hsig).trans htype⟩

structure KeptTurn (turn next : Turn) : Prop where
  id : next.id = turn.id
  unique : UniqueIds turn.items → UniqueIds next.items
  has : ∀ id type, id ≠ placeholderId turn.id → Has turn id type → Has next id type

lemma KeptTurn.refl (turn : Turn) : KeptTurn turn turn := ⟨rfl, fun h => h, fun _ _ _ h => h⟩

lemma KeptTurn.trans {a b c : Turn} (hab : KeptTurn a b) (hbc : KeptTurn b c) : KeptTurn a c := by
  refine ⟨hbc.id.trans hab.id, fun h => hbc.unique (hab.unique h), fun id type hne h => ?_⟩
  refine hbc.has id type ?_ (hab.has id type hne h)
  rw [hab.id]
  exact hne

lemma KeptTurn.of_sigs (hid : next.id = turn.id)
    (h : next.items.map sig = turn.items.map sig) : KeptTurn turn next := by
  refine ⟨hid, fun hu => ?_, fun _ _ _ hhas => has_of_sigs h hhas⟩
  exact uniqueIds_of_perm (List.Perm.of_eq h.symm) hu

/-- Every turn of the thread is kept. -/
def Keeps (t next : Thread) : Prop := List.Forall₂ KeptTurn t.turns next.turns

lemma Keeps.refl (t : Thread) : Keeps t t :=
  forall₂_same.mpr (fun turn _ => KeptTurn.refl turn)

lemma Keeps.trans {a b c : Thread} (hab : Keeps a b) (hbc : Keeps b c) : Keeps a c := by
  have htrans : ∀ {l m n : List Turn}, List.Forall₂ KeptTurn l m → List.Forall₂ KeptTurn m n →
      List.Forall₂ KeptTurn l n := by
    intro l m n hlm
    induction hlm generalizing n with
    | nil =>
      intro h
      cases h
      exact List.Forall₂.nil
    | cons hxy _ ih =>
    intro h
    cases h with
    | cons hyz hrest => exact List.Forall₂.cons (hxy.trans hyz) (ih hrest)
  exact htrans hab hbc

lemma has_eraseIdx {turn : Turn} {j : Nat} {old : Json}
    (hold : turn.items[j]? = some old) (hne : idOf old ≠ some id) (h : Has turn id type) :
    Has { turn with items := turn.items.eraseIdx j } id type := by
  obtain ⟨item, hitem, hid, htype⟩ := h
  refine ⟨item, ?_, hid, htype⟩
  rw [mem_eraseIdx_iff_getElem?]
  obtain ⟨k, hk⟩ := mem_iff_getElem?.mp hitem
  refine ⟨k, ?_, hk⟩
  intro heq
  subst heq
  rw [hold] at hk
  cases hk
  exact hne hid

variable {t : Thread} {p : ThreadProjectionPatch}

lemma keeps_touch {w : Write} (h : Touch p t w) : Keeps t (t.write w) := by
  cases h with
  | thread fields => exact Keeps.refl t
  | metadata fields hturn haddr | snapshot execution hseeds hbearer hlacks hturn =>
    exact forall₂_modify KeptTurn.refl (fun turn _ => KeptTurn.of_sigs rfl rfl)
  | item value hplace hsig =>
    obtain ⟨T, X, turn, -, -, hturn, -, hvalue⟩ := itemInTurn_spec hplace
    refine forall₂_modify KeptTurn.refl (fun found hfound => ?_)
    rw [(turnInThread_spec hturn).1] at hfound
    cases hfound
    exact KeptTurn.of_sigs rfl (map_set_of_eq hvalue hsig)
  | removeItem haddr hturn hold hid =>
  refine forall₂_modify KeptTurn.refl (fun found hfound => ?_)
  obtain ⟨hget, hTid⟩ := turnInThread_spec hturn
  rw [hget] at hfound
  cases hfound
  refine ⟨rfl, fun hu => ((eraseIdx_sublist _ _).filterMap idOf).nodup hu, ?_⟩
  intro X type hne hhas
  refine has_eraseIdx hold ?_ hhas
  rw [hid]
  intro heq
  cases heq
  rw [hTid] at hne
  exact hne rfl

lemma keeps_touches {ws : List Write} (h : Touches p t ws) : Keeps t (t.run ws) :=
  @exec_invariant_of_always Thread Write Thread.write (Keeps t) (Touch p)
    (fun _ _ hkeeps htouch => hkeeps.trans (keeps_touch htouch)) t (Keeps.refl t) ws h

/-! ## Agreement -/

structure Thread.Unique (t : Thread) : Prop where
  turns : (t.turns.map Turn.id).Nodup
  items : ∀ turn ∈ t.turns, UniqueIds turn.items

/-- What the checker's map says of a turn's items holds, but for user messages and the
placeholder. -/
def TypesAgree (types : Table String (Option String)) (turn : Turn) : Prop :=
  ∀ id type, types.get? id = some (some type) → type ≠ "userMessage" →
    id ≠ placeholderId turn.id → Has turn id type

structure Agrees (m : TypeMap) (t : Thread) : Prop where
  unique : t.Unique
  turns : ∀ T types, m.get? T = some types → ∃ turn ∈ t.turns, turn.id = T ∧ TypesAgree types turn

lemma eq_of_id (h : t.Unique) {a b : Turn} (ha : a ∈ t.turns) (hb : b ∈ t.turns)
    (hid : a.id = b.id) : a = b :=
  inj_on_of_nodup_map h.turns ha hb hid

lemma Thread.Unique.of_keeps {t next : Thread} (h : t.Unique) (hkeeps : Keeps t next) :
    next.Unique := by
  refine ⟨?_, ?_⟩
  · have hids : next.turns.map Turn.id = t.turns.map Turn.id := by
      have hmap : ∀ {l m : List Turn}, List.Forall₂ KeptTurn l m →
          m.map Turn.id = l.map Turn.id := by
        intro l m hlm
        induction hlm with
        | nil => rfl
        | cons hxy _ ih => rw [map_cons, map_cons, ih, hxy.id]
      exact hmap hkeeps
    rw [hids]
    exact h.turns
  · intro turn hturn
    obtain ⟨old, hold, hkept⟩ := exists_of_forall₂_right hkeeps hturn
    exact hkept.unique (h.items old hold)

lemma Agrees.of_keeps {m : TypeMap} {t next : Thread} (h : Agrees m t) (hkeeps : Keeps t next) :
    Agrees m next := by
  refine ⟨h.unique.of_keeps hkeeps, fun T types htypes => ?_⟩
  obtain ⟨turn, hturn, hid, hagree⟩ := h.turns T types htypes
  obtain ⟨kept, hkept, hk⟩ := exists_of_forall₂_left hkeeps hturn
  refine ⟨kept, hkept, hk.id.trans hid, fun id type hget huser hne => ?_⟩
  rw [hk.id] at hne
  exact hk.has id type hne (hagree id type hget huser hne)

lemma Agrees.modify {m : TypeMap} (h : Agrees m t) {i : Nat} {turn : Turn}
    (hi : t.turns[i]? = some turn) {f : Turn → Turn} (hid : (f turn).id = turn.id)
    (hunique : UniqueIds (f turn).items) {types : Table String (Option String)}
    (hagree : TypesAgree types (f turn)) :
    Agrees (m.insert turn.id types) { t with turns := t.turns.modify i f } := by
  obtain ⟨before, after, hsplit, hlen⟩ := exists_split hi
  have hturns : t.turns.modify i f = before ++ f turn :: after := by
    rw [hsplit, ← hlen, modify_append_cons]
  have hids : (t.turns.modify i f).map Turn.id = t.turns.map Turn.id := by
    rw [hturns, hsplit]
    simp [hid]
  refine ⟨⟨?_, ?_⟩, ?_⟩
  · show ((t.turns.modify i f).map Turn.id).Nodup
    rw [hids]
    exact h.unique.turns
  · intro x hx
    have hx' : x ∈ before ++ f turn :: after := hturns ▸ hx
    rcases mem_append.mp hx' with hb | ha
    · exact h.unique.items x (by rw [hsplit]; exact mem_append_left _ hb)
    rcases mem_cons.mp ha with rfl | ha
    · exact hunique
    · refine h.unique.items x ?_
      rw [hsplit]
      exact mem_append_right _ (mem_cons_of_mem _ ha)
  intro T types' htypes
  show ∃ x ∈ t.turns.modify i f, x.id = T ∧ TypesAgree types' x
  rw [hturns]
  by_cases hT : T = turn.id
  · subst hT
    rw [get?_insert_self] at htypes
    cases htypes
    exact ⟨f turn, by simp, hid, hagree⟩
  rw [get?_insert_of_ne m types hT] at htypes
  obtain ⟨x, hx, hxid, hxagree⟩ := h.turns T types' htypes
  refine ⟨x, ?_, hxid, hxagree⟩
  rw [hsplit] at hx
  rcases mem_append.mp hx with hb | ha
  · exact mem_append_left _ hb
  · rcases mem_cons.mp ha with rfl | ha
    · exact absurd hxid.symm hT
    · exact mem_append_right _ (mem_cons_of_mem _ ha)

lemma Agrees.push {m : TypeMap} (h : Agrees m t) (turn : Turn)
    (types : Table String (Option String)) (hnew : ∀ x ∈ t.turns, x.id ≠ turn.id)
    (hunique : UniqueIds turn.items) (hagree : TypesAgree types turn) :
    Agrees (m.insert turn.id types) { t with turns := t.turns ++ [turn] } := by
  refine ⟨⟨?_, ?_⟩, ?_⟩
  · show ((t.turns ++ [turn]).map Turn.id).Nodup
    rw [map_append, nodup_append]
    refine ⟨h.unique.turns, by simp, ?_⟩
    intro a ha b hb
    obtain ⟨x, hx, rfl⟩ := mem_map.mp ha
    simp only [map_cons, map_nil, mem_singleton] at hb
    rw [hb]
    exact hnew x hx
  · intro x hx
    rcases mem_concat.mp hx with hx | hx
    · exact h.unique.items x hx
    · rw [hx]
      exact hunique
  intro T types' htypes
  by_cases hT : T = turn.id
  · subst hT
    rw [get?_insert_self] at htypes
    cases htypes
    exact ⟨turn, by simp, rfl, hagree⟩
  · rw [get?_insert_of_ne m types hT] at htypes
    obtain ⟨x, hx, hxid, hxagree⟩ := h.turns T types' htypes
    exact ⟨x, mem_append_left _ hx, hxid, hxagree⟩

/-! ## Putting a turn -/

lemma types_of_items {add : Table String (Option String) → Json → Table String (Option String)}
    (hadd : ∀ types item id type, (add types item).get? id = some (some type) →
      types.get? id = some (some type) ∨ idOf item = some id ∧ itemType item = some type)
    {items : List Json} {id type : String} (h : (items.foldl add ∅).get? id = some (some type)) :
    ∃ item ∈ items, idOf item = some id ∧ itemType item = some type := by
  induction items using reverseRecOn with
  | nil => nomatch h
  | append_singleton items item ih =>
  rw [foldl_append] at h
  rcases hadd _ item id type h with hold | hnew
  · obtain ⟨x, hx, hfound⟩ := ih hold
    exact ⟨x, mem_append_left _ hx, hfound⟩
  · exact ⟨item, mem_append_right _ mem_cons_self, hnew⟩

lemma payloadTypes_spec {items : List Json} (h : (payloadTypes items).get? id = some (some type)) :
    ∃ item ∈ items, idOf item = some id ∧ itemType item = some type := by
  refine types_of_items (fun types item id' type' hget => ?_) h
  unfold addPayloadType at hget
  split at hget
  · rename_i id₀ type₀ hid htype
    rw [get?_insert] at hget
    split at hget
    · rename_i heq
      cases hget
      exact .inr ⟨heq ▸ hid, htype⟩
    · exact .inl hget
  · exact .inl hget

lemma payloadItems_eq {source : Fields}
    (h : payloadFields (p.operation.get? "turn") = some source) :
    payloadItems p = (source.get? "items").bind Json.asArr? := by
  unfold payloadFields at h
  split at h
  · rename_i fields hget
    cases h
    unfold payloadItems
    rw [hget]
    rfl
  · cases h

lemma incomingTurn_items (source : Fields) (id : String) (cached : Option Turn) :
    (incomingTurn source id cached).items =
      ((source.get? "items").bind Json.asArr?).getD ((cached.map Turn.items).getD []) := by
  unfold incomingTurn
  simp only
  split
  · rename_i items hitems
    rw [hitems]
    rfl
  · rename_i hitems
    rw [hitems]
    rfl

lemma incomingTurn_id (source : Fields) (id : String) (cached : Option Turn) :
    (incomingTurn source id cached).id = id := by
  unfold incomingTurn
  simp only
  split <;> rfl

section Runs

variable (stringify : Json → String)

lemma mergeTurnMetadata_items (incoming cached : Turn) :
    (mergeTurnMetadata stringify incoming cached).items =
      reconcileItems stringify cached.items incoming.items false := by
  unfold mergeTurnMetadata
  simp only
  split
  · rename_i hempty
    unfold reconcileItems
    rw [if_pos hempty]
  · rfl

def ThreadProjectionPatch.listsOnce (p : ThreadProjectionPatch) : Prop :=
  UniqueIds ((payloadItems p).getD [])

instance (p : ThreadProjectionPatch) : Decidable p.listsOnce :=
  inferInstanceAs (Decidable (UniqueIds _))

variable {t : Thread} {p : ThreadProjectionPatch} {m : TypeMap}

lemma Agrees.put_turn (h : Agrees m t)
    {source : Fields} {id : String} (hcarr : p.Carries source id) (hlists : p.listsOnce)
    {w : Write} (hput : Put stringify p t w) :
    Agrees (m.insert id (payloadTypes ((payloadItems p).getD []))) (t.write w) := by
  obtain ⟨hkind, hsrc, hid⟩ := hcarr
  have hitems := payloadItems_eq hsrc
  have hnot : ∀ {X : String} {item : Json}, ¬p.Upserts X item := by
    intro X item hups
    rcases hkind with hk | hk
    · exact absurd (hk.symm.trans hups.1) (by decide)
    · exact absurd (hk.symm.trans hups.1) (by decide)
  cases hput with
  | @putTurn source' id' i cached hcarr' hturn =>
    obtain ⟨-, hsrc', hid'⟩ := hcarr'
    rw [hsrc] at hsrc'
    cases hsrc'
    rw [hid] at hid'
    cases hid'
    obtain ⟨hget, hcid⟩ := turnInThread_spec hturn
    have hcach := h.unique.items cached (mem_of_getElem? hget)
    have hinc : UniqueIds (incomingTurn source id (some cached)).items := by
      rw [incomingTurn_items, ← hitems]
      unfold ThreadProjectionPatch.listsOnce at hlists
      cases hl : payloadItems p with
      | none => exact hcach
      | some items =>
        rw [hl] at hlists
        exact hlists
    have hset : t.turns.set i (mergeTurnMetadata stringify (incomingTurn source id (some cached))
        cached) = t.turns.modify i (fun _ =>
          mergeTurnMetadata stringify (incomingTurn source id (some cached)) cached) := by
      rw [modify_eq_set_getElem?, hget]
      rfl
    show Agrees _ { t with turns := t.turns.set i _ }
    rw [hset, ← hcid]
    refine h.modify hget ?_ ?_ ?_
    · show (incomingTurn source cached.id (some cached)).id = cached.id
      exact incomingTurn_id _ _ _
    · rw [mergeTurnMetadata_items, hcid]
      exact uniqueIds_reconcileItems stringify false hcach hinc
    intro X type hX huser hne
    obtain ⟨item, hitem, hidof, htype⟩ := payloadTypes_spec hX
    have hmem : item ∈ (incomingTurn source cached.id (some cached)).items := by
      rw [incomingTurn_items, ← hitems]
      cases hl : payloadItems p with
      | none =>
        rw [hl] at hitem
        cases hitem
      | some items =>
        rw [hl] at hitem
        exact hitem
    obtain ⟨kept, hkept, hsig⟩ := mem_reconcileItems stringify false hcach hmem
    refine ⟨kept, ?_, (idOf_eq_of_sig hsig).trans hidof, (itemType_eq_of_sig hsig).trans htype⟩
    rw [mergeTurnMetadata_items]
    exact hkept
  | @pushTurn source' id' hcarr' hturn =>
    obtain ⟨-, hsrc', hid'⟩ := hcarr'
    rw [hsrc] at hsrc'
    cases hsrc'
    rw [hid] at hid'
    cases hid'
    have hinc : (incomingTurn source id none).items = (payloadItems p).getD [] := by
      rw [incomingTurn_items, ← hitems]
      rfl
    have hTid := incomingTurn_id source id none
    have hpush := h.push (incomingTurn source id none) (payloadTypes ((payloadItems p).getD [])) (by
        intro x hx
        rw [hTid]
        exact turnInThread_eq_none.mp hturn x hx)
      (by
        rw [hinc]
        exact hlists)
      (by
        intro X type hX _ _
        obtain ⟨item, hitem, hidof, htype⟩ := payloadTypes_spec hX
        exact ⟨item, by rw [hinc]; exact hitem, hidof, htype⟩)
    rw [hTid] at hpush
    exact hpush
  | putItem hups | putUser hups | pushItem hups => exact (hnot hups).elim

/-! ## Putting an item -/

variable {items : List Json} {old item : Json}

lemma filterMap_idOf_set {j : Nat} (hold : items[j]? = some old) (h : idOf item = idOf old) :
    (items.set j item).filterMap idOf = items.filterMap idOf := by
  have hmap := @map_set_of_eq Json (Option String) idOf items j old item hold h
  have hread : ∀ l : List Json, l.filterMap idOf = (l.map idOf).filterMap id := by
    intro l
    rw [filterMap_map]
    rfl
  rw [hread, hread, hmap]

lemma uniqueIds_put_new {before after : List Json} {X : String}
    (h : UniqueIds (before ++ old :: after))
    (hnew : ∀ x ∈ before ++ old :: after, idOf x ≠ some X) (hid : idOf item = some X) :
    UniqueIds (before ++ item :: after) := by
  unfold UniqueIds at h ⊢
  rw [filterMap_append, filterMap_cons, hid, nodup_middle, nodup_cons]
  constructor
  · rw [← filterMap_append, mem_filterMap]
    rintro ⟨x, hx, hxid⟩
    refine hnew x ?_ hxid
    rcases mem_append.mp hx with hb | ha
    · exact mem_append_left _ hb
    · exact mem_append_right _ (mem_cons_of_mem _ ha)
  rw [← filterMap_append]
  have hsub : (before ++ after).Sublist (before ++ old :: after) :=
    (List.Sublist.refl before).append (sublist_cons_self old after)
  exact (hsub.filterMap idOf).nodup h

structure PutEffect (turn next : Turn) (X type : String) : Prop where
  unique : UniqueIds next.items
  there : Has next X type
  others : ∀ id ty, id ≠ X → ty ≠ "userMessage" → Has turn id ty → Has next id ty

variable {payload : Json}

lemma put_item_effect {T X type : String} (hkind : p.kind = .itemUpsert) (haddr : p.turnId = some T)
    (hpay : asObject (p.operation.get? "item") = some payload) (hid : idOf payload = some X)
    (htype : itemType payload = some type) (hu : t.Unique) {w : Write}
    (hput : Put stringify p t w) :
    ∃ i turn f, turnInThread t T = some (i, turn) ∧
      t.write w = { t with turns := t.turns.modify i f } ∧ (f turn).id = turn.id ∧
      PutEffect turn (f turn) X type := by
  have hitem : ∀ {X' : String} {item : Json}, p.Upserts X' item →
      X' = X ∧ idOf item = some X ∧ itemType item = some type := by
    rintro X' item ⟨-, hX', payload', hpay', hsig⟩
    rw [hpay] at hpay'
    cases hpay'
    have hidof := (idOf_eq_of_sig hsig).trans hid
    rw [hX'] at hidof
    cases hidof
    exact ⟨rfl, hX', (itemType_eq_of_sig hsig).trans htype⟩
  have hcarry : ∀ {source : Fields} {id : String}, ¬p.Carries source id := by
    rintro source id ⟨hk | hk, -⟩
    · exact absurd (hk.symm.trans hkind) (by decide)
    · exact absurd (hk.symm.trans hkind) (by decide)
  cases hput with
  | putTurn hcarr | pushTurn hcarr => exact (hcarry hcarr).elim
  | @putItem T' X' i j turn item hups haddr' hturn hindex =>
    rw [haddr] at haddr'
    cases haddr'
    obtain ⟨rfl, hidof, hty⟩ := hitem hups
    obtain ⟨old, hold, holdid⟩ := itemIndex_spec hindex
    obtain ⟨hget, -⟩ := turnInThread_spec hturn
    have hturnu := hu.items turn (mem_of_getElem? hget)
    have hj := (List.getElem?_eq_some_iff.mp hold).1
    refine ⟨i, turn, fun x => { x with items := x.items.set j item }, hturn, rfl, rfl, ?_, ?_, ?_⟩
    · unfold UniqueIds
      rw [filterMap_idOf_set hold (hidof.trans holdid.symm)]
      exact hturnu
    · exact ⟨item, mem_set hj item, hidof, hty⟩
    rintro id ty hne - ⟨x, hx, hxid, hxty⟩
    obtain ⟨k, hk⟩ := mem_iff_getElem?.mp hx
    refine ⟨x, mem_set_of_ne hk ?_, hxid, hxty⟩
    intro hkj
    subst hkj
    rw [hold] at hk
    cases hk
    rw [holdid] at hxid
    cases hxid
    exact hne rfl
  | @putUser T' X' i j turn item old hups haddr' hturn hindex hold huser hnew =>
    rw [haddr] at haddr'
    cases haddr'
    obtain ⟨rfl, hidof, hty⟩ := hitem hups
    obtain ⟨hget, -⟩ := turnInThread_spec hturn
    have hturnu := hu.items turn (mem_of_getElem? hget)
    have hj := (List.getElem?_eq_some_iff.mp hold).1
    refine ⟨i, turn, fun x => { x with items := x.items.set j item }, hturn, rfl, rfl, ?_, ?_, ?_⟩
    · obtain ⟨before, after, hsplit, rfl⟩ := exists_split hold
      have hfresh := itemIndex_eq_none hindex
      rw [hsplit] at hturnu hfresh
      show UniqueIds (turn.items.set before.length item)
      rw [hsplit, set_append_right _ _ (Nat.le_refl _), Nat.sub_self, set_cons_zero]
      exact uniqueIds_put_new hturnu hfresh hidof
    · exact ⟨item, mem_set hj item, hidof, hty⟩
    rintro id ty - hnotuser ⟨x, hx, hxid, hxty⟩
    obtain ⟨k, hk⟩ := mem_iff_getElem?.mp hx
    refine ⟨x, mem_set_of_ne hk ?_, hxid, hxty⟩
    intro hkj
    subst hkj
    rw [hold] at hk
    cases hk
    rw [huser] at hxty
    cases hxty
    exact hnotuser rfl
  | @pushItem T' X' i turn item hups haddr' hturn hindex =>
  rw [haddr] at haddr'
  cases haddr'
  obtain ⟨rfl, hidof, hty⟩ := hitem hups
  obtain ⟨hget, -⟩ := turnInThread_spec hturn
  have hturnu := hu.items turn (mem_of_getElem? hget)
  refine ⟨i, turn, fun x => { x with items := x.items ++ [item] }, hturn, rfl, rfl, ?_, ?_, ?_⟩
  · unfold UniqueIds at hturnu ⊢
    rw [filterMap_append, nodup_append]
    refine ⟨hturnu, by simp [hidof], ?_⟩
    intro a ha b hb heq
    subst heq
    obtain ⟨x, hx, hxid⟩ := mem_filterMap.mp ha
    simp only [filterMap_cons, hidof, filterMap_nil, mem_singleton] at hb
    rw [hb] at hxid
    exact itemIndex_eq_none hindex x hx hxid
  · exact ⟨item, by simp, hidof, hty⟩
  · rintro id ty - - ⟨x, hx, hxid, hxty⟩
    exact ⟨x, mem_append_left _ hx, hxid, hxty⟩

/-! ## A patch -/

structure ThreadProjectionPatch.Emitted (p : ThreadProjectionPatch) : Prop where
  text : p.kind = .itemTextDelta → (TextKind.ofName (strField p.operation "itemType")).isSome = true
  reasoning : p.kind = .reasoningPart ∨ p.kind = .reasoningDelta → p.reasoningField.isSome = true
  reserved : ∀ T, p.turnId = some T → p.itemId ≠ some (placeholderId T) ∧
    (asObject (p.operation.get? "item")).bind idOf ≠ some (placeholderId T)

def reaches (t next : Thread) (p : ThreadProjectionPatch) : Bool :=
  match p.kind with
  | .turnStarted => (p.payloadTurnId.bind (turnInThread next)).isSome
  | .turnCompleted => (p.payloadTurnId.bind (turnInThread next)).isSome
  | .itemUpsert =>
    (p.turnId.bind (turnInThread t)).isSome &&
      (asObject (p.operation.get? "item")).any (fun item =>
        (itemInTurn next p.turnId (idOf item)).any (fun place =>
          decide (itemType place.value = itemType item)))
  | .modelRerouted => (p.turnId.bind (turnInThread t)).isSome
  | .tokenUsage => (p.turnId.bind (turnInThread t)).isSome
  | .turnDiff => (p.turnId.bind (turnInThread t)).isSome
  | .turnPlan => (p.turnId.bind (turnInThread t)).isSome
  | .threadStatus => true
  | .threadName => true
  | .threadSettings => true
  | .other => true
  | _ =>
    (itemInTurn t p.turnId p.itemId).any (fun place =>
      decide (itemType place.value = expectedProjectionItemType p))

lemma turnInThread_of_mem (hu : t.Unique) {turn : Turn} (hmem : turn ∈ t.turns) :
    ∃ i, turnInThread t turn.id = some (i, turn) := by
  cases h : turnInThread t turn.id with
  | none => exact (turnInThread_eq_none.mp h turn hmem rfl).elim
  | some found =>
  obtain ⟨i, x⟩ := found
  obtain ⟨hget, hid⟩ := turnInThread_spec h
  exact ⟨i, by rw [eq_of_id hu (mem_of_getElem? hget) hmem hid]⟩

lemma eq_of_idOf (hu : UniqueIds items) {a b : Json} {X : String}
    (ha : a ∈ items) (hb : b ∈ items) (hida : idOf a = some X) (hidb : idOf b = some X) :
    a = b := by
  induction items with
  | nil => cases ha
  | cons x rest ih =>
  unfold UniqueIds at hu
  rw [filterMap_cons] at hu
  have hrest : UniqueIds rest := by
    split at hu
    · exact hu
    · exact (nodup_cons.mp hu).2
  have hhead : idOf x = some X → ∀ y ∈ rest, idOf y ≠ some X := by
    intro hx y hy hyid
    rw [hx] at hu
    exact (nodup_cons.mp hu).1 (mem_filterMap.mpr ⟨y, hy, hyid⟩)
  rcases mem_cons.mp ha with hax | harest
  · rcases mem_cons.mp hb with hbx | hbrest
    · rw [hax, hbx]
    · exact (hhead (hax ▸ hida) b hbrest hidb).elim
  · rcases mem_cons.mp hb with hbx | hbrest
    · exact (hhead (hbx ▸ hidb) a harest hida).elim
    · exact ih hrest harest hbrest

lemma itemInTurn_of_has (hu : t.Unique) {turn : Turn} (hmem : turn ∈ t.turns)
    {X type : String} (h : Has turn X type) :
    ∃ place, itemInTurn t (some turn.id) (some X) = some place ∧
      itemType place.value = some type := by
  obtain ⟨item, hitem, hid, htype⟩ := h
  obtain ⟨i, hturn⟩ := turnInThread_of_mem hu hmem
  cases hindex : itemIndex turn X with
  | none => exact (itemIndex_eq_none hindex item hitem hid).elim
  | some j =>
  obtain ⟨found, hfound, hfoundid⟩ := itemIndex_spec hindex
  have heq := eq_of_idOf (hu.items turn hmem) (mem_of_getElem? hfound) hitem hfoundid hid
  refine ⟨⟨i, j, found⟩, ?_, by rw [heq]; exact htype⟩
  simp [itemInTurn, hturn, hindex, hfound]

lemma turnInThread_isSome_of_agrees (h : Agrees m t) {T : String}
    (hT : (m.get? T).isSome = true) : (turnInThread t T).isSome = true := by
  obtain ⟨types, htypes⟩ := isSome_iff_exists.mp hT
  obtain ⟨turn, hmem, rfl, -⟩ := h.turns T types htypes
  obtain ⟨i, hturn⟩ := turnInThread_of_mem h.unique hmem
  rw [hturn]
  rfl

lemma expected_ne_userMessage (hemit : p.Emitted) {type : String}
    (h : expectedProjectionItemType p = some type) : type ≠ "userMessage" := by
  unfold expectedProjectionItemType at h
  split at h
  · rename_i hkind
    obtain ⟨kind, hname⟩ := isSome_iff_exists.mp (hemit.text hkind)
    have hp := find?_some hname
    have heq : strField p.operation "itemType" = some kind.name := of_decide_eq_true hp
    rw [heq] at h
    cases h
    cases kind <;> decide
  all_goals cases h
  all_goals decide

lemma reaches_of_checkAddressed (h : Agrees m t)
    (hemit : p.Emitted) (hchec : checkAddressed m p = true)
    (hstart : p.kind ≠ .turnStarted) (hcomp : p.kind ≠ .turnCompleted)
    (hupsert : p.kind ≠ .itemUpsert) (next : Thread) : reaches t next p = true := by
  have hturn : isTurnScoped p = true → expectedProjectionItemType p = none →
      (p.turnId.bind (turnInThread t)).isSome = true := by
    intro hscoped hnone
    unfold checkAddressed at hchec
    rw [hnone] at hchec
    simp only [hscoped, if_true] at hchec
    cases hT : p.turnId with
    | none =>
      rw [hT] at hchec
      cases hchec
    | some T =>
      rw [hT] at hchec
      exact turnInThread_isSome_of_agrees h hchec
  have hitem : ∀ type, expectedProjectionItemType p = some type →
      (itemInTurn t p.turnId p.itemId).any (fun place =>
        decide (itemType place.value = expectedProjectionItemType p)) = true := by
    intro type htype
    have hnot := expected_ne_userMessage hemit htype
    unfold checkAddressed at hchec
    rw [htype] at hchec
    simp only at hchec
    split at hchec
    · rename_i T X hT hX
      obtain ⟨types, htypes, hget⟩ := bind_eq_some_iff.mp (of_decide_eq_true hchec)
      obtain ⟨turn, hmem, rfl, hagree⟩ := h.turns T types htypes
      have hne : X ≠ placeholderId turn.id := by
        intro heq
        exact (hemit.reserved turn.id hT).1 (heq ▸ hX)
      obtain ⟨place, hplace, hty⟩ := itemInTurn_of_has h.unique hmem (hagree X type hget hnot hne)
      rw [hT, hX, hplace, htype]
      exact decide_eq_true hty
    · cases hchec
  unfold reaches
  cases hkind : p.kind with
  | turnStarted => exact (hstart hkind).elim
  | turnCompleted => exact (hcomp hkind).elim
  | itemUpsert => exact (hupsert hkind).elim
  | threadStatus | threadName | threadSettings | other => rfl
  | modelRerouted | tokenUsage | turnDiff | turnPlan =>
    exact hturn (by simp [isTurnScoped, hkind]) (by simp [expectedProjectionItemType, hkind])
  | itemTextDelta =>
    exact hitem ((strField p.operation "itemType").getD "")
      (by simp only [expectedProjectionItemType, hkind])
  | fileChanges => exact hitem "fileChange" (by simp only [expectedProjectionItemType, hkind])
  | mcpProgress => exact hitem "mcpToolCall" (by simp only [expectedProjectionItemType, hkind])
  | reasoningPart => exact hitem "reasoning" (by simp only [expectedProjectionItemType, hkind])
  | reasoningDelta => exact hitem "reasoning" (by simp only [expectedProjectionItemType, hkind])

lemma applyThreadProjectionPatch_turns (now : Int) (t : Thread) (p : ThreadProjectionPatch) :
    (applyThreadProjectionPatch stringify now t p).1.turns =
      (t.run (patchWrites stringify t p).1).turns := by
  unfold applyThreadProjectionPatch
  simp only
  split <;> rfl

lemma keeps_of_turns {t next other : Thread} (h : Keeps t next)
    (heq : other.turns = next.turns) : Keeps t other := by
  unfold Keeps at h ⊢
  rw [heq]
  exact h

lemma keeps_applyThreadProjectionPatch
    (hstart : p.kind ≠ .turnStarted) (hcomp : p.kind ≠ .turnCompleted)
    (hupsert : p.kind ≠ .itemUpsert) (now : Int) :
    Keeps t (applyThreadProjectionPatch stringify now t p).1 := by
  refine keeps_of_turns ?_ (applyThreadProjectionPatch_turns stringify now t p)
  rcases patchWrites_spec stringify t p with h | ⟨w, rest, -, hput, -⟩
  · exact keeps_touches h
  exfalso
  cases hput with
  | putTurn hcarr | pushTurn hcarr => exact hcarr.1.elim hstart hcomp
  | putItem hups | putUser hups | pushItem hups => exact hupsert hups.1

lemma agrees_carried (h : Agrees m t)
    (hthread : p.threadId = t.id) (hkind : p.kind = .turnStarted ∨ p.kind = .turnCompleted)
    (hlists : p.listsOnce) {id : String} (hid : p.payloadTurnId = some id) (now : Int) :
    Agrees (m.insert id (payloadTypes ((payloadItems p).getD [])))
      (applyThreadProjectionPatch stringify now t p).1 := by
  obtain ⟨w, rest, hws, hput, hrest⟩ := patchWrites_puts_turn stringify hthread hkind hid
  have hsrc : ∃ source, payloadFields (p.operation.get? "turn") = some source := by
    obtain ⟨v, hv, -⟩ := bind_eq_some_iff.mp hid
    obtain ⟨hget, hobj⟩ := filter_eq_some_iff.mp hv
    cases v with
    | obj fields => exact ⟨fields, by rw [hget]; rfl⟩
    | _ => cases hobj
  obtain ⟨source, hsrc⟩ := hsrc
  have hafter := h.put_turn stringify ⟨hkind, hsrc, hid⟩ hlists hput
  refine hafter.of_keeps (keeps_of_turns (keeps_touches hrest) ?_)
  rw [applyThreadProjectionPatch_turns, hws]
  rfl

lemma agrees_upserted (h : Agrees m t)
    (hthread : p.threadId = t.id) (hkind : p.kind = .itemUpsert) (hemit : p.Emitted) {T : String}
    {types : Table String (Option String)} {X type : String}
    (haddr : p.turnId = some T) (htypes : m.get? T = some types)
    (hpay : asObject (p.operation.get? "item") = some payload) (hid : idOf payload = some X)
    (htype : itemType payload = some type) (now : Int) :
    Agrees (m.insert T (types.insert X (some type)))
        (applyThreadProjectionPatch stringify now t p).1 ∧
      (itemInTurn (applyThreadProjectionPatch stringify now t p).1 (some T) (some X)).any
        (fun place => decide (itemType place.value = some type)) = true := by
  have hsome : (turnInThread t T).isSome = true :=
    turnInThread_isSome_of_agrees h (by rw [htypes]; rfl)
  obtain ⟨w, rest, hws, hput, hrest⟩ :=
    patchWrites_puts_item stringify hthread hkind haddr hsome hpay hid
  obtain ⟨i, turn, f, hturn, hwrite, hfid, heffect⟩ :=
    put_item_effect stringify hkind haddr hpay hid htype h.unique hput
  obtain ⟨hget, rfl⟩ := turnInThread_spec hturn
  have hmem := mem_of_getElem? hget
  have hafter : Agrees (m.insert turn.id (types.insert X (some type))) (t.write w) := by
    rw [hwrite]
    refine h.modify hget hfid heffect.unique ?_
    intro id ty hgetty huser hne
    by_cases hX : id = X
    · subst hX
      rw [get?_insert_self] at hgetty
      cases hgetty
      exact heffect.there
    rw [get?_insert_of_ne types _ hX] at hgetty
    obtain ⟨x, hx, hxid, hagree⟩ := h.turns turn.id types htypes
    rw [eq_of_id h.unique hx hmem hxid] at hagree
    rw [hfid] at hne
    exact heffect.others id ty hX huser (hagree id ty hgetty huser hne)
  have hkeeps : Keeps (t.write w) (applyThreadProjectionPatch stringify now t p).1 := by
    refine keeps_of_turns (keeps_touches hrest) ?_
    rw [applyThreadProjectionPatch_turns, hws]
    rfl
  refine ⟨hafter.of_keeps hkeeps, ?_⟩
  -- The item is there after the put, and the touches keep it.
  have hput_mem : f turn ∈ (t.write w).turns := by
    rw [hwrite]
    obtain ⟨before, after, hsplit, hlen⟩ := exists_split hget
    show f turn ∈ t.turns.modify i f
    rw [hsplit, ← hlen, modify_append_cons]
    simp
  obtain ⟨kept, hkept, hk⟩ := exists_of_forall₂_left hkeeps hput_mem
  have hne : X ≠ placeholderId (f turn).id := by
    rw [hfid]
    intro heq
    apply (hemit.reserved turn.id haddr).2
    rw [hpay, ← heq]
    exact hid
  have hkid : kept.id = turn.id := hk.id.trans hfid
  obtain ⟨place, hplace, hty⟩ := itemInTurn_of_has (hafter.of_keeps hkeeps).unique hkept
    (hk.has X type hne heffect.there)
  rw [hkid] at hplace
  rw [hplace]
  exact decide_eq_true hty

lemma checkPatch_sound {m next : TypeMap} (h : Agrees m t)
    (hthread : p.threadId = t.id) (hemit : p.Emitted)
    (hlists : p.listsOnce) (hcheck : checkPatch m p = some next) (now : Int) :
    Agrees next (applyThreadProjectionPatch stringify now t p).1 ∧
      reaches t (applyThreadProjectionPatch stringify now t p).1 p = true := by
  have hcarried : ∀ id, (p.kind = .turnStarted ∨ p.kind = .turnCompleted) →
      p.payloadTurnId = some id →
      next = m.insert id (payloadTypes ((payloadItems p).getD [])) →
      Agrees next (applyThreadProjectionPatch stringify now t p).1 ∧ (p.payloadTurnId.bind
          (turnInThread (applyThreadProjectionPatch stringify now t p).1)).isSome = true := by
    intro id hkind hid hnext
    have hafter := agrees_carried stringify h hthread hkind hlists hid now
    rw [← hnext] at hafter
    refine ⟨hafter, ?_⟩
    rw [hid]
    refine turnInThread_isSome_of_agrees hafter ?_
    rw [hnext, get?_insert_self]
    rfl
  unfold checkPatch at hcheck
  split at hcheck
  · rename_i hkind
    split at hcheck
    · rename_i id items hid hitems
      split at hcheck
      · cases hcheck
        have hres := hcarried id (.inr hkind) hid (by rw [hitems]; rfl)
        refine ⟨hres.1, ?_⟩
        simp only [reaches, hkind]
        exact hres.2
      · cases hcheck
    · cases hcheck
  · rename_i hkind
    split at hcheck
    · rename_i id hid
      cases hcheck
      have hres := hcarried id (.inl hkind) hid rfl
      refine ⟨hres.1, ?_⟩
      simp only [reaches, hkind]
      exact hres.2
    · cases hcheck
  · rename_i hkind
    split at hcheck
    · rename_i T payload haddr hpay
      split at hcheck
      · rename_i types X type htypes hid htype
        cases hcheck
        obtain ⟨hafter, hitem⟩ := agrees_upserted stringify h hthread hkind hemit haddr htypes
          hpay hid htype now
        refine ⟨hafter, ?_⟩
        have hturn : (turnInThread t T).isSome = true :=
          turnInThread_isSome_of_agrees h (by rw [htypes]; rfl)
        simp only [reaches, hkind, haddr, hpay, bind_some, hturn, Bool.true_and,
          any_some, hid, htype]
        exact hitem
      · cases hcheck
    · cases hcheck
  rename_i hcomp hstart hupsert
  split at hcheck
  · rename_i hchec
    cases hcheck
    refine ⟨h.of_keeps (keeps_applyThreadProjectionPatch stringify hstart hcomp hupsert now), ?_⟩
    exact reaches_of_checkAddressed h hemit hchec hstart hcomp hupsert _
  · cases hcheck

/-! ## A batch -/

abbrev Batch := List (ThreadProjectionPatch × Int)

def applyPatches (t : Thread) (batch : Batch) : Thread :=
  batch.foldl (fun t e => (applyThreadProjectionPatch stringify e.2 t e.1).1) t

lemma run_id (t : Thread) (ws : List Write) : (t.run ws).id = t.id := by
  refine @exec_invariant Thread Write Thread.write (fun s => s.id = t.id) ?_ t rfl ws
  intro s w hs
  cases w <;> exact hs

lemma applyThreadProjectionPatch_id (now : Int) (t : Thread) (p : ThreadProjectionPatch) :
    (applyThreadProjectionPatch stringify now t p).1.id = t.id := by
  unfold applyThreadProjectionPatch
  simp only
  split
  · exact run_id t _
  · exact run_id t _

lemma applyThreadProjectionPatch_other (h : p.threadId ≠ t.id) (now : Int) :
    (applyThreadProjectionPatch stringify now t p).1 = t := by
  unfold applyThreadProjectionPatch patchWrites
  rw [if_pos h]
  rfl

lemma reaches_of_checkedTypes {m last : TypeMap} (h : Agrees m t) {batch : Batch}
    (hemit : ∀ e ∈ batch, e.1.threadId = t.id → e.1.Emitted ∧ e.1.listsOnce)
    (hcheck : checkedTypes t.id m (batch.map Prod.fst) = some last) :
    ∀ before e after, batch = before ++ e :: after → e.1.threadId = t.id →
      reaches (applyPatches stringify t before)
        (applyPatches stringify t (before ++ [e])) e.1 = true := by
  induction batch generalizing m t with
  | nil =>
    intro before e after hsplit
    exact nomatch (append_eq_nil_iff.mp hsplit.symm).2
  | cons first rest ih =>
  intro before e after hsplit hthread
  -- The first patch leaves a thread that agrees with the map the checker went on with.
  have hid := applyThreadProjectionPatch_id stringify first.2 t first.1
  have hstep : ∃ next, Agrees next (applyThreadProjectionPatch stringify first.2 t first.1).1 ∧
      checkedTypes t.id next (rest.map Prod.fst) = some last ∧
      (first.1.threadId = t.id →
        reaches t (applyThreadProjectionPatch stringify first.2 t first.1).1 first.1 = true) := by
    rw [map_cons, checkedTypes] at hcheck
    split at hcheck
    · rename_i hother
      rw [applyThreadProjectionPatch_other stringify hother]
      exact ⟨m, h, hcheck, fun heq => absurd heq hother⟩
    rename_i hsame
    have hsame' : first.1.threadId = t.id := not_not.mp hsame
    obtain ⟨hem, hlists⟩ := hemit first mem_cons_self hsame'
    split at hcheck
    · rename_i next hnext
      obtain ⟨hagree, hreach⟩ :=
        checkPatch_sound stringify h hsame' hem hlists hnext first.2
      exact ⟨next, hagree, hcheck, fun _ => hreach⟩
    · cases hcheck
  obtain ⟨next, hagree, hrest, hreach⟩ := hstep
  cases before with
  | nil =>
    cases hsplit
    exact hreach hthread
  | cons b before =>
  rw [cons_append] at hsplit
  obtain ⟨rfl, htail⟩ := cons.inj hsplit
  refine ih hagree ?_ ?_ before e after htail ?_
  · intro e' he' hthread'
    rw [hid] at hthread'
    exact hemit e' (mem_cons_of_mem _ he') hthread'
  · rw [hid]
    exact hrest
  · rw [hid]
    exact hthread

lemma cachedTypes_spec {id type : String} (h : (cachedTypes items).get? id = some (some type)) :
    ∃ item ∈ items, idOf item = some id ∧ itemType item = some type := by
  refine types_of_items (fun types item id' type' hget => ?_) h
  unfold addCachedType at hget
  split at hget
  · rename_i id₀ hid
    rcases of_get?_insert hget with ⟨heq, hget⟩ | ⟨-, hget⟩
    · exact .inr ⟨heq ▸ hid, hget⟩
    · exact .inl hget
  · exact .inl hget

lemma agrees_initialTypes (h : t.Unique) : Agrees (initialTypes t) t := by
  refine ⟨h, ?_⟩
  have hfold : ∀ (rest : List Turn) (m : TypeMap), (∀ T types, m.get? T = some types →
        ∃ turn ∈ t.turns, turn.id = T ∧ types = cachedTypes turn.items) →
      (∀ turn ∈ rest, turn ∈ t.turns) →
      ∀ T types, (rest.foldl (fun m turn => m.insert turn.id (cachedTypes turn.items)) m).get? T =
        some types → ∃ turn ∈ t.turns, turn.id = T ∧ types = cachedTypes turn.items := by
    intro rest
    induction rest with
    | nil => exact fun m hm _ => hm
    | cons turn rest ih =>
    intro m hm hrest
    refine ih _ ?_ (fun x hx => hrest x (mem_cons_of_mem _ hx))
    intro T types hget
    rcases of_get?_insert hget with ⟨heq, hget⟩ | ⟨-, hget⟩
    · exact ⟨turn, hrest turn mem_cons_self, heq.symm, hget.symm⟩
    · exact hm T types hget
  intro T types hget
  obtain ⟨turn, hmem, hid, rfl⟩ :=
    hfold t.turns ∅ (fun T types h => nomatch h) (fun _ h => h) T types hget
  exact ⟨turn, hmem, hid, fun id type hget _ _ => cachedTypes_spec hget⟩

/-- A batch that needs no repair finds every turn and item it addresses. -/
theorem reaches_of_no_repair (t : Thread) (hunique : t.Unique) (batch : Batch)
    (hemit : ∀ e ∈ batch, e.1.threadId = t.id → e.1.Emitted ∧ e.1.listsOnce)
    (hcheck : threadProjectionNeedsAuthoritativeRepair t (batch.map Prod.fst) = false)
    (before : Batch) (e : ThreadProjectionPatch × Int) (after : Batch)
    (hsplit : batch = before ++ e :: after) (hthread : e.1.threadId = t.id) :
    reaches (applyPatches stringify t before)
      (applyPatches stringify t (before ++ [e])) e.1 = true := by
  unfold threadProjectionNeedsAuthoritativeRepair at hcheck
  rw [isNone_eq_false_iff] at hcheck
  obtain ⟨last, hlast⟩ := isSome_iff_exists.mp hcheck
  exact reaches_of_checkedTypes stringify (agrees_initialTypes hunique) hemit hlast before e after
    hsplit hthread

end Runs

/-! ## A payload that repeats an item id -/

private def answer (id text : String) : Json :=
  .ofFields [("id", .str id), ("type", .str "agentMessage"), ("text", .str text)]

private def cachedThread : Thread :=
  { id := "thread", updatedAt := 0, fields := [],
    turns := [⟨"turn", [], [answer "y" "hello", answer "x" "other"]⟩] }

private def completed (items : List Json) : ThreadProjectionPatch :=
  ⟨"thread", .ofFields [("kind", .str "turnCompleted"), ("turn", .ofFields [("id", .str "turn"),
    ("itemsView", .str "full"), ("items", .arr items)])]⟩

private def delta : ThreadProjectionPatch :=
  ⟨"thread", .ofFields [("kind", .str "itemTextDelta"), ("turnId", .str "turn"),
    ("itemId", .str "x"), ("itemType", .str "agentMessage"), ("delta", .str " live")]⟩

private def thought : Json := .ofFields [("id", .str "x"), ("type", .str "reasoning")]

lemma emitted_completed (hkind : p.kind = .turnCompleted)
    (hturn : p.turnId = none) : p.Emitted := by
  refine ⟨fun h => ?_, fun h => ?_, fun T h => ?_⟩
  · exact absurd (hkind.symm.trans h) (by decide)
  · rcases h with h | h
    · exact absurd (hkind.symm.trans h) (by decide)
    · exact absurd (hkind.symm.trans h) (by decide)
  · exact nomatch hturn.symm.trans h

lemma emitted_delta : delta.Emitted := by
  have hkind : delta.kind = .itemTextDelta := by decide
  have hturn : delta.turnId = some "turn" := by decide
  refine ⟨fun _ => by decide, fun h => ?_, fun T h => ?_⟩
  · rcases h with h | h
    · exact absurd (hkind.symm.trans h) (by decide)
    · exact absurd (hkind.symm.trans h) (by decide)
  · have hT : "turn" = T := some.inj (hturn.symm.trans h)
    rw [← hT]
    exact ⟨by decide, by decide⟩

lemma cachedThread_unique : cachedThread.Unique := by
  refine ⟨by decide, fun turn hturn => ?_⟩
  rw [mem_singleton.mp hturn]
  decide

/-- The delta of a thread that has the item is found. -/
theorem reaches_live_delta :
    reaches (applyPatches (fun _ => "") cachedThread [])
      (applyPatches (fun _ => "") cachedThread [(delta, 1)]) delta = true :=
  reaches_of_no_repair (fun _ => "") cachedThread cachedThread_unique [(delta, 1)]
    (fun e he _ => by
      rw [mem_singleton.mp he]
      exact ⟨emitted_delta, by decide⟩)
    (by decide) [] (delta, 1) [] rfl (by decide)

/-- The checker keeps the last type of a repeated id, the reducer finds the item the first one
was merged into. -/
theorem repeated_id_drops_delta :
    cachedThread.Unique ∧ (completed [thought, answer "x" "hello"]).Emitted ∧ delta.Emitted ∧
      threadProjectionNeedsAuthoritativeRepair cachedThread
        [completed [thought, answer "x" "hello"], delta] = false ∧
      reaches
        (applyPatches (fun _ => "") cachedThread [(completed [thought, answer "x" "hello"], 1)])
        (applyPatches (fun _ => "") cachedThread
          [(completed [thought, answer "x" "hello"], 1), (delta, 2)]) delta = false ∧
      (applyThreadProjectionPatch (fun _ => "") 2
        (applyPatches (fun _ => "") cachedThread [(completed [thought, answer "x" "hello"], 1)])
        delta).2 = false :=
  ⟨cachedThread_unique, emitted_completed (by decide) (by decide), emitted_delta,
    by decide, by decide, by decide⟩

end CodeWide.Projection
