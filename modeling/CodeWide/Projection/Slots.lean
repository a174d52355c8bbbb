import CodeWide.Projection.Marked

/-!
# Where reconciled items stand

Each place of the cached list keeps its cached item or the incoming item that took it.
-/

namespace CodeWide.Projection

open Lib List Matching

section Slots

variable (stringify : Json → String) (preserveLifecycle : Bool)

/-- The active turn's variant, which keeps what the live items have shown. -/
def reconcileActiveTurnItems (cached incoming : List Json) : List Json :=
  reconcileItems stringify cached incoming true

/-- A place of the cached list: the item cached there, and the incoming item that took it. -/
structure Slot where
  cached : Json
  incoming : Option Json
deriving DecidableEq

def Slot.item (slot : Slot) : Json :=
  match slot.incoming with
  | none => slot.cached
  | some item => preserveProjectedItemMarkers item slot.cached preserveLifecycle

def offerSlot (state : Matching × List Slot) (item : Json) : Matching × List Slot :=
  (state.1.offer stringify preserveLifecycle item,
    match matchPlace stringify state.1.result item with
    | none => state.2
    | some index => state.2.modify index (fun slot => { slot with incoming := some item }))

/-- The matching that a reconciliation goes through, and what took each place. -/
def assigned (cached incoming : List Json) : Matching × List Slot :=
  if cached = [] then (⟨incoming, [], []⟩, [])
  else incoming.foldl (offerSlot stringify preserveLifecycle)
    (.start cached, cached.map (fun item => ⟨item, none⟩))

def isAsync (item : Json) : Bool :=
  decide (itemType item = some "agentMessage") &&
    decide (item.get? "delivery" = some (.str "async"))

structure Reconciles (cached incoming : List Json) : Prop where
  places : (assigned stringify preserveLifecycle cached incoming).2.map Slot.cached = cached
  result : reconcileItems stringify cached incoming preserveLifecycle =
    (assigned stringify preserveLifecycle cached incoming).1.leading ++
      (assigned stringify preserveLifecycle cached incoming).2.map (Slot.item preserveLifecycle) ++
        (assigned stringify preserveLifecycle cached incoming).1.trailing
  once : ((assigned stringify preserveLifecycle cached incoming).1.leading ++
    (assigned stringify preserveLifecycle cached incoming).2.filterMap Slot.incoming ++
      (assigned stringify preserveLifecycle cached incoming).1.trailing).Perm incoming
  ids : ∀ slot ∈ (assigned stringify preserveLifecycle cached incoming).2,
    ∀ item, slot.incoming = some item → idOf (slot.item preserveLifecycle) = idOf item
  unique : UniqueIds (reconcileItems stringify cached incoming preserveLifecycle)
  own : ∀ slot ∈ (assigned stringify preserveLifecycle cached incoming).2, ∀ item ∈ incoming,
    idOf item = idOf slot.cached → slot.incoming = some item
  async : ∀ slot ∈ (assigned stringify preserveLifecycle cached incoming).2, ∀ item,
    slot.incoming = some item → (isAsync slot.cached = true ∨ isAsync item = true) →
      idOf item = idOf slot.cached
  again : reconcileItems stringify (reconcileItems stringify cached incoming preserveLifecycle)
    incoming preserveLifecycle = reconcileItems stringify cached incoming preserveLifecycle

def OwnPlaces (free : List Json) : List Json → Prop
  | [] => True
  | item :: later =>
    match free.find? (fun candidate => decide (itemId candidate = itemId item)) with
    | some own => OwnPlaces (free.erase own) later
    | none =>
      match (if isChatBoundary item then
          free.find? (fun candidate => sameLogicalBoundary stringify candidate item)
        else none) with
      | some taken =>
        (∀ other ∈ later, itemId other ≠ itemId taken) ∧ OwnPlaces (free.erase taken) later
      | none => OwnPlaces free later

/-- The items of a list carry string ids, as every item of the protocol does. -/
def Identified (items : List Json) : Prop := ∀ item ∈ items, idOf item ≠ none

instance (items : List Json) : Decidable (Identified items) :=
  inferInstanceAs (Decidable (∀ item ∈ items, idOf item ≠ none))

/-! ## The steps -/

section Steps

variable {stringify preserveLifecycle}

lemma itemId_eq_iff {a b : Json} (ha : idOf a ≠ none) : itemId a = itemId b ↔ idOf a = idOf b := by
  unfold itemId idOf strField at *
  constructor
  · intro h
    rw [h]
  intro h
  cases hget : a.get? "id" with
  | none => rw [hget] at ha; exact absurd rfl ha
  | some v =>
  cases hother : b.get? "id" with
  | none =>
    rw [hget, hother] at h
    rw [hget] at ha
    exact absurd h ha
  | some w =>
  rw [hget, hother] at h
  rw [hget] at ha
  cases v <;> simp only [Option.bind_some, Json.asStr?, ne_eq, not_true_eq_false] at h ha
  cases w <;> simp only [reduceCtorEq, Option.some.injEq] at h
  rw [h]

lemma UniqueIds.not_mem_tail {item : Json} {items : List Json} (hu : UniqueIds (item :: items))
    (hsome : idOf item ≠ none) : ∀ other ∈ items, idOf other ≠ idOf item := by
  intro other hother heq
  obtain ⟨i, hi⟩ := Option.ne_none_iff_exists'.mp hsome
  unfold UniqueIds at hu
  rw [filterMap_cons, hi] at hu
  apply (nodup_cons.mp hu).1
  exact mem_filterMap.mpr ⟨other, hother, heq.trans hi⟩

lemma UniqueIds.eq_of_idOf {items : List Json} (hu : UniqueIds items) {a b : Json}
    (ha : a ∈ items) (hb : b ∈ items) (hid : idOf a = idOf b) (hsome : idOf a ≠ none) : a = b := by
  induction items with
  | nil => cases ha
  | cons item rest ih =>
  have hrest : UniqueIds rest :=
    ((sublist_cons_self item rest).filterMap idOf).nodup hu
  rcases mem_cons.mp ha with rfl | ha'
  · rcases mem_cons.mp hb with rfl | hb'
    · rfl
    · exact absurd hid.symm (hu.not_mem_tail hsome b hb')
  · rcases mem_cons.mp hb with rfl | hb'
    · exact absurd hid (hu.not_mem_tail (hid ▸ hsome) a ha')
    · exact ih hrest ha' hb'

lemma freePlace_find {result : List Place} {p : Json → Bool} {i : Nat}
    (h : freePlace result p = some i) :
    ∃ before item after, result = before ++ ⟨item, false⟩ :: after ∧ before.length = i ∧
      (freeItems result).find? p = some item ∧
      (freeItems result).erase item = freeItems before ++ freeItems after := by
  obtain ⟨hi, hp, hfirst⟩ := findIdx?_eq_some_iff_getElem.mp h
  obtain ⟨before, item, after, hres, hlen, hitem⟩ := freePlace_spec h
  have hskip : ∀ other ∈ freeItems before, p other = false := by
    intro other hother
    obtain ⟨place, hplace, rfl⟩ := mem_map.mp hother
    obtain ⟨hmem, hfree⟩ := mem_filter.mp hplace
    obtain ⟨j, hj, hget⟩ := mem_iff_getElem.mp hmem
    have hnot := hfirst j (hlen ▸ hj)
    simp only [hres, getElem_append_left hj, hget, hfree, Bool.true_and] at hnot
    exact Bool.eq_false_of_not_eq_true hnot
  have hfree : freeItems result = freeItems before ++ item :: freeItems after := by
    rw [hres, freeItems_append]
    rfl
  refine ⟨before, item, after, hres, hlen, ?_, ?_⟩
  · rw [hfree, find?_append, find?_eq_none.mpr, find?_cons_of_pos hitem]
    · rfl
    · intro other hother
      rw [hskip other hother]
      exact Bool.false_ne_true
  rw [hfree, erase_append_right, erase_cons_head]
  intro hmem
  rw [hskip item hmem] at hitem
  exact Bool.false_ne_true hitem

variable (stringify preserveLifecycle) in
structure Noted (cached seen : List Json) (state : Matching × List Slot) : Prop where
  places : state.2.map Slot.cached = cached
  result : state.1.result =
    state.2.map (fun slot => ⟨slot.item preserveLifecycle, slot.incoming.isSome⟩)
  once : (state.1.leading ++ state.2.filterMap Slot.incoming ++ state.1.trailing).Perm seen
  matched : ∀ slot ∈ state.2, ∀ item, slot.incoming = some item →
    idOf item = idOf slot.cached ∨ sameLogicalBoundary stringify slot.cached item = true

variable (stringify preserveLifecycle) in
inductive Offered (state : Matching × List Slot) (item : Json) (next : Matching × List Slot) :
    Prop
  | ending (slots : next.2 = state.2) (result : next.1.result = state.1.result)
      (ends : (next.1.leading ++ next.1.trailing).Perm
        (item :: (state.1.leading ++ state.1.trailing)))
      (byId : (freeItems state.1.result).find?
        (fun candidate => decide (itemId candidate = itemId item)) = none)
      (byBoundary : (if isChatBoundary item then (freeItems state.1.result).find?
        (fun candidate => sameLogicalBoundary stringify candidate item) else none) = none)
  | placed (before : List Slot) (slot : Slot) (after : List Slot)
      (slots : state.2 = before ++ slot :: after) (free : slot.incoming = none)
      (next_slots : next.2 = before ++ ⟨slot.cached, some item⟩ :: after)
      (result : next.1.result = next.2.map
        (fun slot => ⟨slot.item preserveLifecycle, slot.incoming.isSome⟩))
      (ends : next.1.leading = state.1.leading ∧ next.1.trailing = state.1.trailing)
      (free_next : freeItems next.1.result = (freeItems state.1.result).erase slot.cached)
      (found : (freeItems state.1.result).find?
          (fun candidate => decide (itemId candidate = itemId item)) = some slot.cached ∨
        (freeItems state.1.result).find?
          (fun candidate => decide (itemId candidate = itemId item)) = none ∧
        (if isChatBoundary item then (freeItems state.1.result).find?
          (fun candidate => sameLogicalBoundary stringify candidate item) else none) =
            some slot.cached)

lemma freePlace_none_find {result : List Place} {p : Json → Bool}
    (h : freePlace result p = none) : (freeItems result).find? p = none := by
  rw [find?_eq_none]
  intro item hitem
  rw [freePlace_eq_none h item hitem]
  exact Bool.false_ne_true

variable {cached seen : List Json} {state : Matching × List Slot}

section

variable (h : Noted stringify preserveLifecycle cached seen state)
include h

lemma Noted.placed {item old : Json} {i : Nat}
    {before after : List Place} (hplace : matchPlace stringify state.1.result item = some i)
    (hres : state.1.result = before ++ ⟨old, false⟩ :: after) (hlen : before.length = i)
    (herase : (freeItems state.1.result).erase old = freeItems before ++ freeItems after)
    (hfound : (freeItems state.1.result).find?
        (fun candidate => decide (itemId candidate = itemId item)) = some old ∨
      (freeItems state.1.result).find?
        (fun candidate => decide (itemId candidate = itemId item)) = none ∧
      (if isChatBoundary item then (freeItems state.1.result).find?
        (fun candidate => sameLogicalBoundary stringify candidate item) else none) = some old) :
    Offered stringify preserveLifecycle state item
      (offerSlot stringify preserveLifecycle state item) := by
  obtain ⟨sb, sr, hslots, hb, hr⟩ := map_eq_append_iff.mp (h.result.symm.trans hres)
  obtain ⟨slot, sa, rfl, hslot, ha⟩ := map_eq_cons_iff.mp hr
  have hfree : slot.incoming = none := by
    have htaken : slot.incoming.isSome = false := congrArg Place.taken hslot
    exact Option.not_isSome_iff_eq_none.mp (by rw [htaken]; exact Bool.false_ne_true)
  have hold : slot.cached = old := by
    have hitem : slot.item preserveLifecycle = old := congrArg Place.item hslot
    unfold Slot.item at hitem
    rw [hfree] at hitem
    exact hitem
  have hsb : sb.length = i := by
    rw [← hlen, ← hb, length_map]
  subst hold
  have hnext : (offerSlot stringify preserveLifecycle state item).2 =
      sb ++ ⟨slot.cached, some item⟩ :: sa := by
    unfold offerSlot
    rw [hplace]
    simp only
    rw [hslots, ← hsb, modify_append_cons]
  have hmatching : (offerSlot stringify preserveLifecycle state item).1 =
      { state.1 with result := before ++
          ⟨preserveProjectedItemMarkers item slot.cached preserveLifecycle, true⟩ :: after } := by
    unfold offerSlot Matching.offer
    rw [hplace]
    simp only
    rw [hres, ← hlen, modify_append_cons]
  refine .placed sb slot sa hslots hfree hnext ?_ ?_ ?_ hfound
  · rw [hmatching, hnext, map_append, map_cons, hb, ha]
    rfl
  · rw [hmatching]
    exact ⟨rfl, rfl⟩
  · rw [hmatching, herase, freeItems_append]
    rfl

lemma offerSlot_offered (item : Json) : Offered stringify preserveLifecycle state item
      (offerSlot stringify preserveLifecycle state item) := by
  cases hplace : matchPlace stringify state.1.result item with
  | none =>
    obtain ⟨hid, hbd⟩ := Option.or_eq_none_iff.mp hplace
    refine .ending ?_ ?_ ?_ (freePlace_none_find hid) ?_
    · unfold offerSlot
      rw [hplace]
    · unfold offerSlot Matching.offer
      rw [hplace]
      simp only
      split <;> rfl
    · unfold offerSlot Matching.offer
      rw [hplace]
      simp only
      split
      · simp only [append_assoc]
        exact perm_middle
      · rw [← append_assoc]
        exact perm_append_singleton _ _
    split
    · rename_i hchat
      rw [if_pos hchat] at hbd
      exact freePlace_none_find hbd
    · rfl
  | some i =>
  unfold matchPlace at hplace
  cases hid : freePlace state.1.result
      (fun candidate => decide (itemId candidate = itemId item)) with
  | some j =>
    have hij : j = i := by
      rw [hid] at hplace
      exact Option.some.inj hplace
    subst hij
    obtain ⟨before, old, after, hres, hlen, hfind, herase⟩ := freePlace_find hid
    exact h.placed hplace hres hlen herase (.inl hfind)
  | none =>
  have hbd := hplace
  rw [hid, Option.none_or] at hbd
  split at hbd
  · rename_i hchat
    obtain ⟨before, old, after, hres, hlen, hfind, herase⟩ := freePlace_find hbd
    refine h.placed hplace hres hlen herase (.inr ⟨freePlace_none_find hid, ?_⟩)
    rw [if_pos hchat]
    exact hfind
  · cases hbd

lemma Noted.offer (item : Json) : Noted stringify preserveLifecycle cached (seen ++ [item])
      (offerSlot stringify preserveLifecycle state item) := by
  rcases offerSlot_offered h item with ⟨hslots, hres, hends, -, -⟩ |
    ⟨before, slot, after, hslots, hfree, hnext, hres, hends, -, hfound⟩
  · refine ⟨?_, ?_, ?_, ?_⟩
    · rw [hslots]
      exact h.places
    · rw [hres, hslots]
      exact h.result
    · rw [hslots]
      refine List.Perm.trans ?_ ((h.once.cons item).trans (perm_append_singleton _ _).symm)
      have hmove : ∀ l m r : List Json, (l ++ m ++ r).Perm (m ++ (l ++ r)) := by
        intro l m r
        rw [← append_assoc]
        exact List.Perm.append_right r perm_append_comm
      refine (hmove _ _ _).trans ?_
      refine (List.Perm.append_left _ hends).trans ?_
      exact perm_middle.trans ((hmove _ _ _).symm.cons item)
    · rw [hslots]
      exact h.matched
  refine ⟨?_, hres, ?_, ?_⟩
  · rw [hnext, ← h.places, hslots]
    simp only [map_append, map_cons]
  · rw [hnext, hends.1, hends.2]
    have honce := h.once
    rw [hslots] at honce
    refine List.Perm.trans ?_ ((honce.cons item).trans (perm_append_singleton _ _).symm)
    simp only [filterMap_append, filterMap_cons, hfree, append_assoc, cons_append]
    refine List.Perm.trans (List.Perm.append_left _ perm_middle) ?_
    exact perm_middle
  intro other hother x hx
  rw [hnext] at hother
  have hmem : other = ⟨slot.cached, some item⟩ ∨ other ∈ state.2 := by
    rw [hslots]
    rcases mem_append.mp hother with hb | hr
    · exact .inr (mem_append_left _ hb)
    · rcases mem_cons.mp hr with heq | ha
      · exact .inl heq
      · exact .inr (mem_append_right _ (mem_cons_of_mem _ ha))
  rcases hmem with rfl | hstate
  · cases hx
    rcases hfound with hid | ⟨-, hbd⟩
    · refine .inl ?_
      have hp := find?_some hid
      have heq := of_decide_eq_true hp
      unfold itemId at heq
      unfold idOf strField
      rw [heq]
    split at hbd
    · have hp := find?_some hbd
      exact .inr hp
    · cases hbd
  · exact h.matched other hstate x hx

/-! ## Own places -/

lemma Noted.mem_free {slot : Slot} (hslot : slot ∈ state.2) (hfree : slot.incoming = none) :
    slot.cached ∈ freeItems state.1.result := by
  unfold freeItems
  refine mem_map.mpr ⟨⟨slot.item preserveLifecycle, slot.incoming.isSome⟩, ?_, ?_⟩
  · refine mem_filter.mpr ⟨?_, ?_⟩
    · rw [h.result]
      exact mem_map_of_mem hslot
    · rw [hfree]
      rfl
  · unfold Slot.item
    rw [hfree]

end

/-- The items offered so far whose id is cached took the place of that id. -/
def OwnSoFar (seen : List Json) (slots : List Slot) : Prop :=
  ∀ slot ∈ slots, ∀ item ∈ seen, idOf item = idOf slot.cached → slot.incoming = some item

def Later (later : List Json) (slots : List Slot) : Prop :=
  ∀ slot ∈ slots, slot.incoming ≠ none → ∀ item ∈ later, idOf item ≠ idOf slot.cached

variable (later : List Json)

lemma offerSlot_taken {cached : List Json} : ∀ {seen : List Json} {state : Matching × List Slot},
      Noted stringify preserveLifecycle cached seen state → ∀ {slot : Slot}, slot ∈ state.2 →
        slot.incoming ≠ none →
          slot ∈ (later.foldl (offerSlot stringify preserveLifecycle) state).2 := by
  induction later with
  | nil =>
    intro seen state _ slot hslot _
    exact hslot
  | cons item rest ih =>
  intro seen state h slot hslot htaken
  refine ih (h.offer item) ?_ htaken
  rcases offerSlot_offered h item with ⟨hslots, -, -, -, -⟩ |
    ⟨before, other, after, hslots, hfree, hnext, -, -, -, -⟩
  · rw [hslots]
    exact hslot
  rw [hslots] at hslot
  rw [hnext]
  rcases mem_append.mp hslot with hb | hr
  · exact mem_append_left _ hb
  · rcases mem_cons.mp hr with rfl | ha
    · exact absurd hfree htaken
    · exact mem_append_right _ (mem_cons_of_mem _ ha)

lemma mem_places (h : Noted stringify preserveLifecycle cached seen state) {slot : Slot}
    (hslot : slot ∈ state.2) : slot.cached ∈ cached := by
  rw [← h.places]
  exact mem_map_of_mem hslot

/-- The items not yet offered take their own places exactly when no boundary takes one. -/
lemma ownSoFar_iff {cached : List Json} (hc : UniqueIds cached) (hcid : Identified cached)
    (later : List Json) :
    ∀ {seen : List Json} {state : Matching × List Slot},
      Noted stringify preserveLifecycle cached seen state → UniqueIds (seen ++ later) →
        Identified (seen ++ later) → OwnSoFar seen state.2 → Later later state.2 →
          (OwnSoFar (seen ++ later) (later.foldl (offerSlot stringify preserveLifecycle) state).2 ↔
            OwnPlaces stringify (freeItems state.1.result) later) := by
  induction later with
  | nil =>
    intro seen state _ _ _ hown _
    rw [append_nil]
    exact ⟨fun _ => trivial, fun _ => hown⟩
  | cons item rest ih =>
  intro seen state h hu hid hown hlater
  have hitem : idOf item ≠ none := hid item (mem_append_right _ mem_cons_self)
  have hutail : UniqueIds (item :: rest) :=
    ((sublist_append_right seen (item :: rest)).filterMap idOf).nodup hu
  have hsplit : seen ++ item :: rest = seen ++ [item] ++ rest := by
    rw [append_assoc]
    rfl
  -- A free place of the item's id would have been found by it.
  have hnoid : (freeItems state.1.result).find?
      (fun candidate => decide (itemId candidate = itemId item)) = none →
        ∀ slot ∈ state.2, idOf item ≠ idOf slot.cached := by
    intro hnone slot hslot heq
    cases hin : slot.incoming with
    | none =>
      have hnot := find?_eq_none.mp hnone slot.cached (h.mem_free hslot hin)
      apply hnot
      exact decide_eq_true ((itemId_eq_iff (hcid _ (mem_places h hslot))).mpr heq.symm)
    | some x =>
      exact hlater slot hslot (by rw [hin]; exact Option.some_ne_none x) item mem_cons_self heq
  have hnext := h.offer item
  rw [hsplit, foldl_cons]
  rw [hsplit] at hu hid
  rcases offerSlot_offered h item with ⟨hslots, hres, -, hbyId, hbyBoundary⟩ |
    ⟨before, slot, after, hslots, hfree, hnextSlots, -, -, hfreeNext, hfound⟩
  · refine (ih hnext hu hid ?_ ?_).trans ?_
    · rw [hslots]
      intro slot hslot x hx heq
      rcases mem_append.mp hx with hx | hx
      · exact hown slot hslot x hx heq
      · rw [mem_singleton.mp hx] at heq
        exact absurd heq (hnoid hbyId slot hslot)
    · rw [hslots]
      intro slot hslot htaken x hx
      exact hlater slot hslot htaken x (mem_cons_of_mem _ hx)
    · rw [hres, OwnPlaces.eq_2, hbyId]
      simp only [hbyBoundary]
  have hslot : slot ∈ state.2 := by
    rw [hslots]
    exact mem_append_right _ mem_cons_self
  have hrestSlots : ∀ other, other ∈ before ++ after → other ∈ state.2 := by
    intro other hother
    rw [hslots]
    exact (List.Sublist.append_left (sublist_cons_self slot after) before).subset hother
  have hnextMem : ∀ other, other ∈ (offerSlot stringify preserveLifecycle state item).2 →
      other = ⟨slot.cached, some item⟩ ∨ other ∈ before ++ after := by
    intro other hother
    rw [hnextSlots] at hother
    rcases mem_append.mp hother with hb | hr
    · exact .inr (mem_append_left _ hb)
    · rcases mem_cons.mp hr with heq | ha
      · exact .inl heq
      · exact .inr (mem_append_right _ ha)
  have hotherIds : ∀ other ∈ before ++ after, idOf other.cached ≠ idOf slot.cached := by
    intro other hother
    have hplaces := hc
    rw [← h.places, hslots, map_append, map_cons] at hplaces
    have hfront : UniqueIds (slot.cached :: (before.map Slot.cached ++ after.map Slot.cached)) :=
      ((perm_middle.filterMap idOf).nodup_iff).mp hplaces
    refine hfront.not_mem_tail (hcid _ (mem_places h hslot)) other.cached ?_
    rw [← map_append]
    exact mem_map_of_mem hother
  have hoth : ∀ other ∈ before ++ after, idOf item ≠ idOf other.cached := by
    intro other hother heq
    rcases hfound with hbyId | ⟨hnone, -⟩
    · have hp := find?_some hbyId
      have hsame := (itemId_eq_iff (hcid _ (mem_places h hslot))).mp (of_decide_eq_true hp)
      exact hotherIds other hother (heq.symm.trans hsame.symm)
    · exact hnoid hnone other (hrestSlots other hother) heq
  have hownNext : OwnSoFar (seen ++ [item])
      (offerSlot stringify preserveLifecycle state item).2 := by
    intro other hother x hx heq
    rcases hnextMem other hother with rfl | hkept
    · rcases mem_append.mp hx with hx | hx
      · have htook := hown slot hslot x hx heq
        rw [hfree] at htook
        cases htook
      · rw [mem_singleton.mp hx]
    rcases mem_append.mp hx with hx | hx
    · exact hown other (hrestSlots other hkept) x hx heq
    · rw [mem_singleton.mp hx] at heq
      exact absurd heq (hoth other hkept)
  -- A place that no later item has the id of is taken for good.
  have hstep : (∀ x ∈ rest, idOf x ≠ idOf slot.cached) →
      (OwnSoFar (seen ++ [item] ++ rest) (rest.foldl (offerSlot stringify preserveLifecycle)
          (offerSlot stringify preserveLifecycle state item)).2 ↔
        OwnPlaces stringify ((freeItems state.1.result).erase slot.cached) rest) := by
    intro hclear
    rw [← hfreeNext]
    refine ih hnext hu hid hownNext ?_
    intro other hother htaken x hx
    rcases hnextMem other hother with rfl | hkept
    · exact hclear x hx
    · exact hlater other (hrestSlots other hkept) htaken x (mem_cons_of_mem _ hx)
  rw [OwnPlaces.eq_2]
  rcases hfound with hbyId | ⟨hnone, hbd⟩
  · rw [hbyId]
    refine hstep ?_
    have hp := find?_some hbyId
    rw [(itemId_eq_iff (hcid _ (mem_places h hslot))).mp (of_decide_eq_true hp)]
    exact hutail.not_mem_tail hitem
  rw [hnone]
  simp only [hbd]
  have hids : (∀ other ∈ rest, itemId other ≠ itemId slot.cached) ↔
      ∀ x ∈ rest, idOf x ≠ idOf slot.cached := by
    refine forall₂_congr (fun x hx => not_congr (itemId_eq_iff ?_))
    exact hid x (mem_append_right _ hx)
  rw [hids]
  constructor
  · intro hfinal
    have hclear : ∀ x ∈ rest, idOf x ≠ idOf slot.cached := by
      intro x hx heq
      have hmem : (⟨slot.cached, some item⟩ : Slot) ∈
          (rest.foldl (offerSlot stringify preserveLifecycle)
            (offerSlot stringify preserveLifecycle state item)).2 := by
        refine offerSlot_taken rest hnext ?_ (Option.some_ne_none item)
        rw [hnextSlots]
        exact mem_append_right _ mem_cons_self
      have hsame := Option.some.inj (hfinal _ hmem x (mem_append_right _ hx) heq)
      exact hutail.not_mem_tail hitem x hx (by rw [hsame])
    exact ⟨hclear, (hstep hclear).mp hfinal⟩
  · rintro ⟨hclear, hplaces⟩
    exact (hstep hclear).mpr hplaces

lemma ownPlaces_nil (incoming : List Json) : OwnPlaces stringify [] incoming := by
  induction incoming with
  | nil => trivial
  | cons item later ih =>
  rw [OwnPlaces.eq_2]
  simp only [find?_nil, ite_self]
  exact ih

/-! ## A list that has every incoming item -/

lemma Matching.offer_settled {m : Matching} {item old : Json}
    (hu : UniqueIds (m.result.map Place.item)) (hid : idOf item ≠ none)
    (hfree : ⟨old, false⟩ ∈ m.result) (hsame : idOf old = idOf item)
    (hmark : preserveProjectedItemMarkers item old preserveLifecycle = old) :
    ∃ before after, m.result = before ++ ⟨old, false⟩ :: after ∧
      m.offer stringify preserveLifecycle item =
        { m with result := before ++ ⟨old, true⟩ :: after } := by
  have hsome : idOf old ≠ none := by
    rw [hsame]
    exact hid
  cases hplace : freePlace m.result (fun candidate => decide (itemId candidate = itemId item)) with
  | none =>
    have hold : old ∈ freeItems m.result :=
      mem_map_of_mem (mem_filter.mpr ⟨hfree, rfl⟩)
    have hnot := freePlace_eq_none hplace old hold
    exact absurd ((itemId_eq_iff hsome).mpr hsame) (of_decide_eq_false hnot)
  | some i =>
  obtain ⟨before, found, after, hres, hlen, hp⟩ := freePlace_spec hplace
  have hmem : found ∈ m.result.map Place.item := by
    rw [hres]
    simp
  have hfound : found = old := by
    refine (hu.eq_of_idOf (mem_map_of_mem hfree) hmem ?_ hsome).symm
    exact (itemId_eq_iff hsome).mp
      (((itemId_eq_iff hsome).mpr hsame).trans (of_decide_eq_true hp).symm)
  subst hfound
  refine ⟨before, after, hres, ?_⟩
  unfold Matching.offer matchPlace
  rw [hplace, Option.some_or]
  simp only
  rw [hres, ← hlen, modify_append_cons, hmark]

variable {items incoming : List Json}

lemma reconcileItems_settled (hu : UniqueIds items)
    (hi : UniqueIds incoming) (hid : Identified incoming)
    (h : ∀ item ∈ incoming, ∃ old ∈ items, idOf old = idOf item ∧
      preserveProjectedItemMarkers item old preserveLifecycle = old) :
    reconcileItems stringify items incoming preserveLifecycle = items := by
  have hfold : ∀ (later : List Json) (m : Matching), UniqueIds later → Identified later →
      m.leading = [] → m.trailing = [] → m.result.map Place.item = items →
        (∀ place ∈ m.result, place.taken = true → ∀ item ∈ later, idOf item ≠ idOf place.item) →
          (∀ item ∈ later, ∃ old ∈ items, idOf old = idOf item ∧
            preserveProjectedItemMarkers item old preserveLifecycle = old) →
            (later.foldl (Matching.offer stringify preserveLifecycle) m).items = items := by
    intro later
    induction later with
    | nil =>
      intro m _ _ hleading htrailing hres _ _
      rw [foldl_nil, Matching.items, hleading, htrailing, hres]
      simp
    | cons item rest ih =>
    intro m hul hidl hleading htrailing hres htaken hpres
    have hitem : idOf item ≠ none := hidl item mem_cons_self
    obtain ⟨old, hold, hsame, hmark⟩ := hpres item mem_cons_self
    obtain ⟨⟨_, taken⟩, hplace, rfl⟩ := mem_map.mp (hres ▸ hold)
    cases taken with
    | true => exact absurd hsame.symm (htaken _ hplace rfl item mem_cons_self)
    | false =>
    obtain ⟨before, after, hsplit, hoffer⟩ :=
      Matching.offer_settled (hres ▸ hu) hitem hplace hsame hmark
    rw [foldl_cons, hoffer]
    refine ih _ (((sublist_cons_self item rest).filterMap idOf).nodup hul)
      (fun x hx => hidl x (mem_cons_of_mem _ hx)) hleading htrailing ?_ ?_
      (fun x hx => hpres x (mem_cons_of_mem _ hx))
    · rw [hsplit] at hres
      simpa using hres
    intro place hmem hplaceTaken x hx
    rcases mem_append.mp hmem with hb | hr
    · refine htaken place ?_ hplaceTaken x (mem_cons_of_mem _ hx)
      rw [hsplit]
      exact mem_append_left _ hb
    rcases mem_cons.mp hr with rfl | ha
    · rw [hsame]
      exact hul.not_mem_tail hitem x hx
    · refine htaken place ?_ hplaceTaken x (mem_cons_of_mem _ hx)
      rw [hsplit]
      exact mem_append_right _ (mem_cons_of_mem _ ha)
  unfold reconcileItems
  split
  · rename_i hnil
    subst hnil
    cases incoming with
    | nil => rfl
    | cons item rest =>
      obtain ⟨old, hold, -⟩ := h item mem_cons_self
      cases hold
  split
  · rfl
  refine hfold incoming (.start items) hi hid rfl rfl ?_ ?_ h
  · unfold Matching.start
    rw [map_map]
    exact map_id items
  · intro place hplace htaken
    obtain ⟨item, -, rfl⟩ := mem_map.mp hplace
    cases htaken

/-! ## A whole reconciliation -/

lemma not_async_of_boundary {left right : Json}
    (h : sameLogicalBoundary stringify left right = true) :
    isAsync left = false ∧ isAsync right = false := by
  have hother : ∀ {item : Json} {t : String}, itemType item = some t → t ≠ "agentMessage" →
      isAsync item = false := by
    intro item t ht hne
    unfold isAsync
    rw [ht, decide_eq_false (fun heq => hne (Option.some.inj heq))]
    rfl
  have hdlv : ∀ {item : Json}, item.get? "delivery" ≠ some (.str "async") →
      isAsync item = false := by
    intro item hne
    unfold isAsync
    rw [decide_eq_false hne, Bool.and_false]
  unfold sameLogicalBoundary at h
  split at h
  · rename_i htypes
    exact ⟨hother htypes.1 (by decide), hother htypes.2 (by decide)⟩
  split at h
  · rename_i htypes
    exact ⟨hother htypes.1 (by decide), hother htypes.2 (by decide)⟩
  split at h
  · cases h
  split at h
  · cases h
  · rename_i hdelivery
    rw [not_or] at hdelivery
    exact ⟨hdlv hdelivery.1, hdlv hdelivery.2⟩

variable (stringify preserveLifecycle) in
lemma Noted.start (cached : List Json) : Noted stringify preserveLifecycle cached []
      (.start cached, cached.map (fun item => ⟨item, none⟩)) := by
  refine ⟨?_, ?_, ?_, ?_⟩
  · simp only [map_map]
    exact map_id cached
  · simp only [start, map_map]
    rfl
  · have hnone : (cached.map (fun item => (⟨item, none⟩ : Slot))).filterMap Slot.incoming = [] := by
      rw [filterMap_map]
      exact filterMap_eq_nil_iff.mpr (fun _ _ => rfl)
    simp only [hnone]
    exact List.Perm.refl []
  · intro slot hslot item hitem
    obtain ⟨old, -, rfl⟩ := mem_map.mp hslot
    cases hitem

lemma Noted.foldl {cached : List Json} : ∀ {seen : List Json} {state : Matching × List Slot},
      Noted stringify preserveLifecycle cached seen state →
        Noted stringify preserveLifecycle cached (seen ++ later)
          (later.foldl (offerSlot stringify preserveLifecycle) state) := by
  induction later with
  | nil =>
    intro seen state h
    rw [append_nil]
    exact h
  | cons item rest ih =>
  intro seen state h
  have hnext := ih (h.offer item)
  rw [append_assoc] at hnext
  exact hnext

variable (stringify preserveLifecycle) in
lemma foldl_offerSlot_fst (state : Matching × List Slot) :
    (later.foldl (offerSlot stringify preserveLifecycle) state).1 =
      later.foldl (Matching.offer stringify preserveLifecycle) state.1 := by
  induction later generalizing state with
  | nil => rfl
  | cons item rest ih => exact ih _

lemma reconcileItems_again {leading trailing : List Json}
    {slots : List Slot} (hi : UniqueIds incoming) (hid : Identified incoming)
    (hu : UniqueIds items)
    (hitems : items = leading ++ slots.map (Slot.item preserveLifecycle) ++ trailing)
    (honce : (leading ++ slots.filterMap Slot.incoming ++ trailing).Perm incoming) :
    reconcileItems stringify items incoming preserveLifecycle = items := by
  refine reconcileItems_settled hu hi hid ?_
  intro item hitem
  rw [hitems]
  rcases mem_append.mp (honce.mem_iff.mpr hitem) with hfront | htrailing
  · rcases mem_append.mp hfront with hleading | htaken
    · exact ⟨item, mem_append_left _ (mem_append_left _ hleading), rfl,
        preserveProjectedItemMarkers_self item preserveLifecycle⟩
    obtain ⟨slot, hslot, htook⟩ := mem_filterMap.mp htaken
    have hshown : slot.item preserveLifecycle =
        preserveProjectedItemMarkers item slot.cached preserveLifecycle := by
      unfold Slot.item
      rw [htook]
    refine ⟨slot.item preserveLifecycle, mem_append_left _ (mem_append_right _
      (mem_map_of_mem hslot)), ?_, ?_⟩
    · rw [hshown]
      exact idOf_eq_of_sig (sig_preserveProjectedItemMarkers item slot.cached preserveLifecycle)
    · rw [hshown]
      exact preserveProjectedItemMarkers_again (hid item hitem) slot.cached preserveLifecycle
  · exact ⟨item, mem_append_right _ htrailing, rfl,
      preserveProjectedItemMarkers_self item preserveLifecycle⟩

/-- Either variant does its part exactly when no boundary takes another item's place. -/
lemma reconciles_iff {cached incoming : List Json} (hc : UniqueIds cached)
    (hi : UniqueIds incoming) (hcid : Identified cached) (hid : Identified incoming) :
    Reconciles stringify preserveLifecycle cached incoming ↔
      OwnPlaces stringify cached incoming := by
  have huniq := uniqueIds_reconcileItems stringify preserveLifecycle hc hi
  by_cases hnil : cached = []
  · subst hnil
    have hassigned : assigned stringify preserveLifecycle [] incoming =
        (⟨incoming, [], []⟩, []) := by
      unfold assigned
      rw [if_pos rfl]
    have hitems : reconcileItems stringify [] incoming preserveLifecycle =
        incoming ++ ([] : List Slot).map (Slot.item preserveLifecycle) ++ [] := by
      unfold reconcileItems
      rw [if_pos rfl]
      simp
    have honce : (incoming ++ ([] : List Slot).filterMap Slot.incoming ++ []).Perm incoming := by
      simp
    refine iff_of_true ?_ (ownPlaces_nil incoming)
    refine ⟨?_, ?_, ?_, ?_, huniq, ?_, ?_, reconcileItems_again hi hid huniq hitems honce⟩
      <;> rw [hassigned]
    · rfl
    · exact hitems
    · exact honce
    all_goals
      intro slot hslot
      cases hslot
  have hassigned : assigned stringify preserveLifecycle cached incoming =
      incoming.foldl (offerSlot stringify preserveLifecycle)
        (.start cached, cached.map (fun item => ⟨item, none⟩)) := by
    unfold assigned
    rw [if_neg hnil]
  have hstart := Noted.start stringify preserveLifecycle cached
  have hnoted := hstart.foldl incoming
  rw [nil_append, ← hassigned] at hnoted
  have hitems : reconcileItems stringify cached incoming preserveLifecycle =
      (assigned stringify preserveLifecycle cached incoming).1.leading ++
        (assigned stringify preserveLifecycle cached incoming).2.map
          (Slot.item preserveLifecycle) ++
            (assigned stringify preserveLifecycle cached incoming).1.trailing := by
    have hrun : reconcileItems stringify cached incoming preserveLifecycle =
        (incoming.foldl (offer stringify preserveLifecycle) (.start cached)).items := by
      unfold reconcileItems
      rw [if_neg hnil]
      split
      · rename_i hempty
        subst hempty
        simp [items, start, Function.comp_def]
      · rfl
    have hfst := foldl_offerSlot_fst stringify preserveLifecycle incoming
      (.start cached, cached.map (fun item => ⟨item, none⟩))
    rw [← hassigned] at hfst
    rw [hrun, ← hfst, items, hnoted.result, map_map]
    rfl
  have hown := ownSoFar_iff hc hcid incoming hstart (by rw [nil_append]; exact hi)
    (by rw [nil_append]; exact hid) (fun _ _ x hx => by cases hx)
    (fun slot hslot htaken => by
      obtain ⟨old, -, rfl⟩ := mem_map.mp hslot
      exact absurd rfl htaken)
  rw [nil_append, ← hassigned] at hown
  have hfree : freeItems (start cached).result = cached := by
    unfold freeItems start
    rw [filter_eq_self.mpr (by simp), map_map]
    exact map_id cached
  simp only [hfree] at hown
  refine Iff.trans ⟨fun h => h.own, fun h => ?_⟩ hown
  refine ⟨hnoted.places, hitems, hnoted.once, ?_, huniq, h, ?_,
    reconcileItems_again hi hid huniq hitems hnoted.once⟩
  · intro slot hslot item htook
    unfold Slot.item
    rw [htook]
    exact idOf_eq_of_sig (sig_preserveProjectedItemMarkers item slot.cached preserveLifecycle)
  intro slot hslot item htook hasync
  rcases hnoted.matched slot hslot item htook with hsame | hbd
  · exact hsame
  · obtain ⟨hleft, hright⟩ := not_async_of_boundary hbd
    rw [hleft, hright] at hasync
    rcases hasync with hfalse | hfalse <;> cases hfalse

end Steps

end Slots

/-- Every item is placed as it should exactly when no boundary takes a later item's place. -/
theorem every_item_in_place (stringify : Json → String) {cached incoming : List Json}
    (hc : UniqueIds cached) (hi : UniqueIds incoming) (hcid : Identified cached)
    (hid : Identified incoming) :
    (Reconciles stringify false cached incoming ∧ Reconciles stringify true cached incoming) ↔
      OwnPlaces stringify cached incoming := by
  rw [reconciles_iff hc hi hcid hid, reconciles_iff hc hi hcid hid, and_self_iff]

def userText (id text : String) : Json :=
  .obj [("type", .str "userMessage"), ("id", .str id),
    ("content", .arr [.obj [("type", .str "text"), ("text", .str text)]])]

def agentText (id text : String) : Json :=
  .obj [("type", .str "agentMessage"), ("id", .str id), ("text", .str text)]

/-- An agent's message comes back under another id, and the question in its own place. -/
theorem every_item_in_place_of_answer :
    Reconciles (fun _ => "") false [userText "u" "Hello", agentText "b" "Hi"]
        [userText "u" "Hello", agentText "a" "Hi"] ∧
      Reconciles (fun _ => "") true [userText "u" "Hello", agentText "b" "Hi"]
        [userText "u" "Hello", agentText "a" "Hi"] :=
  (every_item_in_place (fun _ => "") (by decide) (by decide) (by decide) (by decide)).mpr
    (by
      refine ⟨?_, trivial⟩
      intro other hother
      cases hother)

/-- The same text sent again takes the place of the cached message, which comes after it. -/
theorem repeated_text_takes_place :
    ¬ ∀ (stringify : Json → String) (cached incoming : List Json), UniqueIds cached →
      UniqueIds incoming → Identified cached → Identified incoming →
        Reconciles stringify false cached incoming ∧
          Reconciles stringify true cached incoming := by
  intro h
  have hown := (h (fun _ => "") [userText "b" "Hello"]
    [userText "a" "Hello", userText "b" "Hello"] (by decide) (by decide) (by decide)
    (by decide)).1.own ⟨userText "b" "Hello", some (userText "a" "Hello")⟩ (by decide)
    (userText "b" "Hello") (by decide) rfl
  exact absurd hown (by decide)

end CodeWide.Projection
