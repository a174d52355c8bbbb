import CodeWide.Lib.Positions
import CodeWide.Projection.Items
import Mathlib.Data.List.Nodup

/-!
# What a reconciliation keeps

The incoming items all appear under their own id and type, and where the cached ids differ from each
other and the incoming ids do, the ids of the result do.
-/

namespace CodeWide.Projection

open Lib List

def idOf (item : Json) : Option String := strField item "id"

def UniqueIds (items : List Json) : Prop := (items.filterMap idOf).Nodup

instance (items : List Json) : Decidable (UniqueIds items) :=
  inferInstanceAs (Decidable (List.Nodup _))

def sig (item : Json) : Option Json × Option Json := (item.get? "id", item.get? "type")

variable {a b : Json}

lemma idOf_eq_of_sig (h : sig a = sig b) : idOf a = idOf b := by
  have hid : a.get? "id" = b.get? "id" := congrArg Prod.fst h
  unfold idOf strField
  rw [hid]

lemma itemType_eq_of_sig (h : sig a = sig b) : itemType a = itemType b := by
  have htype : a.get? "type" = b.get? "type" := congrArg Prod.snd h
  unfold itemType strField
  rw [htype]

lemma filterMap_idOf (items : List Json) :
    items.filterMap idOf = (items.map sig).filterMap (fun s => s.1.bind Json.asStr?) := by
  rw [filterMap_map]
  rfl

lemma uniqueIds_of_perm {items other : List Json} (h : (items.map sig).Perm (other.map sig))
    (hu : UniqueIds items) : UniqueIds other := by
  unfold UniqueIds at hu ⊢
  rw [filterMap_idOf] at hu ⊢
  exact (h.filterMap _).nodup_iff.mp hu

variable (item : Json)

lemma sig_insert {k : String} (x : Json) (hid : k ≠ "id") (htype : k ≠ "type") :
    sig (item.insert k x) = sig item := by
  unfold sig
  rw [Json.get?_insert_of_ne item x (Ne.symm hid), Json.get?_insert_of_ne item x (Ne.symm htype)]

lemma sig_erase {k : String} (hid : k ≠ "id") (htype : k ≠ "type") :
    sig (item.erase k) = sig item := by
  unfold sig
  rw [Json.get?_erase_of_ne item (Ne.symm hid), Json.get?_erase_of_ne item (Ne.symm htype)]

lemma sig_withClientId (clientId : Option Json) : sig (withClientId item clientId) = sig item := by
  cases clientId with
  | none => exact sig_erase item (by decide) (by decide)
  | some v => exact sig_insert item v (by decide) (by decide)

variable (incoming cached : Json)

lemma sig_preserveUserClientId : sig (preserveUserClientId incoming cached) = sig incoming := by
  unfold preserveUserClientId
  split
  · rfl
  split
  · rfl
  · split
    · rfl
    · exact sig_withClientId incoming _

lemma sig_preserveActiveAgentText (preserveLifecycle : Bool) :
    sig (preserveActiveAgentText incoming cached preserveLifecycle) = sig incoming := by
  unfold preserveActiveAgentText
  split
  · rfl
  · exact sig_insert incoming _ (by decide) (by decide)

lemma sig_ite {c : Prop} [Decidable c] {s : Option Json × Option Json}
    (ha : sig a = s) (hb : sig b = s) : sig (if c then a else b) = s := by
  split
  · exact ha
  · exact hb

lemma sig_preserveProjectedItemMarkers (preserveLifecycle : Bool) :
    sig (preserveProjectedItemMarkers incoming cached preserveLifecycle) = sig incoming := by
  have hcli : sig (preserveUserClientId
      (preserveActiveAgentText incoming cached preserveLifecycle) cached) = sig incoming := by
    rw [sig_preserveUserClientId, sig_preserveActiveAgentText]
  have hpre := (sig_insert (preserveUserClientId
      (preserveActiveAgentText incoming cached preserveLifecycle) cached) (.bool true)
    (show "codewidePreTurn" ≠ "id" by decide) (by decide)).trans hcli
  unfold preserveProjectedItemMarkers
  simp only
  split
  · refine sig_ite ?_ (sig_ite hpre hcli)
    exact (sig_insert _ _ (by decide) (by decide)).trans (sig_ite hpre hcli)
  · exact sig_ite hpre hcli

def takenItems (result : List Place) : List Json :=
  (result.filter Place.taken).map Place.item

def freeItems (result : List Place) : List Json :=
  (result.filter (fun place => !place.taken)).map Place.item

lemma freePlace_spec {result : List Place} {p : Json → Bool} {i : Nat}
    (h : freePlace result p = some i) :
    ∃ before item after, result = before ++ ⟨item, false⟩ :: after ∧ before.length = i ∧
      p item = true := by
  obtain ⟨hi, hp, -⟩ := findIdx?_eq_some_iff_getElem.mp h
  obtain ⟨⟨item, taken⟩, hplace⟩ : ∃ place, result[i] = place := ⟨_, rfl⟩
  rw [hplace] at hp
  cases taken with
  | true => simp at hp
  | false =>
  refine ⟨result.take i, item, result.drop (i + 1), ?_, length_take_of_le (by omega), ?_⟩
  · rw [← hplace, getElem_cons_drop hi, take_append_drop]
  · simpa using hp

lemma freePlace_eq_none {result : List Place} {p : Json → Bool}
    (h : freePlace result p = none) : ∀ item ∈ freeItems result, p item = false := by
  intro item hitem
  obtain ⟨place, hplace, rfl⟩ := mem_map.mp hitem
  obtain ⟨hmem, hfree⟩ := mem_filter.mp hplace
  have hnot := findIdx?_eq_none_iff.mp h place hmem
  simp only [hfree, Bool.true_and] at hnot
  exact hnot

lemma takenItems_append (l m : List Place) :
    takenItems (l ++ m) = takenItems l ++ takenItems m := by
  simp [takenItems]

lemma freeItems_append (l m : List Place) : freeItems (l ++ m) = freeItems l ++ freeItems m := by
  simp [freeItems]

lemma items_perm (result : List Place) :
    (result.map Place.item).Perm (takenItems result ++ freeItems result) := by
  unfold takenItems freeItems
  rw [← map_append]
  exact (filter_append_perm Place.taken result).symm.map _

variable (stringify : Json → String) (preserveLifecycle : Bool)

def Matching.own (m : Matching) : List Json := m.leading ++ takenItems m.result ++ m.trailing

structure Matched (cached seen : List Json) (m : Matching) : Prop where
  own : (m.own.map sig).Perm (seen.map sig)
  free_sublist : (freeItems m.result).Sublist cached
  /-- A place left free holds no id that was offered. -/
  free_fresh : ∀ item ∈ freeItems m.result, ∀ id, idOf item = some id → id ∉ seen.filterMap idOf

lemma Matched.start (cached : List Json) : Matched cached [] (.start cached) := by
  have htaken : takenItems (Matching.start cached).result = [] := by
    simp [takenItems, Matching.start, filter_eq_nil_iff]
  have hfree : freeItems (Matching.start cached).result = cached := by
    unfold freeItems Matching.start
    rw [filter_eq_self.mpr (by simp), map_map]
    exact map_id cached
  refine ⟨?_, ?_, ?_⟩
  · rw [Matching.own, htaken]
    rfl
  · rw [hfree]
  · intro item _ id _
    exact not_mem_nil

variable {item : Json}

lemma mem_seen_append {seen : List Json} {id : String} :
    id ∈ (seen ++ [item]).filterMap idOf ↔ id ∈ seen.filterMap idOf ∨ idOf item = some id := by
  rw [filterMap_append, mem_append]
  refine or_congr Iff.rfl ?_
  rw [mem_filterMap]
  simp

variable {cached seen : List Json}

variable {m : Matching}

lemma Matched.offer_end
    (h : Matched cached seen m) (next : Matching) (hres : next.result = m.result)
    (hown : (next.own.map sig).Perm (sig item :: m.own.map sig))
    (hnone : freePlace m.result (fun c => decide (itemId c = itemId item)) = none) :
    Matched cached (seen ++ [item]) next := by
  refine ⟨?_, ?_, ?_⟩
  · rw [map_append]
    exact hown.trans ((h.own.cons _).trans (perm_append_singleton _ _).symm)
  · rw [hres]
    exact h.free_sublist
  intro x hx id hid hmem
  rw [hres] at hx
  rcases mem_seen_append.mp hmem with hseen | hitem
  · exact h.free_fresh x hx id hid hseen
  have hne := freePlace_eq_none hnone x hx
  simp only [decide_eq_false_iff_not] at hne
  apply hne
  obtain ⟨v, hv, hs⟩ := Option.bind_eq_some_iff.mp hid
  obtain ⟨w, hw, hs'⟩ := Option.bind_eq_some_iff.mp hitem
  unfold itemId
  rw [hv, hw]
  cases v <;> simp only [Json.asStr?, reduceCtorEq, Option.some.injEq] at hs
  cases w <;> simp only [Json.asStr?, reduceCtorEq, Option.some.injEq] at hs'
  rw [hs, hs']

lemma Matched.offer_place {i : Nat} (hu : UniqueIds cached) (h : Matched cached seen m)
    (hplace : matchPlace stringify m.result item = some i) :
    Matched cached (seen ++ [item]) { m with
      result := m.result.modify i (fun place =>
        ⟨preserveProjectedItemMarkers item place.item preserveLifecycle, true⟩) } := by
  obtain ⟨leading, result, trailing⟩ := m
  -- The place is free; by id it is the only free one with that id.
  have hspec : ∃ before old after, result = before ++ ⟨old, false⟩ :: after ∧ before.length = i ∧
      (itemId old = itemId item ∨
        freePlace result (fun c => decide (itemId c = itemId item)) = none) := by
    unfold matchPlace at hplace
    cases hid : freePlace result (fun c => decide (itemId c = itemId item)) with
    | some j =>
      rw [hid] at hplace
      cases hplace
      obtain ⟨before, old, after, heq, hlen, hp⟩ := freePlace_spec hid
      exact ⟨before, old, after, heq, hlen, .inl (of_decide_eq_true hp)⟩
    | none =>
    rw [hid, Option.none_or] at hplace
    split at hplace
    · obtain ⟨before, old, after, heq, hlen, -⟩ := freePlace_spec hplace
      exact ⟨before, old, after, heq, hlen, .inr rfl⟩
    · cases hplace
  obtain ⟨before, old, after, rfl, rfl, hcase⟩ := hspec
  have hfree : freeItems (before ++ ⟨old, false⟩ :: after) =
      freeItems before ++ old :: freeItems after := by
    rw [freeItems_append]
    rfl
  have hsub := h.free_sublist
  have hfresh := h.free_fresh
  simp only [hfree] at hsub hfresh
  rw [modify_append_cons]
  have hfree' : ∀ new : Json, freeItems (before ++ ⟨new, true⟩ :: after) =
      freeItems before ++ freeItems after := by
    intro new
    rw [freeItems_append]
    rfl
  refine ⟨?_, ?_, ?_⟩
  · -- The new item joins the taken ones.
    have hown := h.own
    unfold Matching.own at hown ⊢
    simp only [takenItems_append, map_append] at hown ⊢
    have hnew : takenItems (⟨preserveProjectedItemMarkers item old preserveLifecycle, true⟩
        :: after) = preserveProjectedItemMarkers item old preserveLifecycle ::
          takenItems after := rfl
    have hold : takenItems (⟨old, false⟩ :: after) = takenItems after := rfl
    rw [hold] at hown
    rw [hnew, map_cons, sig_preserveProjectedItemMarkers]
    refine List.Perm.trans ?_ ((hown.cons (sig item)).trans (perm_append_singleton _ _).symm)
    simp only [append_assoc, cons_append]
    refine List.Perm.trans (List.Perm.append_left _ perm_middle) ?_
    exact perm_middle
  · simp only [hfree']
    exact ((List.Sublist.refl _).append (sublist_cons_self old _)).trans hsub
  intro x hx id hid hmem
  simp only [hfree'] at hx
  have hx' : x ∈ freeItems before ++ old :: freeItems after :=
    ((List.Sublist.refl _).append (sublist_cons_self old _)).subset hx
  rcases mem_seen_append.mp hmem with hseen | hitem
  · exact hfresh x hx' id hid hseen
  rcases hcase with hold | hnone
  · -- Two free places with this id would repeat a cached id.
    have hidold : idOf old = some id := by
      unfold idOf strField
      unfold itemId at hold
      rw [hold]
      exact hitem
    have hnodup := (hsub.filterMap idOf).nodup hu
    rw [filterMap_append, filterMap_cons, hidold] at hnodup
    have hcount := nodup_middle.mp hnodup
    apply (nodup_cons.mp hcount).1
    rw [← filterMap_append]
    exact mem_filterMap.mpr ⟨x, hx, hid⟩
  have hend := h.offer_end ⟨leading ++ [item], _, trailing⟩ rfl (by
      simp only [Matching.own, map_append, map_cons, append_assoc, singleton_append]
      exact perm_middle) hnone
  refine hend.free_fresh x ?_ id hid hmem
  simp only [hfree]
  exact hx'

lemma Matched.offer (hu : UniqueIds cached) (h : Matched cached seen m) (item : Json) :
    Matched cached (seen ++ [item]) (m.offer stringify preserveLifecycle item) := by
  unfold Matching.offer
  split
  · rename_i hnone
    have hid : freePlace m.result (fun c => decide (itemId c = itemId item)) = none :=
      (Option.or_eq_none_iff.mp hnone).1
    split
    · refine h.offer_end _ rfl ?_ hid
      simp only [Matching.own, map_append, map_cons, append_assoc, singleton_append]
      exact perm_middle
    refine h.offer_end _ rfl ?_ hid
    simp only [Matching.own, map_append, map_cons, map_nil]
    rw [← append_assoc]
    exact perm_append_comm
  · rename_i i hplace
    exact Matched.offer_place stringify preserveLifecycle hu h hplace

lemma Matched.run {cached : List Json} (hu : UniqueIds cached) (incoming : List Json) :
    Matched cached incoming
      (incoming.foldl (Matching.offer stringify preserveLifecycle) (.start cached)) := by
  have hfold : ∀ (rest seen : List Json) (m : Matching), Matched cached seen m →
      Matched cached (seen ++ rest)
        (rest.foldl (Matching.offer stringify preserveLifecycle) m) := by
    intro rest
    induction rest with
    | nil =>
      intro seen m h
      rw [append_nil]
      exact h
    | cons item rest ih =>
    intro seen m h
    have hnext := ih (seen ++ [item]) _ (h.offer stringify preserveLifecycle hu item)
    rw [append_assoc] at hnext
    exact hnext
  exact hfold incoming [] _ (.start cached)

lemma reconcileItems_perm {cached : List Json} (hu : UniqueIds cached) (incoming : List Json) :
    ∃ left : List Json, left.Sublist cached ∧
      (∀ item ∈ left, ∀ id, idOf item = some id → id ∉ incoming.filterMap idOf) ∧
      ((reconcileItems stringify cached incoming preserveLifecycle).map sig).Perm
        (incoming.map sig ++ left.map sig) := by
  unfold reconcileItems
  split
  · exact ⟨[], nil_sublist _, by simp, by simp⟩
  split
  · rename_i hinc
    subst hinc
    exact ⟨cached, List.Sublist.refl _, fun _ _ _ _ => not_mem_nil, by simp⟩
  have hrun := Matched.run stringify preserveLifecycle hu incoming
  refine ⟨_, hrun.free_sublist, hrun.free_fresh, ?_⟩
  refine List.Perm.trans ?_ (hrun.own.append_right _)
  unfold Matching.items Matching.own
  rw [← map_append]
  refine List.Perm.map _ ?_
  simp only [append_assoc]
  refine List.Perm.append_left _ ?_
  refine ((items_perm _).append_right _).trans ?_
  rw [append_assoc]
  exact List.Perm.append_left _ perm_append_comm

lemma mem_reconcileItems {cached incoming : List Json} (hu : UniqueIds cached)
    (h : item ∈ incoming) :
    ∃ kept ∈ reconcileItems stringify cached incoming preserveLifecycle, sig kept = sig item := by
  obtain ⟨left, -, -, hperm⟩ := reconcileItems_perm stringify preserveLifecycle hu incoming
  have hmem : sig item ∈ incoming.map sig ++ left.map sig :=
    mem_append_left _ (mem_map_of_mem h)
  obtain ⟨kept, hkept, hsig⟩ := mem_map.mp (hperm.mem_iff.mpr hmem)
  exact ⟨kept, hkept, hsig⟩

lemma uniqueIds_reconcileItems {cached incoming : List Json} (hc : UniqueIds cached)
    (hi : UniqueIds incoming) :
    UniqueIds (reconcileItems stringify cached incoming preserveLifecycle) := by
  obtain ⟨left, hsub, hfresh, hperm⟩ :=
    reconcileItems_perm stringify preserveLifecycle hc incoming
  have hboth : UniqueIds (incoming ++ left) := by
    unfold UniqueIds
    rw [filterMap_append, nodup_append]
    refine ⟨hi, (hsub.filterMap idOf).nodup hc, ?_⟩
    intro id hid other hother heq
    subst heq
    obtain ⟨item, hitem, hidof⟩ := mem_filterMap.mp hother
    exact hfresh item hitem id hidof hid
  rw [← map_append] at hperm
  exact uniqueIds_of_perm hperm.symm hboth

end CodeWide.Projection
