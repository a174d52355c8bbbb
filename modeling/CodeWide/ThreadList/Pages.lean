import CodeWide.ThreadList.Invariant

/-!
# Provider pages against the row store

A page carries the journal head `H` taken before the provider was read.
-/

namespace CodeWide.ThreadList

open Lib Table Json Option

/-! ## Fields of the merged row -/

section Fields

lemma isObj_of_threadIdOf {row : Json} {id : String} (h : threadIdOf row = some id) :
    row.isObj = true := by
  unfold threadIdOf at h
  obtain ⟨v, hv, -⟩ := bind_eq_some_iff.mp h
  exact isObj_of_get? hv

variable (row : Json)

lemma isObj_rowValue : (rowValue row).isObj = row.isObj := by
  cases row <;> rfl

variable {field : String}

lemma rowValue_get? (hturns : field ≠ "turns")
    (hmeta : field ≠ rowField) : (rowValue row).get? field = row.get? field := by
  unfold rowValue
  rw [Json.get?_erase_of_ne _ hmeta, Json.get?_insert_of_ne _ _ hturns]

variable (page previous : Json)

lemma isObj_retainStatus : (retainStatus page previous).isObj = page.isObj := by
  unfold retainStatus
  split
  · split
    · exact isObj_insert _ _ _
    · rfl
  · rfl

lemma retainStatus_get? (h : field ≠ "status") :
    (retainStatus page previous).get? field = page.get? field := by
  unfold retainStatus
  split
  · split
    · exact get?_insert_of_ne _ _ h
    · rfl
  · rfl

lemma retainRecency_get? (h : field ≠ "recencyAt") :
    (retainRecency page previous).get? field = page.get? field := by
  unfold retainRecency
  split
  · split
    · exact get?_insert_of_ne _ _ h
    · rfl
  · rfl

lemma retainLiveState_get? (hst : field ≠ "status") (hrecency : field ≠ "recencyAt") :
    (retainLiveState page previous).get? field = page.get? field := by
  unfold retainLiveState
  rw [retainRecency_get? _ _ hrecency, retainStatus_get? _ _ hst]

lemma statusType_rowValue : statusType (rowValue row) = statusType row := by
  unfold statusType
  rw [rowValue_get? row (by decide) (by decide)]

lemma recencyAt_rowValue : recencyAt (rowValue row) = recencyAt row := by
  unfold recencyAt
  rw [rowValue_get? row (by decide) (by decide)]

lemma retainLiveState_status_of_not {page previous : Json}
    (h : ¬ (statusType page = some "notLoaded" ∧ statusType previous = some "active")) :
    (retainLiveState page previous).get? "status" = page.get? "status" := by
  unfold retainLiveState retainStatus
  rw [retainRecency_get? _ _ (by decide), if_neg h]

lemma retainLiveState_recency_of_le {page previous : Json}
    (h : ∀ n, recencyAt previous = some n → ∃ m, recencyAt page = some m ∧ n ≤ m) :
    (retainLiveState page previous).get? "recencyAt" = page.get? "recencyAt" := by
  have hst : recencyAt (retainStatus page previous) = recencyAt page := by
    unfold recencyAt
    rw [retainStatus_get? _ _ (by decide)]
  have hfield := retainStatus_get? page previous (show "recencyAt" ≠ "status" by decide)
  unfold retainLiveState retainRecency
  split
  · rename_i n hn
    obtain ⟨m, hm, hle⟩ := h n hn
    rw [hst, hm, all_some, if_neg (by simpa using hle)]
    exact hfield
  · exact hfield

lemma retainLiveState_status {page previous : Json} (hobj : page.isObj = true)
    (hpage : statusType page = some "notLoaded") (hprev : statusType previous = some "active") :
    (retainLiveState page previous).get? "status" = previous.get? "status" := by
  unfold retainLiveState
  rw [retainRecency_get? _ _ (by decide)]
  unfold retainStatus
  rw [if_pos ⟨hpage, hprev⟩]
  cases hst : previous.get? "status" with
  | none => simp [statusType, hst] at hprev
  | some status => simp [get?_insert hobj]

lemma asI64?_range {v : Json} {n : Int} (h : v.asI64? = some n) : (int n).asI64? = some n := by
  cases v with
  | int m =>
    simp only [asI64?] at h
    split at h
    · cases h
      simp only [asI64?]
      rw [if_pos (by assumption)]
    · cases h
  | _ => cases h

lemma retainLiveState_recency {page previous : Json} (hobj : page.isObj = true) {n : Int}
    (hprev : recencyAt previous = some n) :
    ∃ m, recencyAt (retainLiveState page previous) = some m ∧ n ≤ m := by
  have hrange : (int n).asI64? = some n := by
    obtain ⟨v, -, hv⟩ := bind_eq_some_iff.mp hprev
    exact asI64?_range hv
  have hobj' : (retainStatus page previous).isObj = true := by
    rw [isObj_retainStatus]
    exact hobj
  unfold retainLiveState retainRecency
  rw [hprev]
  dsimp only
  split
  · refine ⟨n, ?_, le_refl n⟩
    unfold recencyAt
    rw [get?_insert hobj']
    simpa using hrange
  rename_i hkeep
  cases hpage : recencyAt (retainStatus page previous) with
  | none => simp [hpage] at hkeep
  | some m =>
    refine ⟨m, rfl, ?_⟩
    simpa [hpage] using hkeep

end Fields

/-! ## One page row -/

namespace RowStore

def ChangedAfter (s : RowStore) (id : String) (head : Nat) : Prop :=
  ∃ stored, s.rows.get? id = some stored ∧ head < stored.rowMeta.cursor

def DeletedAfter (s : RowStore) (id : String) (head : Nat) : Prop :=
  ∃ cursor, s.tombstones.get? id = some cursor ∧ head < cursor

section Observe

variable {s : RowStore} {row : Json} {head : Nat} {archived : Bool} {id : String}

lemma observeRow_of_changedAfter (hid : threadIdOf row = some id) {stored : StoredRow}
    (hsto : s.rows.get? id = some stored) (hcurs : head < stored.rowMeta.cursor) :
    s.observeRow row head archived = (s, attachMeta stored.value stored.rowMeta) := by
  simp only [observeRow, hid, hsto, any_some, gt_iff_lt, hcurs, decide_true, if_true,
    wireRow, map_some, getD_some]

lemma not_changedAfter (hsto : ¬ s.ChangedAfter id head) :
    (s.rows.get? id).any (fun stored => decide (stored.rowMeta.cursor > head)) = false := by
  cases hrow : s.rows.get? id with
  | none => rfl
  | some stored =>
    rw [any_some, decide_eq_false_iff_not]
    exact fun hlt => hsto ⟨stored, hrow, hlt⟩

lemma not_deletedAfter (htomb : ¬ s.DeletedAfter id head) :
    (s.tombstones.get? id).any (fun cursor => decide (cursor > head)) = false := by
  cases hrow : s.tombstones.get? id with
  | none => rfl
  | some cursor =>
    rw [any_some, decide_eq_false_iff_not]
    exact fun hlt => htomb ⟨cursor, hrow, hlt⟩

lemma observeRow_of_deletedAfter (hid : threadIdOf row = some id)
    (hsto : ¬ s.ChangedAfter id head) (htomb : s.DeletedAfter id head) :
    s.observeRow row head archived =
      (s, attachMeta row { cursor := head, archived, liveActivity := none }) := by
  obtain ⟨cursor, hget, hlt⟩ := htomb
  simp only [observeRow, hid, not_changedAfter hsto, hget, any_some, gt_iff_lt, hlt,
    decide_true, if_true, Bool.false_eq_true, if_false]

lemma observeRow_of_fresh (hid : threadIdOf row = some id)
    (hsto : ¬ s.ChangedAfter id head) (htomb : ¬ s.DeletedAfter id head) :
    s.observeRow row head archived = let fresh := pageRow (s.rows.get? id) row head archived
      (s.insert id fresh.value fresh.rowMeta, attachMeta fresh.value fresh.rowMeta) := by
  simp only [observeRow, hid, not_changedAfter hsto, not_deletedAfter htomb,
    Bool.false_eq_true, if_false]

lemma observeRow_rows_of_fresh (hid : threadIdOf row = some id)
    (hsto : ¬ s.ChangedAfter id head) (htomb : ¬ s.DeletedAfter id head) :
    (s.observeRow row head archived).1.rows.get? id =
      some (pageRow (s.rows.get? id) row head archived) := by
  rw [observeRow_of_fresh hid hsto htomb]
  exact insert_rows_self _ _ _ _

end Observe

end RowStore

/-! ## Updates that change nothing -/

section Unchanged

/-- A result that reports no change is the row itself. -/
def Honest (row : Json) (r : Json × Bool) : Prop := r.2 = false → r.1 = row

lemma Honest.same (row : Json) (changed : Bool) : Honest row (row, changed) := fun _ => rfl

lemma Honest.changed (row row' : Json) : Honest row (row', true) := by
  intro h
  cases h

open Honest

lemma honest_replaceField (row : Json) (field : String) (next : Option Json) :
    Honest row (replaceField row field next) := by
  unfold replaceField
  split
  · exact same row false
  split
  · exact same row false
  · split
    · exact same row false
    · exact changed _ _

lemma honest_applyPin (row : Json) (pinned : Bool) (cursor : Nat) :
    Honest row (applyPin row pinned cursor) := by
  unfold applyPin
  split
  · exact same row false
  split
  · exact same row false
  dsimp only
  split
  · exact same row false
  · exact changed _ _

namespace RowUpdate

variable (update : RowUpdate) (nowSecs : Int) (row : Json)

lemma honest_applyStatus : Honest row (update.applyStatus row) := by
  unfold applyStatus
  split
  · exact honest_replaceField _ _ _
  · exact same row false

lemma honest_applyName : Honest row (update.applyName row) := by
  unfold applyName
  split
  · exact honest_replaceField _ _ _
  · exact same row false

lemma honest_applyPinned : Honest row (update.applyPinned row) := by
  unfold applyPinned
  split
  · exact honest_applyPin _ _ _
  · exact same row false

lemma honest_applyPreview : Honest row (update.applyPreview row) := by
  unfold applyPreview
  split
  · exact honest_replaceField _ _ _
  · exact same row false

lemma honest_applyActivity : Honest row (update.applyActivity nowSecs row) := by
  unfold applyActivity
  split
  · split
    · exact honest_replaceField _ _ _
    · exact same row false
  · exact same row false

lemma honest_applyRecency : Honest row (update.applyRecency row) := by
  unfold applyRecency
  split
  · split
    · exact honest_replaceField _ _ _
    · exact same row false
  · exact same row false

lemma honest_applyUrgent : Honest row (update.applyUrgent row) := by
  intro h
  simp only [applyUrgent, Bool.or_eq_false_iff] at h
  obtain ⟨⟨hst, hname⟩, hpin⟩ := h
  calc (update.applyUrgent row).1
      = (update.applyName (update.applyStatus row).1).1 := honest_applyPinned _ _ hpin
    _ = (update.applyStatus row).1 := honest_applyName _ _ hname
    _ = row := honest_applyStatus _ _ hst

lemma honest_applyCoalesced : Honest row (update.applyCoalesced nowSecs row) := by
  intro h
  simp only [applyCoalesced, Bool.or_eq_false_iff] at h
  obtain ⟨⟨hpreview, hact⟩, hrecency⟩ := h
  calc (update.applyCoalesced nowSecs row).1
      = (update.applyActivity nowSecs (update.applyPreview row).1).1 :=
        honest_applyRecency _ _ hrecency
    _ = (update.applyPreview row).1 := honest_applyActivity _ _ _ hact
    _ = row := honest_applyPreview _ _ hpreview

end RowUpdate

lemma applyUpdate_unchanged {row : StoredRow} {update : RowUpdate} {nowSecs : Int}
    (h : (applyUpdate row update nowSecs).2 = none) : (applyUpdate row update nowSecs).1 = row := by
  unfold applyUpdate at h ⊢
  dsimp only at h ⊢
  split at h
  · cases h
  rename_i hurgent
  split at h
  · cases h
  rename_i hcoal
  simp only [Bool.or_eq_true, not_or, Bool.not_eq_true, decide_eq_false_iff_not,
    not_not] at hurgent hcoal
  have hvalue := RowUpdate.honest_applyUrgent _ _ hurgent.1
  have htimes := RowUpdate.honest_applyCoalesced _ _ _ hcoal.1
  rw [htimes, hvalue, ← hurgent.2, ← hcoal.2]

lemma updatedRow_unchanged {event : RowEvent} {update : RowUpdate} {nowSecs : Int}
    {row : StoredRow} (h : (updatedRow event update nowSecs row).2 = none) :
    (updatedRow event update nowSecs row).1 = row := by
  change (applyUpdate row update nowSecs).2 = none at h
  unfold updatedRow
  dsimp only
  rw [h, applyUpdate_unchanged h]
  rfl

lemma updatedRow_changed {event : RowEvent} {update : RowUpdate} {nowSecs : Int}
    {row : StoredRow} (h : (updatedRow event update nowSecs row).2.isSome = true) :
    (updatedRow event update nowSecs row).1.rowMeta.cursor =
      max row.rowMeta.cursor event.cursor := by
  change (applyUpdate row update nowSecs).2.isSome = true at h
  unfold updatedRow
  dsimp only
  rw [h]
  rfl

/-- Rows that differ in their cursor only are changed alike by a younger event. -/
lemma updatedRow_congr {event : RowEvent} {update : RowUpdate} {nowSecs : Int}
    {row row' : StoredRow} (hvalue : row.value = row'.value)
    (harch : row.rowMeta.archived = row'.rowMeta.archived)
    (hlive : row.rowMeta.liveActivity = row'.rowMeta.liveActivity)
    (hcurs : row.rowMeta.cursor ≤ event.cursor) (hcurs' : row'.rowMeta.cursor ≤ event.cursor) :
    (updatedRow event update nowSecs row).2 = (updatedRow event update nowSecs row').2 ∧
      ((updatedRow event update nowSecs row).2.isSome = true →
        (updatedRow event update nowSecs row).1 = (updatedRow event update nowSecs row').1) := by
  have hsame : (applyUpdate row update nowSecs).2 = (applyUpdate row' update nowSecs).2 := by
    simp only [applyUpdate, hvalue, harch, hlive]
  refine ⟨hsame, ?_⟩
  intro hchg
  have hchg' : (applyUpdate row' update nowSecs).2.isSome = true := hsame ▸ hchg
  change (applyUpdate row update nowSecs).2.isSome = true at hchg
  unfold updatedRow
  dsimp only
  rw [hchg, hchg', if_pos rfl, if_pos rfl, Nat.max_eq_right hcurs, Nat.max_eq_right hcurs']
  simp only [applyUpdate, hvalue, harch, hlive]

end Unchanged

/-! ## A page row and a later event in both orders -/

/-- The event takes the thread off the list. -/
def RowEvent.Removes (e : RowEvent) : Prop := e.kind = .excluded ∨ e.kind = .deleted

namespace RowStore

def pageThenEvent (s : RowStore) (row : Json) (head : Nat) (archived : Bool) (e : RowEvent)
    (nowSecs : Int) : Option StoredRow :=
  ((s.observeRow row head archived).1.apply e nowSecs).1.rows.get? e.threadId

def eventThenPage (s : RowStore) (row : Json) (head : Nat) (archived : Bool) (e : RowEvent)
    (nowSecs : Int) : Option StoredRow :=
  ((s.apply e nowSecs).1.observeRow row head archived).1.rows.get? e.threadId

section Orders

variable {s : RowStore} {row : Json} {head : Nat} {archived : Bool} {e : RowEvent} {nowSecs : Int}

lemma apply_removes (h : e.Removes) : (s.apply e nowSecs).1 = s.remove e.threadId e.cursor := by
  unfold RowStore.apply
  rcases h with h | h <;> rw [h]

variable {thread : Json}

lemma apply_started (h : e.kind = .started thread) :
    (s.apply e nowSecs).1.rows.get? e.threadId = some ⟨rowValue thread, e.cursor,
      (s.rows.get? e.threadId).any (fun row => row.rowMeta.archived),
      (s.rows.get? e.threadId).bind (fun row => row.rowMeta.liveActivity)⟩ := by
  simp only [RowStore.apply, h, applyStarted, insert_rows_self]

lemma apply_request (h : e.kind = .request) : (s.apply e nowSecs).1 = s := by
  simp only [RowStore.apply, h]

variable {update : RowUpdate}

lemma apply_update_none (h : e.kind = .update update)
    (hrow : s.rows.get? e.threadId = none) : (s.apply e nowSecs).1 = s := by
  simp only [RowStore.apply, h, hrow]

lemma apply_update_some {stored : StoredRow} (h : e.kind = .update update)
    (hrow : s.rows.get? e.threadId = some stored) :
    (s.apply e nowSecs).1.rows.get? e.threadId = some (updatedRow e update nowSecs stored).1 := by
  simp only [RowStore.apply, h, hrow]
  rw [applyToRow_fst, reindex_rows]
  exact get?_insert_self _ _ _

lemma eventThenPage_of_changedAfter (hid : threadIdOf row = some e.threadId)
    (h : (s.apply e nowSecs).1.ChangedAfter e.threadId head) :
    s.eventThenPage row head archived e nowSecs = (s.apply e nowSecs).1.rows.get? e.threadId := by
  obtain ⟨stored, hsto, hlt⟩ := h
  unfold eventThenPage
  rw [observeRow_of_changedAfter hid hsto hlt]

lemma eventThenPage_of_removes (hid : threadIdOf row = some e.threadId) (h : e.Removes)
    (hcurs : head < e.cursor) : s.eventThenPage row head archived e nowSecs = none := by
  unfold eventThenPage
  have hrows : (s.apply e nowSecs).1.rows.get? e.threadId = none := by
    rw [apply_removes h, remove_rows, get?_erase_self]
  have hchg : ¬ (s.apply e nowSecs).1.ChangedAfter e.threadId head := by
    rintro ⟨stored, hsto, -⟩
    rw [hrows] at hsto
    cases hsto
  have hdel : (s.apply e nowSecs).1.DeletedAfter e.threadId head := by
    refine ⟨e.cursor, ?_, hcurs⟩
    rw [apply_removes h]
    exact remove_tombstones_self _ _ _
  rw [observeRow_of_deletedAfter hid hchg hdel]
  exact hrows

lemma pageThenEvent_of_removes (h : e.Removes) :
    s.pageThenEvent row head archived e nowSecs = none := by
  unfold pageThenEvent
  rw [apply_removes h, remove_rows, get?_erase_self]

lemma orders_of_removes (hid : threadIdOf row = some e.threadId) (h : e.Removes)
    (hcurs : head < e.cursor) :
    s.pageThenEvent row head archived e nowSecs = s.eventThenPage row head archived e nowSecs := by
  rw [pageThenEvent_of_removes h, eventThenPage_of_removes hid h hcurs]

lemma changedAfter_started (h : e.kind = .started thread)
    (hcurs : head < e.cursor) : (s.apply e nowSecs).1.ChangedAfter e.threadId head :=
  ⟨_, apply_started h, hcurs⟩

lemma changedAfter_update {stored : StoredRow}
    (h : e.kind = .update update) (hrow : s.rows.get? e.threadId = some stored)
    (hcurs : head < (updatedRow e update nowSecs stored).1.rowMeta.cursor) :
    (s.apply e nowSecs).1.ChangedAfter e.threadId head :=
  ⟨_, apply_update_some h hrow, hcurs⟩

lemma orders_of_changedAfter (hid : threadIdOf row = some e.threadId)
    (hcurs : head < e.cursor) (h : s.ChangedAfter e.threadId head) :
    s.pageThenEvent row head archived e nowSecs = s.eventThenPage row head archived e nowSecs := by
  obtain ⟨stored, hsto, hlt⟩ := h
  have hpage : s.pageThenEvent row head archived e nowSecs =
      (s.apply e nowSecs).1.rows.get? e.threadId := by
    unfold pageThenEvent
    rw [observeRow_of_changedAfter hid hsto hlt]
  cases hkind : e.kind with
  | started thread =>
    rw [hpage, eventThenPage_of_changedAfter hid (changedAfter_started hkind hcurs)]
  | excluded => exact orders_of_removes hid (.inl hkind) hcurs
  | deleted => exact orders_of_removes hid (.inr hkind) hcurs
  | request =>
    have hsame : (s.apply e nowSecs).1.ChangedAfter e.threadId head := by
      rw [apply_request hkind]
      exact ⟨stored, hsto, hlt⟩
    rw [hpage, eventThenPage_of_changedAfter hid hsame]
  | update update =>
  have hle := le_updatedRow_cursor e update nowSecs stored
  rw [hpage, eventThenPage_of_changedAfter hid
    (changedAfter_update hkind hsto (Nat.lt_of_lt_of_le hlt hle))]

lemma orders_of_deletedAfter (hs : s.Inv) (hid : threadIdOf row = some e.threadId)
    (hcurs : head < e.cursor) (h : s.DeletedAfter e.threadId head) :
    s.pageThenEvent row head archived e nowSecs = s.eventThenPage row head archived e nowSecs := by
  have hrow : s.rows.get? e.threadId = none := by
    obtain ⟨cursor, htomb, -⟩ := h
    cases hrow : s.rows.get? e.threadId with
    | none => rfl
    | some stored =>
      rw [hs.disjoint _ _ hrow] at htomb
      cases htomb
  have hchg : ¬ s.ChangedAfter e.threadId head := by
    rintro ⟨stored, hsto, -⟩
    rw [hrow] at hsto
    cases hsto
  have hobs := @observeRow_of_deletedAfter s row head archived _ hid hchg h
  have hpage : s.pageThenEvent row head archived e nowSecs =
      (s.apply e nowSecs).1.rows.get? e.threadId := by
    unfold pageThenEvent
    rw [hobs]
  have hsame : (s.apply e nowSecs).1 = s →
      s.pageThenEvent row head archived e nowSecs = s.eventThenPage row head archived e nowSecs := by
    intro heq
    rw [hpage]
    unfold eventThenPage
    rw [heq, hobs]
  cases hkind : e.kind with
  | started thread =>
    rw [hpage, eventThenPage_of_changedAfter hid (changedAfter_started hkind hcurs)]
  | excluded => exact orders_of_removes hid (.inl hkind) hcurs
  | deleted => exact orders_of_removes hid (.inr hkind) hcurs
  | request => exact hsame (apply_request hkind)
  | update update => exact hsame (apply_update_none hkind hrow)

lemma orders_of_request (h : e.kind = .request) :
    s.pageThenEvent row head archived e nowSecs = s.eventThenPage row head archived e nowSecs := by
  unfold pageThenEvent eventThenPage
  rw [apply_request h, apply_request h]

lemma orders_of_started (hid : threadIdOf row = some e.threadId)
    (hcurs : head < e.cursor) (hchg : ¬ s.ChangedAfter e.threadId head)
    (hdel : ¬ s.DeletedAfter e.threadId head) (h : e.kind = .started thread)
    (harch : (s.rows.get? e.threadId).any (fun row => row.rowMeta.archived) = archived) :
    s.pageThenEvent row head archived e nowSecs = s.eventThenPage row head archived e nowSecs := by
  rw [eventThenPage_of_changedAfter hid (changedAfter_started h hcurs), apply_started h]
  unfold pageThenEvent
  rw [apply_started h, observeRow_rows_of_fresh hid hchg hdel, harch]
  rfl

/-- An update of a tracked row the page replaces: the event on the page's row, or the hub's own
result. -/
lemma orders_of_update {update : RowUpdate} {hub : StoredRow}
    (hid : threadIdOf row = some e.threadId) (hcurs : head < e.cursor)
    (hhub : s.rows.get? e.threadId = some hub) (hchg : ¬ s.ChangedAfter e.threadId head)
    (hdel : ¬ s.DeletedAfter e.threadId head) (h : e.kind = .update update) :
    s.pageThenEvent row head archived e nowSecs =
        some (updatedRow e update nowSecs (pageRow (some hub) row head archived)).1 ∧
      s.eventThenPage row head archived e nowSecs =
        if (updatedRow e update nowSecs hub).2.isSome then some (updatedRow e update nowSecs hub).1
        else some (pageRow (some hub) row head archived) := by
  have hfresh := @observeRow_rows_of_fresh s row head archived _ hid hchg hdel
  rw [hhub] at hfresh
  refine ⟨apply_update_some h hfresh, ?_⟩
  split
  · rename_i hsome
    have hlt : head < (updatedRow e update nowSecs hub).1.rowMeta.cursor := by
      rw [updatedRow_changed hsome]
      exact Nat.lt_of_lt_of_le hcurs (Nat.le_max_right _ _)
    rw [eventThenPage_of_changedAfter hid (changedAfter_update h hhub hlt),
      apply_update_some h hhub]
  rename_i hnone
  have hrow := updatedRow_unchanged (not_isSome_iff_eq_none.mp hnone)
  have hsame : (s.apply e nowSecs).1.rows.get? e.threadId = some hub := by
    rw [apply_update_some h hhub, hrow]
  have hchg' : ¬ (s.apply e nowSecs).1.ChangedAfter e.threadId head := by
    rintro ⟨stored, hsto, hlt⟩
    rw [hsame] at hsto
    cases hsto
    exact hchg ⟨hub, hhub, hlt⟩
  have htombs : (s.apply e nowSecs).1.tombstones = s.tombstones := by
    simp only [RowStore.apply, h, hhub]
    rw [applyToRow_fst, reindex_tombstones]
  have hdel' : ¬ (s.apply e nowSecs).1.DeletedAfter e.threadId head := by
    rintro ⟨cursor, htomb, hlt⟩
    rw [htombs] at htomb
    exact hdel ⟨cursor, htomb, hlt⟩
  unfold eventThenPage
  rw [observeRow_rows_of_fresh hid hchg' hdel', hsame]

lemma orders_of_same_content (hs : s.Inv) {hub : StoredRow}
    (hid : threadIdOf row = some e.threadId) (hcurs : head < e.cursor)
    (hhub : s.rows.get? e.threadId = some hub)
    (hvalue : (pageRow (some hub) row head archived).value = hub.value)
    (harch : hub.rowMeta.archived = archived) :
    s.pageThenEvent row head archived e nowSecs = s.eventThenPage row head archived e nowSecs := by
  by_cases hchg : s.ChangedAfter e.threadId head
  · exact orders_of_changedAfter hid hcurs hchg
  have hle : hub.rowMeta.cursor ≤ head := by
    rw [← not_lt]
    exact fun hlt => hchg ⟨hub, hhub, hlt⟩
  have hdel : ¬ s.DeletedAfter e.threadId head := by
    rintro ⟨cursor, htomb, -⟩
    rw [hs.disjoint _ _ hhub] at htomb
    cases htomb
  cases hkind : e.kind with
  | started thread =>
    refine orders_of_started hid hcurs hchg hdel hkind ?_
    simp [hhub, harch]
  | excluded => exact orders_of_removes hid (.inl hkind) hcurs
  | deleted => exact orders_of_removes hid (.inr hkind) hcurs
  | request => exact orders_of_request hkind
  | update update =>
  obtain ⟨hpage, hevent⟩ := @orders_of_update s row head archived e nowSecs update hub hid
    hcurs hhub hchg hdel hkind
  obtain ⟨hsame, heq⟩ := @updatedRow_congr e update nowSecs
    (pageRow (some hub) row head archived) hub hvalue harch.symm rfl (le_of_lt hcurs)
    (hle.trans (le_of_lt hcurs))
  rw [hpage, hevent]
  split
  · rename_i hsome
    rw [← hsame] at hsome
    rw [heq hsome]
  · rename_i hnone
    rw [← hsame, not_isSome_iff_eq_none] at hnone
    rw [updatedRow_unchanged hnone]

lemma eventThenPage_of_change {hub : StoredRow} (hid : threadIdOf row = some e.threadId)
    (hcurs : head < e.cursor) (hhub : s.rows.get? e.threadId = some hub)
    (h : (s.apply e nowSecs).1.rows.get? e.threadId ≠ some hub) :
    s.eventThenPage row head archived e nowSecs = (s.apply e nowSecs).1.rows.get? e.threadId := by
  cases hkind : e.kind with
  | started thread => exact eventThenPage_of_changedAfter hid (changedAfter_started hkind hcurs)
  | excluded =>
    rw [eventThenPage_of_removes hid (.inl hkind) hcurs, apply_removes (.inl hkind),
      remove_rows, get?_erase_self]
  | deleted =>
    rw [eventThenPage_of_removes hid (.inr hkind) hcurs, apply_removes (.inr hkind),
      remove_rows, get?_erase_self]
  | request =>
    rw [apply_request hkind] at h
    exact absurd hhub h
  | update update =>
  refine eventThenPage_of_changedAfter hid (changedAfter_update hkind hhub ?_)
  rw [apply_update_some hkind hhub] at h
  cases hchan : (updatedRow e update nowSecs hub).2 with
  | none => exact absurd (congrArg some (updatedRow_unchanged hchan)) h
  | some flushClass =>
    rw [updatedRow_changed (by rw [hchan]; rfl)]
    exact Nat.lt_of_lt_of_le hcurs (Nat.le_max_right _ _)

end Orders

end RowStore

/-! ## Whole pages -/

lemma observePage_answer (before after : List Json) (row : Json) (head : Nat) (archived : Bool)
    (s : RowStore) :
    (s.observePage (before ++ row :: after) head archived).2[before.length]? =
      some (((s.observePage before head archived).1).observeRow row head archived).2 := by
  induction before generalizing s with
  | nil => rfl
  | cons r rest ih => exact ih _

lemma inv_observePage {s : RowStore} (h : s.Inv) (rows : List Json) (head : Nat)
    (archived : Bool) : (s.observePage rows head archived).1.Inv := by
  rw [observePage_fst]
  exact exec_invariant (fun s i h => h.step i) h _

section PageRow

variable {row : Json} {id : String} (hid : threadIdOf row = some id) (head : Nat) (archived : Bool)
  (stored : Option StoredRow)

lemma pageRow_get? {field : String} (hfield : field ∉ ["turns", rowField, "status", "recencyAt"]) :
    (pageRow stored row head archived).value.get? field = row.get? field := by
  simp only [List.mem_cons, List.not_mem_nil, or_false, not_or] at hfield
  obtain ⟨hturns, hmeta, hst, hrecency⟩ := hfield
  cases stored with
  | none => exact rowValue_get? row hturns hmeta
  | some hub =>
    change (retainLiveState (rowValue row) hub.value).get? field = _
    rw [retainLiveState_get? _ _ hst hrecency, rowValue_get? row hturns hmeta]

lemma pageRow_status (h : ∀ hub, stored = some hub →
    ¬ (statusType row = some "notLoaded" ∧ statusType hub.value = some "active")) :
    (pageRow stored row head archived).value.get? "status" = row.get? "status" := by
  cases stored with
  | none => exact rowValue_get? row (by decide) (by decide)
  | some hub =>
  have hnot := h hub rfl
  rw [← statusType_rowValue] at hnot
  exact (retainLiveState_status_of_not hnot).trans (rowValue_get? row (by decide) (by decide))

lemma pageRow_recency (h : ∀ hub n, stored = some hub → recencyAt hub.value = some n →
    ∃ m, recencyAt row = some m ∧ n ≤ m) :
    (pageRow stored row head archived).value.get? "recencyAt" = row.get? "recencyAt" := by
  cases stored with
  | none => exact rowValue_get? row (by decide) (by decide)
  | some hub =>
  have hle := fun n hn => h hub n rfl hn
  rw [← recencyAt_rowValue row] at hle
  exact (retainLiveState_recency_of_le hle).trans (rowValue_get? row (by decide) (by decide))

include hid in
lemma pageRow_live (hub : StoredRow) : (∀ n, recencyAt hub.value = some n →
      ∃ m, recencyAt (pageRow (some hub) row head archived).value = some m ∧ n ≤ m) ∧
    (statusType row = some "notLoaded" → statusType hub.value = some "active" →
      (pageRow (some hub) row head archived).value.get? "status" = hub.value.get? "status") := by
  have hobj : (rowValue row).isObj = true := by
    rw [isObj_rowValue]
    exact isObj_of_threadIdOf hid
  refine ⟨fun n hn => retainLiveState_recency hobj hn, ?_⟩
  intro hrow hacti
  rw [← statusType_rowValue] at hrow
  exact retainLiveState_status hobj hrow hacti

end PageRow

open RowStore in
/-- The page rule: a row or deletion younger than `head` stays, any other row is stored with the
provider's content, and younger events commute with it. -/
theorem provider_page_rule (calls : List RowCall) (head : Nat) (archived : Bool)
    (before after : List Json) (row : Json) (id : String) (hid : threadIdOf row = some id) :
    let start := exec RowCall.run RowStore.empty calls
    let s := (start.observePage before head archived).1
    let t := (s.observeRow row head archived).1
    let answer := (s.observeRow row head archived).2
    (start.observePage (before ++ row :: after) head archived).2[before.length]? = some answer ∧
    (∀ hub, s.rows.get? id = some hub → head < hub.rowMeta.cursor →
      t = s ∧ answer = attachMeta hub.value hub.rowMeta) ∧
    (s.DeletedAfter id head →
      t = s ∧ t.rows.get? id = none ∧ answer = attachMeta row ⟨head, archived, none⟩) ∧
    (¬ s.ChangedAfter id head → ¬ s.DeletedAfter id head →
      ∃ stored, t.rows.get? id = some stored ∧ stored.rowMeta.cursor = head ∧
        stored.rowMeta.archived = archived ∧ answer = attachMeta stored.value stored.rowMeta ∧
        (∀ field, field ∉ ["turns", rowField, "status", "recencyAt"] →
          stored.value.get? field = row.get? field) ∧
        ((∀ hub, s.rows.get? id = some hub →
            ¬ (statusType row = some "notLoaded" ∧ statusType hub.value = some "active")) →
          stored.value.get? "status" = row.get? "status") ∧
        ((∀ hub n, s.rows.get? id = some hub → recencyAt hub.value = some n →
            ∃ m, recencyAt row = some m ∧ n ≤ m) →
          stored.value.get? "recencyAt" = row.get? "recencyAt")) ∧
    (∀ hub stored, s.rows.get? id = some hub → t.rows.get? id = some stored →
      (∀ n, recencyAt hub.value = some n → ∃ m, recencyAt stored.value = some m ∧ n ≤ m) ∧
      (statusType row = some "notLoaded" → statusType hub.value = some "active" →
        stored.value.get? "status" = hub.value.get? "status")) ∧
    (∀ (e : RowEvent) (nowSecs : Int), e.threadId = id → head < e.cursor →
      ((s.ChangedAfter id head ∨ s.DeletedAfter id head ∨ e.Removes ∨ e.kind = .request) →
        s.pageThenEvent row head archived e nowSecs = s.eventThenPage row head archived e nowSecs) ∧
      (∀ thread, e.kind = .started thread →
        (s.rows.get? id).any (fun row => row.rowMeta.archived) = archived →
        s.pageThenEvent row head archived e nowSecs = s.eventThenPage row head archived e nowSecs) ∧
      (∀ hub, s.rows.get? id = some hub →
        (pageRow (some hub) row head archived).value = hub.value →
        hub.rowMeta.archived = archived →
        s.pageThenEvent row head archived e nowSecs = s.eventThenPage row head archived e nowSecs) ∧
      (∀ hub, s.rows.get? id = some hub →
        (s.apply e nowSecs).1.rows.get? id ≠ some hub →
        s.eventThenPage row head archived e nowSecs = (s.apply e nowSecs).1.rows.get? id)) := by
  intro start s t answer
  have hs : s.Inv := inv_observePage (inv_calls calls) before head archived
  have hnone : s.DeletedAfter id head → s.rows.get? id = none := by
    rintro ⟨cursor, htomb, -⟩
    cases hrow : s.rows.get? id with
    | none => rfl
    | some hub =>
      rw [hs.disjoint _ _ hrow] at htomb
      cases htomb
  have hunchanged : s.DeletedAfter id head → ¬ s.ChangedAfter id head := by
    rintro hdel ⟨hub, hhub, -⟩
    rw [hnone hdel] at hhub
    cases hhub
  refine ⟨observePage_answer before after row head archived start, ?_, ?_, ?_, ?_, ?_⟩
  · intro hub hhub hlt
    have hobs := @observeRow_of_changedAfter s row head archived id hid hub hhub hlt
    exact ⟨congrArg Prod.fst hobs, congrArg Prod.snd hobs⟩
  · intro hdel
    have hobs := @observeRow_of_deletedAfter s row head archived id hid
      (hunchanged hdel) hdel
    have ht : t = s := congrArg Prod.fst hobs
    exact ⟨ht, ht ▸ hnone hdel, congrArg Prod.snd hobs⟩
  · intro hchg hdel
    have hobs := @observeRow_of_fresh s row head archived id hid hchg hdel
    exact ⟨pageRow (s.rows.get? id) row head archived,
      observeRow_rows_of_fresh hid hchg hdel, rfl, rfl, congrArg Prod.snd hobs,
      fun field hfield => pageRow_get? head archived _ hfield,
      fun h => pageRow_status head archived _ h, fun h => pageRow_recency head archived _ h⟩
  · intro hub stored hhub hsto
    by_cases hchg : s.ChangedAfter id head
    · obtain ⟨hub', hhub', hlt⟩ := hchg
      have hobs := @observeRow_of_changedAfter s row head archived id hid hub' hhub' hlt
      have ht : t = s := congrArg Prod.fst hobs
      rw [ht, hhub] at hsto
      cases hsto
      exact ⟨fun n hn => ⟨n, hn, le_refl n⟩, fun _ _ => rfl⟩
    have hdel : ¬ s.DeletedAfter id head := by
      intro hdel
      rw [hnone hdel] at hhub
      cases hhub
    have hfresh := @observeRow_rows_of_fresh s row head archived id hid hchg hdel
    have heq : t.rows.get? id = some (pageRow (some hub) row head archived) := by
      rw [← hhub]
      exact hfresh
    rw [heq] at hsto
    cases hsto
    exact pageRow_live hid head archived hub
  rintro e nowSecs rfl hcurs
  refine ⟨?_, ?_, ?_, ?_⟩
  · rintro (hchg | hdel | hremoves | hreq)
    · exact orders_of_changedAfter hid hcurs hchg
    · exact orders_of_deletedAfter hs hid hcurs hdel
    · rw [pageThenEvent_of_removes hremoves, eventThenPage_of_removes hid hremoves hcurs]
    · exact orders_of_request hreq
  · intro thread hkind harch
    by_cases hchg : s.ChangedAfter e.threadId head
    · exact orders_of_changedAfter hid hcurs hchg
    by_cases hdel : s.DeletedAfter e.threadId head
    · exact orders_of_deletedAfter hs hid hcurs hdel
    exact orders_of_started hid hcurs hchg hdel hkind harch
  · intro hub hhub hvalue harch
    exact orders_of_same_content hs hid hcurs hhub hvalue harch
  · intro hub hhub hchan
    exact eventThenPage_of_change hid hcurs hhub hchan

def listedRow (id preview : String) : Json :=
  .obj [("id", .str id), ("preview", .str preview), ("source", .str "cli")]

/-- The first row of a page into the empty store. -/
theorem provider_page_rule_first :
    threadIdOf (listedRow "t" "hi") = some "t" ∧
    ∃ stored, (RowStore.empty.observeRow (listedRow "t" "hi") 5 false).1.rows.get? "t" =
      some stored ∧ stored.rowMeta.cursor = 5 := by
  have hid : threadIdOf (listedRow "t" "hi") = some "t" := by decide
  have hchg : ¬ RowStore.empty.ChangedAfter "t" 5 := by
    rintro ⟨stored, hsto, -⟩
    cases hsto
  have hdel : ¬ RowStore.empty.DeletedAfter "t" 5 := by
    rintro ⟨cursor, htomb, -⟩
    cases htomb
  obtain ⟨stored, hsto, hcurs, -⟩ :=
    (provider_page_rule [] 5 false [] [] (listedRow "t" "hi") "t" hid).2.2.2.1 hchg hdel
  exact ⟨hid, stored, hsto, hcurs⟩

/-- A deleted thread is in the answer of an older page, and a rename does not commute with one. -/
theorem page_answers_deleted_and_orders_differ :
    (((exec RowCall.run RowStore.empty [.apply ⟨"t", 7, .urgent, .deleted⟩ 0]).observePage
      [listedRow "t" "hi"] 5 false).2.map threadIdOf = [some "t"]) ∧
    (let s := exec RowCall.run RowStore.empty [.observePage [listedRow "t" "old"] 3 false]
     let e : RowEvent := ⟨"t", 6, .urgent, .update { RowUpdate.default with
       name := some (.set (.str "renamed")) }⟩
     s.pageThenEvent (listedRow "t" "new") 5 false e 0 ≠
       s.eventThenPage (listedRow "t" "new") 5 false e 0) := by
  constructor <;> decide

end CodeWide.ThreadList
