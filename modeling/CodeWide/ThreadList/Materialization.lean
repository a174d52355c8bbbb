import CodeWide.ThreadList.Hub
import CodeWide.ThreadList.Pages
import Mathlib.Data.List.TakeWhile

/-!
# Buffered events against events applied directly

While the first row of a thread is read, its events are buffered; `applyDirectly` applies them to a
store that holds the row.
-/

namespace CodeWide.ThreadList

open Lib List Option RowEvent
open RowStore

/-- One event applied at once, with whether the hub marks the thread for it. -/
def directStep (nowSecs : Int) (acc : RowStore × Bool) (e : RowEvent) : RowStore × Bool :=
  let r := acc.1.apply e nowSecs
  (r.1, acc.2 || (decide (r.2 ≠ .unchanged) && decide (r.2 ≠ .unknown) &&
    (!r.1.contains e.threadId || r.1.streamable e.threadId)))

def applyDirectly (s : RowStore) (events : List RowEvent) (nowSecs : Int) : RowStore × Bool :=
  events.foldl (directStep nowSecs) (s, false)

namespace RowEvent

def isMembership (e : RowEvent) : Bool :=
  match e.kind with
  | .started _ => true
  | .excluded => true
  | .deleted => true
  | _ => false

def StartsStreamed (e : RowEvent) : Prop :=
  ∃ thread, e.kind = .started thread ∧ streamableValue thread = true

def dirties (nowSecs : Int) (row : StoredRow) (e : RowEvent) : Bool :=
  match e.kind with
  | .update update => (updatedRow e update nowSecs row).2.isSome || decide (e.flushClass = .urgent)
  | _ => true

end RowEvent

def rowAfter (nowSecs : Int) (row : Option StoredRow) (e : RowEvent) : Option StoredRow :=
  match e.kind with
  | .started thread =>
    some ⟨rowValue thread, e.cursor, row.any (fun row => row.rowMeta.archived),
      row.bind (fun row => row.rowMeta.liveActivity)⟩
  | .excluded => none
  | .deleted => none
  | .request => row
  | .update update => row.map (fun row => (updatedRow e update nowSecs row).1)

def isStreamed (row : Option StoredRow) : Bool := row.any (fun row => streamableValue row.value)

def marksRow (nowSecs : Int) (row : Option StoredRow) (e : RowEvent) : Bool :=
  if e.isMembership then (rowAfter nowSecs row e).isNone || isStreamed (rowAfter nowSecs row e)
  else row.any (e.dirties nowSecs) && isStreamed (rowAfter nowSecs row e)

section OwnRow

variable {s : RowStore} {e : RowEvent} {nowSecs : Int} {t : String}

lemma apply_row (s : RowStore) (e : RowEvent) (nowSecs : Int) :
    (s.apply e nowSecs).1.rows.get? e.threadId = rowAfter nowSecs (s.rows.get? e.threadId) e := by
  unfold rowAfter
  cases hkind : e.kind with
  | started thread => exact apply_started hkind
  | excluded => rw [apply_removes (.inl hkind), remove_rows, Table.get?_erase_self]
  | deleted => rw [apply_removes (.inr hkind), remove_rows, Table.get?_erase_self]
  | request => rw [apply_request hkind]
  | update update =>
  cases hrow : s.rows.get? e.threadId with
  | none =>
    rw [apply_update_none hkind hrow]
    exact hrow
  | some row => exact apply_update_some hkind hrow

lemma applyToRow_snd (event : RowEvent) (update : RowUpdate) (row : StoredRow) :
    (decide ((s.applyToRow event update nowSecs row).2 ≠ .unchanged) &&
      decide ((s.applyToRow event update nowSecs row).2 ≠ .unknown)) =
      ((updatedRow event update nowSecs row).2.isSome || decide (event.flushClass = .urgent)) := by
  unfold applyToRow
  generalize updatedRow event update nowSecs row = r
  obtain ⟨stored, changed⟩ := r
  cases changed with
  | none => cases hclass : event.flushClass <;> simp
  | some flushClass =>
    cases flushClass <;> cases hclass : event.flushClass <;> simp [FlushClass.max]

lemma directStep_snd (s : RowStore) (marked : Bool) (e : RowEvent) (nowSecs : Int) :
    (directStep nowSecs (s, marked) e).2 =
      (marked || marksRow nowSecs (s.rows.get? e.threadId) e) := by
  have hrow := apply_row s e nowSecs
  have hcont : (s.apply e nowSecs).1.contains e.threadId =
      (rowAfter nowSecs (s.rows.get? e.threadId) e).isSome := by
    rw [← hrow]
    rfl
  have hstreamable : (s.apply e nowSecs).1.streamable e.threadId =
      isStreamed (rowAfter nowSecs (s.rows.get? e.threadId) e) := by
    rw [← hrow]
    rfl
  unfold directStep
  dsimp only
  rw [hcont, hstreamable]
  congr 1
  unfold marksRow
  cases hkind : e.kind with
  | started thread | excluded | deleted => simp [isMembership, RowStore.apply, hkind]
  | request =>
    cases hget : s.rows.get? e.threadId with
    | none =>
      simp [isMembership, RowStore.apply, hkind, RowStore.contains, Table.contains, hget]
    | some row =>
      simp [isMembership, RowStore.apply, hkind, RowStore.contains, Table.contains, hget,
        rowAfter, dirties]
  | update update =>
  cases hget : s.rows.get? e.threadId with
  | none =>
    cases hacti : update.isActivity <;> simp [isMembership, RowStore.apply, hkind, hget, hacti]
  | some row =>
  have hsnd := @applyToRow_snd s nowSecs e update row
  simp only [RowStore.apply, hkind, hget, isMembership, rowAfter, map_some,
    isSome_some, any_some, dirties, Bool.not_true, Bool.false_or,
    Bool.false_eq_true, if_false]
  rw [hsnd]

end OwnRow

section Streamed

lemma streamableValue_congr {a b : Json}
    (h : ∀ k ∈ ["parentThreadId", "source", "codewideAgent"], a.get? k = b.get? k) :
    streamableValue a = streamableValue b := by
  unfold streamableValue Json.getPath?
  rw [h "parentThreadId" (by simp), h "source" (by simp), h "codewideAgent" (by simp)]

variable (row : Json)

lemma streamableValue_insert {field : String} (value : Json)
    (h : field ∉ ["parentThreadId", "source", "codewideAgent"]) :
    streamableValue (row.insert field value) = streamableValue row := by
  refine streamableValue_congr (fun k hk => Json.get?_insert_of_ne _ _ ?_)
  rintro rfl
  exact h hk

lemma streamableValue_rowValue (value : Json) :
    streamableValue (rowValue value) = streamableValue value := by
  refine streamableValue_congr (fun k hk => rowValue_get? value ?_ ?_)
  · rintro rfl
    simp at hk
  · rintro rfl
    simp [rowField] at hk

/-- A change of fields that do not decide membership. -/
def KeepsStream (row : Json) (r : Json × Bool) : Prop :=
  streamableValue r.1 = streamableValue row

lemma keepsStream_replaceField {field : String} (next : Option Json)
    (h : field ∉ ["parentThreadId", "source", "codewideAgent"]) :
    KeepsStream row (replaceField row field next) := by
  unfold replaceField
  split
  · rfl
  split
  · rfl
  · split
    · rfl
    · exact streamableValue_insert row _ h

lemma keepsStream_applyPin (pinned : Bool) (cursor : Nat) :
    KeepsStream row (applyPin row pinned cursor) := by
  unfold applyPin
  split
  · rfl
  split
  · rfl
  dsimp only
  split
  · rfl
  · exact streamableValue_insert row _ (by decide)

lemma streamableValue_applyUrgent (update : RowUpdate) (row : Json) :
    streamableValue (update.applyUrgent row).1 = streamableValue row := by
  have hst : ∀ r, KeepsStream r (update.applyStatus r) := by
    intro r
    unfold RowUpdate.applyStatus
    split
    · exact keepsStream_replaceField r _ (by decide)
    · rfl
  have hname : ∀ r, KeepsStream r (update.applyName r) := by
    intro r
    unfold RowUpdate.applyName
    split
    · exact keepsStream_replaceField r _ (by decide)
    · rfl
  have hpin : ∀ r, KeepsStream r (update.applyPinned r) := by
    intro r
    unfold RowUpdate.applyPinned
    split
    · exact keepsStream_applyPin r _ _
    · rfl
  exact (hpin _).trans ((hname _).trans (hst _))

lemma streamableValue_applyCoalesced (update : RowUpdate) (nowSecs : Int) (row : Json) :
    streamableValue (update.applyCoalesced nowSecs row).1 = streamableValue row := by
  have hpreview : ∀ r, KeepsStream r (update.applyPreview r) := by
    intro r
    unfold RowUpdate.applyPreview
    split
    · exact keepsStream_replaceField r _ (by decide)
    · rfl
  have hact : ∀ r, KeepsStream r (update.applyActivity nowSecs r) := by
    intro r
    unfold RowUpdate.applyActivity
    split
    · split
      · exact keepsStream_replaceField r _ (by decide)
      · rfl
    · rfl
  have hrecency : ∀ r, KeepsStream r (update.applyRecency r) := by
    intro r
    unfold RowUpdate.applyRecency
    split
    · split
      · exact keepsStream_replaceField r _ (by decide)
      · rfl
    · rfl
  exact (hrecency _).trans ((hact _).trans (hpreview _))

lemma streamableValue_updatedRow (e : RowEvent) (update : RowUpdate) (nowSecs : Int)
    (row : StoredRow) :
    streamableValue (updatedRow e update nowSecs row).1.value = streamableValue row.value :=
  (streamableValue_applyCoalesced update nowSecs _).trans
    (streamableValue_applyUrgent update row.value)

lemma isStreamed_rowAfter {nowSecs : Int} {row : Option StoredRow} {e : RowEvent}
    (h : e.isMembership = false) : isStreamed (rowAfter nowSecs row e) = isStreamed row := by
  unfold rowAfter
  cases hkind : e.kind with
  | started thread | excluded | deleted => simp [isMembership, hkind] at h
  | request => rfl
  | update update =>
  cases row with
  | none => rfl
  | some row => exact streamableValue_updatedRow e update nowSecs row

lemma rowAfter_of_not_dirties {nowSecs : Int} {row : StoredRow} {e : RowEvent}
    (h : e.dirties nowSecs row = false) : rowAfter nowSecs (some row) e = some row := by
  unfold dirties at h
  cases hkind : e.kind with
  | update update =>
    simp only [hkind, Bool.or_eq_false_iff] at h
    have hnone := isSome_eq_false_iff.mp h.1
    rw [isNone_iff_eq_none] at hnone
    simp only [rowAfter, hkind, map_some]
    rw [updatedRow_unchanged hnone]
  | started thread | excluded | deleted | request => simp [hkind] at h

end Streamed

def leading (events : List RowEvent) : List RowEvent :=
  events.takeWhile (fun e => !e.isMembership)

def lastMembership (events : List RowEvent) : Option RowEvent :=
  (events.filter RowEvent.isMembership).getLast?

def marksRows (nowSecs : Int) : Option StoredRow → List RowEvent → Bool
  | _, [] => false
  | row, e :: rest => marksRow nowSecs row e || marksRows nowSecs (rowAfter nowSecs row e) rest

section Marks

variable {nowSecs : Int} {row : Option StoredRow} {e : RowEvent} {events : List RowEvent}

lemma isStreamed_of_isMembership (h : e.isMembership = true) :
    isStreamed (rowAfter nowSecs row e) = true ↔ e.StartsStreamed := by
  unfold RowEvent.StartsStreamed rowAfter
  cases hkind : e.kind with
  | started thread => simp [isStreamed, streamableValue_rowValue]
  | excluded | deleted => simp [isStreamed]
  | request | update update => simp [isMembership, hkind] at h

lemma isNone_of_isMembership (h : e.isMembership = true) :
    (rowAfter nowSecs row e).isNone = true ↔ e.Removes := by
  unfold RowEvent.Removes rowAfter
  cases hkind : e.kind with
  | started thread | excluded | deleted => simp
  | request | update update => simp [isMembership, hkind] at h

lemma marksRow_of_isMembership (h : e.isMembership = true) :
    marksRow nowSecs row e = true ↔ e.Removes ∨ e.StartsStreamed := by
  unfold marksRow
  rw [if_pos h, Bool.or_eq_true, isNone_of_isMembership h, isStreamed_of_isMembership h]

lemma marksRow_of_not (h : e.isMembership = false) : marksRow nowSecs row e = true ↔
      ∃ r, row = some r ∧ streamableValue r.value = true ∧ e.dirties nowSecs r = true := by
  unfold marksRow
  rw [if_neg (by simp [h]), isStreamed_rowAfter h]
  cases row with
  | none => simp
  | some r => simp [isStreamed, and_comm]

/-- Direct application marks the thread for every removal and every start of a streamed thread. -/
lemma marksRows_iff (events : List RowEvent) (row : Option StoredRow) :
    marksRows nowSecs row events = true ↔
      (∃ e ∈ leading events, ∃ r, row = some r ∧ streamableValue r.value = true ∧
        e.dirties nowSecs r = true) ∨
      ∃ e ∈ events, e.isMembership = true ∧ (e.Removes ∨ e.StartsStreamed) := by
  induction events generalizing row with
  | nil => simp [marksRows, leading]
  | cons e rest ih =>
  rw [marksRows, Bool.or_eq_true, ih]
  cases hmemb : e.isMembership with
  | true =>
    have hleading : leading (e :: rest) = [] := by simp [leading, hmemb]
    rw [marksRow_of_isMembership hmemb, hleading]
    constructor
    · rintro (hmark | ⟨e', -, r, hr, hstr, -⟩ | ⟨m, hm, hmark⟩)
      · exact .inr ⟨e, mem_cons_self, hmemb, hmark⟩
      · -- A row streamed after a membership event was started by it.
        have hstart : e.StartsStreamed := by
          rw [← @isStreamed_of_isMembership nowSecs row e hmemb, hr]
          exact hstr
        exact .inr ⟨e, mem_cons_self, hmemb, .inr hstart⟩
      · exact .inr ⟨m, mem_cons_of_mem _ hm, hmark⟩
    rintro (⟨e', he', -⟩ | ⟨m, hm, hmm, hmark⟩)
    · cases he'
    · rcases mem_cons.mp hm with rfl | hm
      · exact .inl hmark
      · exact .inr (.inr ⟨m, hm, hmm, hmark⟩)
  | false =>
  have hleading : leading (e :: rest) = e :: leading rest := by simp [leading, hmemb]
  have hlater : (∃ m ∈ e :: rest, m.isMembership = true ∧ (m.Removes ∨ m.StartsStreamed)) ↔
      ∃ m ∈ rest, m.isMembership = true ∧ (m.Removes ∨ m.StartsStreamed) := by
    simp [hmemb]
  rw [marksRow_of_not hmemb, hleading, hlater]
  cases hrow : row with
  | none =>
    have hnone : rowAfter nowSecs none e = none := by
      cases hkind : e.kind <;> simp [isMembership, hkind] at hmemb <;> simp [rowAfter, hkind]
    simp [hnone]
  | some r =>
  cases hdirty : e.dirties nowSecs r with
  | true =>
    have hstr : ∀ r', rowAfter nowSecs (some r) e = some r' →
        streamableValue r'.value = streamableValue r.value := by
      intro r' hr'
      have hsame := @isStreamed_rowAfter nowSecs (some r) e hmemb
      rw [hr'] at hsame
      exact hsame
    constructor
    · rintro (⟨r', hr', hs, hd⟩ | ⟨e', he', r', hr', hs, hd⟩ | h)
      · exact .inl ⟨e, mem_cons_self, r', hr', hs, hd⟩
      · exact .inl ⟨e, mem_cons_self, r, rfl, hstr r' hr' ▸ hs, hdirty⟩
      · exact .inr h
    rintro (⟨e', he', r', hr', hs, hd⟩ | h)
    · cases hr'
      exact .inl ⟨r, rfl, hs, hdirty⟩
    · exact .inr (.inr h)
  | false =>
    rw [rowAfter_of_not_dirties hdirty]
    simp [hdirty]

lemma isStreamed_foldl (events : List RowEvent) (row : Option StoredRow) :
    isStreamed (events.foldl (rowAfter nowSecs) row) = true ↔ match lastMembership events with
      | none => isStreamed row = true
      | some m => m.StartsStreamed := by
  induction events generalizing row with
  | nil => rfl
  | cons e rest ih =>
  rw [foldl_cons, ih]
  cases hmemb : e.isMembership with
  | true =>
    have hlast : lastMembership (e :: rest) = some ((lastMembership rest).getD e) := by
      unfold lastMembership
      rw [filter_cons_of_pos hmemb, getLast?_cons]
    rw [hlast]
    cases hrest : lastMembership rest with
    | none => exact isStreamed_of_isMembership hmemb
    | some m => rfl
  | false =>
  have hlast : lastMembership (e :: rest) = lastMembership rest := by
    unfold lastMembership
    rw [filter_cons_of_neg (by simp [hmemb])]
  rw [hlast]
  cases hrest : lastMembership rest with
  | none => exact iff_of_eq (congrArg (· = true) (isStreamed_rowAfter hmemb))
  | some m => rfl

end Marks

/-- When draining the events onto the read row marks the thread exactly if applying them at
once would. -/
def MarksAgree (nowSecs : Int) (row : StoredRow) (events : List RowEvent) : Prop :=
  match lastMembership events with
  | none => streamableValue row.value = true → ∃ e ∈ events, e.dirties nowSecs row = true
  | some last =>
    ¬ last.Removes ∧
      (¬ last.StartsStreamed →
        (∀ e ∈ events, e.isMembership = true → ¬ e.Removes ∧ ¬ e.StartsStreamed) ∧
        (streamableValue row.value = true → ∀ e ∈ leading events, e.dirties nowSecs row = false))

section Agreement

variable {nowSecs : Int} {row : StoredRow} {events : List RowEvent}

lemma lastMembership_eq_none (h : lastMembership events = none) :
    ∀ e ∈ events, e.isMembership = false := by
  intro e he
  unfold lastMembership at h
  rw [getLast?_eq_none_iff, filter_eq_nil_iff] at h
  simpa using h e he

lemma lastMembership_eq_some {last : RowEvent} (h : lastMembership events = some last) :
    last ∈ events ∧ last.isMembership = true :=
  mem_filter.mp (mem_of_getLast? h)

lemma leading_of_forall (h : ∀ e ∈ events, e.isMembership = false) : leading events = events := by
  refine takeWhile_eq_self_iff.mpr (fun e he => ?_)
  rw [h e he]
  rfl

lemma marksAgree_iff (nowSecs : Int) (row : StoredRow) (events : List RowEvent) :
    (isStreamed (events.foldl (rowAfter nowSecs) (some row)) = marksRows nowSecs (some row) events) ↔
      MarksAgree nowSecs row events := by
  rw [Bool.eq_iff_iff, isStreamed_foldl, marksRows_iff]
  unfold MarksAgree
  cases hlast : lastMembership events with
  | none =>
    have hnot := lastMembership_eq_none hlast
    rw [leading_of_forall hnot]
    constructor
    · intro h hstr
      rcases h.mp hstr with ⟨e, he, r, hr, -, hdirty⟩ | ⟨m, hm, hmemb, -⟩
      · cases hr
        exact ⟨e, he, hdirty⟩
      · rw [hnot m hm] at hmemb
        cases hmemb
    intro h
    constructor
    · intro hstr
      obtain ⟨e, he, hdirty⟩ := h hstr
      exact .inl ⟨e, he, row, rfl, hstr, hdirty⟩
    rintro (⟨e, he, r, hr, hstr, hdirty⟩ | ⟨m, hm, hmemb, -⟩)
    · cases hr
      exact hstr
    · rw [hnot m hm] at hmemb
      cases hmemb
  | some last =>
  obtain ⟨hmem, hmemb⟩ := lastMembership_eq_some hlast
  constructor
  · intro h
    refine ⟨fun hremoves => ?_, fun hstart => ⟨fun e he hm => ?_, fun hstr e he => ?_⟩⟩
    · obtain ⟨thread, hthr, -⟩ := h.mpr (.inr ⟨last, hmem, hmemb, .inl hremoves⟩)
      rcases hremoves with hkind | hkind <;> rw [hkind] at hthr <;> cases hthr
    · constructor <;> intro hmark
      · exact hstart (h.mpr (.inr ⟨e, he, hm, .inl hmark⟩))
      · exact hstart (h.mpr (.inr ⟨e, he, hm, .inr hmark⟩))
    · by_contra hdirty
      rw [Bool.not_eq_false] at hdirty
      exact hstart (h.mpr (.inl ⟨e, he, row, rfl, hstr, hdirty⟩))
  rintro ⟨hremoves, hquiet⟩
  constructor
  · intro hstart
    exact .inr ⟨last, hmem, hmemb, .inr hstart⟩
  intro h
  by_contra hstart
  obtain ⟨hmems, hlead⟩ := hquiet hstart
  rcases h with ⟨e, he, r, hr, hstr, hdirty⟩ | ⟨m, hm, hmm, hmark⟩
  · cases hr
    rw [hlead hstr e he] at hdirty
    cases hdirty
  · exact hmark.elim (hmems m hm hmm).1 (hmems m hm hmm).2

end Agreement

/-- The row of a thread once the read row is stored: the fresher one of both. -/
def seededRow (stored : Option StoredRow) (value : Json) (head : Nat) : StoredRow :=
  match stored with
  | none => ⟨rowValue value, head, false, none⟩
  | some stored =>
    if stored.rowMeta.cursor ≤ head then
      ⟨retainLiveState (rowValue value) stored.value, head, stored.rowMeta.archived,
        stored.rowMeta.liveActivity⟩
    else stored

def readStore (s : RowStore) (threadId : String) (head : Nat) : Hub.RowRead → RowStore
  | .ok (some row) => s.seedRow threadId row head
  | .ok none => s
  | .error _ => s

/-- Completing the read leaves the rows and marks of the events applied at once. -/
def DrainsDirectly (h : Hub) (threadId : String) (events : List RowEvent) (head : Nat)
    (read : Hub.RowRead) (nowSecs : Int) : Prop :=
  ∀ pending, h.materializing.get? threadId = some pending →
    let direct := applyDirectly (readStore h.store threadId head read) events nowSecs
    (h.completeMaterialization threadId head read nowSecs).1.store = direct.1 ∧
      (h.settleRead threadId pending head read nowSecs).2.1.map Prod.fst =
        if direct.2 then [threadId] else []

variable {s : RowStore} {h : Hub} {t : String} {events : List RowEvent} {nowSecs : Int}

lemma seedRow_rows (s : RowStore) (t : String) (value : Json) (head : Nat) :
    (s.seedRow t value head).rows.get? t = some (seededRow (s.rows.get? t) value head) := by
  unfold seedRow seededRow
  cases hrow : s.rows.get? t with
  | none => exact insert_rows_self _ _ _ _
  | some stored =>
  dsimp only
  split
  · exact insert_rows_self _ _ _ _
  · exact hrow

lemma applyDirectly_eq (hids : ∀ e ∈ events, e.threadId = t) (s : RowStore) (marked : Bool) :
    (events.foldl (directStep nowSecs) (s, marked)).1.rows.get? t =
        events.foldl (rowAfter nowSecs) (s.rows.get? t) ∧
      (events.foldl (directStep nowSecs) (s, marked)).2 =
        (marked || marksRows nowSecs (s.rows.get? t) events) := by
  induction events generalizing s marked with
  | nil => exact ⟨rfl, by simp [marksRows]⟩
  | cons e rest ih =>
  obtain ⟨hrow, hmark⟩ := ih (fun e he => hids e (mem_cons_of_mem _ he))
    (directStep nowSecs (s, marked) e).1 (directStep nowSecs (s, marked) e).2
  have hid := hids e mem_cons_self
  have hafter : (directStep nowSecs (s, marked) e).1.rows.get? t =
      rowAfter nowSecs (s.rows.get? t) e := by
    rw [← hid]
    exact apply_row s e nowSecs
  rw [hafter] at hrow hmark
  have hsnd := directStep_snd s marked e nowSecs
  rw [hid] at hsnd
  refine ⟨hrow, ?_⟩
  rw [foldl_cons, marksRows, ← Bool.or_assoc, ← hsnd]
  exact hmark

lemma drain_eq_applyDirectly (events : List RowEvent) (s : RowStore) (flushClass : FlushClass)
    (marked : Bool) :
    (events.foldl (drainEvent nowSecs) (s, flushClass)).1 =
      (events.foldl (directStep nowSecs) (s, marked)).1 := by
  rw [drain_fst]
  induction events generalizing s marked with
  | nil => rfl
  | cons e rest ih => exact ih _ _

@[simp] lemma markDirty_store (h : Hub) (marks : Marks) : (h.markDirty marks).store = h.store := rfl

variable {head : Nat} {pending : Materializing}

lemma completeMaterialization_of_pending
    {read : Hub.RowRead} (hpend : h.materializing.get? t = some pending) :
    h.completeMaterialization t head read nowSecs =
      (let settled := h.settleRead t pending head read nowSecs
      (settled.1.markDirty settled.2.1, settled.2.2)) := by
  unfold Hub.completeMaterialization
  rw [hpend]

lemma settleRead_row (h : Hub) (t : String) (pending : Materializing) (head : Nat) (row : Json)
    (nowSecs : Int) :
    (h.settleRead t pending head (.ok (some row)) nowSecs).1.store =
        (h.store.seed t row head pending.events nowSecs).1 ∧
      (h.settleRead t pending head (.ok (some row)) nowSecs).2.1.map Prod.fst =
        if (h.store.seed t row head pending.events nowSecs).1.streamable t then [t] else [] := by
  unfold Hub.settleRead
  dsimp only
  constructor
  · split <;> rfl
  · split <;> split <;> rfl

lemma marked_eq_iff (t : String) (a b : Bool) :
    ((if a then [t] else []) = if b then [t] else []) ↔ a = b := by
  cases a <;> cases b <;> simp

lemma drainsDirectly_row_iff {row : Json}
    (hpend : h.materializing.get? t = some pending) (hids : ∀ e ∈ pending.events, e.threadId = t) :
    DrainsDirectly h t pending.events head (.ok (some row)) nowSecs ↔
      MarksAgree nowSecs (seededRow (h.store.rows.get? t) row head) pending.events := by
  obtain ⟨hstore, hmarks⟩ := settleRead_row h t pending head row nowSecs
  have hdrain : (h.store.seed t row head pending.events nowSecs).1 =
      (applyDirectly (h.store.seedRow t row head) pending.events nowSecs).1 :=
    drain_eq_applyDirectly _ _ _ _
  obtain ⟨hrow, hmarked⟩ := @applyDirectly_eq t pending.events nowSecs hids
    (h.store.seedRow t row head) false
  rw [seedRow_rows] at hrow hmarked
  have hstreamable : (h.store.seed t row head pending.events nowSecs).1.streamable t =
      isStreamed (pending.events.foldl (rowAfter nowSecs)
        (some (seededRow (h.store.rows.get? t) row head))) := by
    rw [hdrain, ← hrow]
    rfl
  have hdirect : (applyDirectly (h.store.seedRow t row head) pending.events nowSecs).2 =
      marksRows nowSecs (some (seededRow (h.store.rows.get? t) row head)) pending.events := by
    unfold applyDirectly
    rw [hmarked, Bool.false_or]
  rw [← marksAgree_iff, ← hstreamable, ← hdirect]
  unfold DrainsDirectly
  simp only [hpend, some.injEq, forall_eq', completeMaterialization_of_pending hpend,
    markDirty_store, readStore]
  rw [hstore, hmarks]
  exact (and_iff_right hdrain).trans (marked_eq_iff t _ _)

lemma apply_of_quiet {e : RowEvent} (hmemb : e.isMembership = false)
    (hquiet : ∀ row, s.rows.get? e.threadId = some row → e.dirties nowSecs row = false) :
    (s.apply e nowSecs).1 = s := by
  cases hkind : e.kind with
  | started thread | excluded | deleted => simp [isMembership, hkind] at hmemb
  | request => exact apply_request hkind
  | update update =>
  cases hrow : s.rows.get? e.threadId with
  | none => exact apply_update_none hkind hrow
  | some row =>
  have hsame := rowAfter_of_not_dirties (hquiet row hrow)
  simp only [rowAfter, hkind, map_some, some.injEq] at hsame
  simp only [RowStore.apply, hkind, hrow]
  rw [applyToRow_fst, hsame, Table.insert_of_some hrow]
  simp [reindex]

/-- Without a read row nothing is drained: direct application when no event decides membership. -/
lemma drainsDirectly_of_quiet {read : Hub.RowRead}
    (hread : ∀ row, read ≠ .ok (some row)) (hids : ∀ e ∈ events, e.threadId = t)
    (hmemb : ∀ e ∈ events, e.isMembership = false)
    (hquiet : ∀ row, h.store.rows.get? t = some row → ∀ e ∈ events, e.dirties nowSecs row = false) :
    DrainsDirectly h t events head read nowSecs := by
  have hstore : ∀ marked, (events.foldl (directStep nowSecs) (h.store, marked)).1 = h.store := by
    induction events with
    | nil => exact fun _ => rfl
    | cons e rest ih =>
    intro marked
    have hsame : (directStep nowSecs (h.store, marked) e).1 = h.store :=
      apply_of_quiet (hmemb e mem_cons_self) (fun row hrow =>
        hquiet row (hids e mem_cons_self ▸ hrow) e mem_cons_self)
    rw [foldl_cons, ← @Prod.mk.eta _ _ (directStep nowSecs (h.store, marked) e), hsame]
    exact ih (fun e he => hids e (mem_cons_of_mem _ he))
      (fun e he => hmemb e (mem_cons_of_mem _ he))
      (fun row hrow e he => hquiet row hrow e (mem_cons_of_mem _ he)) _
  have hunmarked : marksRows nowSecs (h.store.rows.get? t) events = false := by
    rw [← Bool.not_eq_true, marksRows_iff]
    rintro (⟨e, he, row, hrow, -, hdirty⟩ | ⟨e, he, hm, -⟩)
    · rw [hquiet row hrow e ((takeWhile_sublist _).mem he)] at hdirty
      cases hdirty
    · rw [hmemb e he] at hm
      cases hm
  have hbase : readStore h.store t head read = h.store := by
    match read with
    | .ok (some row) => exact absurd rfl (hread row)
    | .ok none => rfl
    | .error _ => rfl
  have hmark := (@applyDirectly_eq t events nowSecs hids h.store false).2
  rw [hunmarked] at hmark
  intro pending hpend
  dsimp only
  rw [completeMaterialization_of_pending hpend, hbase]
  unfold applyDirectly
  rw [hstore, hmark]
  match read with
  | .ok (some row) => exact absurd rfl (hread row)
  | .ok none => exact ⟨rfl, rfl⟩
  | .error _ => exact ⟨rfl, rfl⟩

end CodeWide.ThreadList
