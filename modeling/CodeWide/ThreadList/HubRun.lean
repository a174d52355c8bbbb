import CodeWide.ThreadList.Materialization
import Mathlib.Logic.Function.Basic

/-!
# Runs of the row hub

A run remembers the events of a thread since the read of its row began (`arrived`) and the threads
deleted without a start since (`gone`).
-/

namespace CodeWide.ThreadList

open Lib List Table Function
open RowStore

structure HubRun where
  hub : Hub
  /-- The thread's deletion was applied, and no start since. -/
  gone : String → Bool
  arrived : String → List RowEvent

inductive HubInput where
  | journaled (entries : List Hub.JournaledRow) (nowSecs : Int)
  | page (rows : List Json) (head : Nat) (archived : Bool)
  | complete (threadId : String) (head : Nat) (read : Hub.RowRead) (nowSecs : Int)
  | subscribe (visible : Bool)
  | unsubscribe (id : Nat)
  | setVisible (id : Nat) (visible : Bool)
  | poll (id : Nat) (now : Nat) (inInterest : String → Bool)

def goneAfter (gone : Bool) (e : RowEvent) : Bool :=
  match e.kind with
  | .deleted => true
  | .started _ => false
  | _ => gone

namespace HubRun

def start : HubRun := ⟨Hub.empty, fun _ => false, fun _ => []⟩

def noteEvent (nowSecs : Int) (r : HubRun) (e : RowEvent) : HubRun where
  hub := (r.hub.applyEvent e nowSecs).1
  gone :=
    if r.hub.materializing.contains e.threadId then r.gone
    else update r.gone e.threadId (goneAfter (r.gone e.threadId) e)
  arrived :=
    update r.arrived e.threadId
      (if r.hub.materializing.contains e.threadId then r.arrived e.threadId ++ [e] else [e])

def goneAfterRead (r : HubRun) (threadId : String) (read : Hub.RowRead) : String → Bool :=
  match r.hub.materializing.get? threadId, read with
  | some pending, .ok (some _) =>
    update r.gone threadId (pending.events.foldl goneAfter (r.gone threadId))
  | _, _ => r.gone

def step (r : HubRun) : HubInput → HubRun
  | .journaled entries nowSecs =>
    { exec (noteEvent nowSecs) r (entries.filterMap Hub.JournaledRow.event?) with
      hub := (r.hub.applyJournaled entries nowSecs).1 }
  | .page rows head archived => { r with hub := (r.hub.observePage rows head archived).1 }
  | .complete threadId head read nowSecs =>
    { hub := (r.hub.completeMaterialization threadId head read nowSecs).1
      gone := r.goneAfterRead threadId read
      arrived := update r.arrived threadId [] }
  | .subscribe visible => { r with hub := (r.hub.subscribe visible).1 }
  | .unsubscribe id => { r with hub := r.hub.unsubscribe id }
  | .setVisible id visible => { r with hub := r.hub.setVisible id visible }
  | .poll id now inInterest => { r with hub := (r.hub.poll id now inInterest).1 }

def Steady (r : HubRun) : HubInput → Prop
  | .complete threadId head read nowSecs =>
    r.hub.materializing.contains threadId = true →
      (r.arrived threadId).length ≤ maxBufferedEvents ∧
      match read with
      | .ok (some row) =>
        MarksAgree nowSecs (seededRow (r.hub.store.rows.get? threadId) row head)
          (r.arrived threadId) ∧
        (r.gone threadId = true → ∃ e ∈ r.arrived threadId, e.isMembership = true)
      | _ =>
        ∀ e ∈ r.arrived threadId, e.isMembership = false ∧
          ∀ row, r.hub.store.rows.get? threadId = some row → e.dirties nowSecs row = false
  | .page rows head _ =>
    ∀ row ∈ rows, ∀ threadId, threadIdOf row = some threadId → r.gone threadId = true →
      r.hub.store.DeletedAfter threadId head
  | _ => True

def Meets (r : HubRun) : HubInput → Prop
  | .complete threadId head read nowSecs =>
    DrainsDirectly r.hub threadId (r.arrived threadId) head read nowSecs
  | .poll id now inInterest =>
    ∀ frame ∈ (r.hub.poll id now inInterest).2, ∀ row ∈ frame.rows,
      ∃ threadId, r.gone threadId = false ∧ r.hub.store.wireRow threadId = some row
  | _ => True

/-- A pending read holds the first of the events that arrived since it began. -/
def Buffered (r : HubRun) : Prop :=
  ∀ t pending, r.hub.materializing.get? t = some pending →
    (∀ e ∈ r.arrived t, e.threadId = t) ∧
    pending.events = (r.arrived t).take maxBufferedEvents ∧
    pending.overflowed = decide (maxBufferedEvents < (r.arrived t).length)

/-- A deleted thread has no row. -/
def GoneAbsent (r : HubRun) : Prop :=
  ∀ t, r.gone t = true → r.hub.store.rows.get? t = none

section Events

variable {h : Hub} {r : HubRun} {e : RowEvent} {nowSecs : Int}

variable {pending : Materializing}

lemma applyEvent_of_pending (hpend : h.materializing.get? e.threadId = some pending) :
    (h.applyEvent e nowSecs).1 =
      { h with materializing := h.materializing.insert e.threadId (Hub.buffer pending e) } := by
  unfold Hub.applyEvent
  rw [hpend]

lemma buffer_take {arrived : List RowEvent} (hevs : pending.events = arrived.take maxBufferedEvents)
    (hover : pending.overflowed = decide (maxBufferedEvents < arrived.length)) (e : RowEvent) :
    (Hub.buffer pending e).events = (arrived ++ [e]).take maxBufferedEvents ∧
      (Hub.buffer pending e).overflowed = decide (maxBufferedEvents < (arrived ++ [e]).length) := by
  have hlen : pending.events.length = min maxBufferedEvents arrived.length := by
    rw [hevs, length_take]
  unfold Hub.buffer
  rw [hlen, length_append, length_singleton]
  split
  · rename_i hroom
    have hfits : arrived.length < maxBufferedEvents := by omega
    refine ⟨?_, ?_⟩
    · dsimp only
      rw [hevs, take_of_length_le (by omega),
        take_of_length_le (by rw [length_append, length_singleton]; omega)]
    · dsimp only
      rw [hover, decide_eq_decide]
      omega
  rename_i hfull
  have hfits : maxBufferedEvents ≤ arrived.length := by omega
  refine ⟨?_, ?_⟩
  · dsimp only
    rw [hevs, take_append_of_le_length hfits]
  · dsimp only
    rw [eq_comm, decide_eq_true_eq]
    omega

lemma applyEvent_of_not_pending (hpend : h.materializing.get? e.threadId = none) :
    (h.applyEvent e nowSecs).1.store = (h.store.apply e nowSecs).1 ∧
      ((h.applyEvent e nowSecs).1.materializing = h.materializing ∨
        (h.applyEvent e nowSecs).1.materializing =
          h.materializing.insert e.threadId ⟨[e], false⟩) := by
  unfold Hub.applyEvent
  rw [hpend]
  dsimp only
  cases (h.store.apply e nowSecs).2 with
  | unchanged => exact ⟨rfl, .inl rfl⟩
  | dirty flushClass =>
    dsimp only
    split <;> split <;> exact ⟨rfl, .inl rfl⟩
  | unknown =>
  dsimp only
  split
  · exact ⟨rfl, .inl rfl⟩
  · exact ⟨rfl, .inr rfl⟩

lemma exec_noteEvent_hub (events : List RowEvent) (r : HubRun) :
    (exec (noteEvent nowSecs) r events).hub = (r.hub.applyEvents events nowSecs).1 := by
  induction events generalizing r with
  | nil => rfl
  | cons e rest ih => exact ih (noteEvent nowSecs r e)

lemma Buffered.noteEvent (hr : r.Buffered) (nowSecs : Int) (e : RowEvent) :
    (r.noteEvent nowSecs e).Buffered := by
  intro t pending' hget
  cases hpend : r.hub.materializing.get? e.threadId with
  | some pending =>
    have hcont : r.hub.materializing.contains e.threadId = true :=
      Table.contains_iff.mpr ⟨pending, hpend⟩
    simp only [HubRun.noteEvent, applyEvent_of_pending hpend, hcont, if_true] at hget ⊢
    rcases eq_or_ne t e.threadId with rfl | hne
    · obtain ⟨hids, hevs, hover⟩ := hr _ pending hpend
      rw [Table.get?_insert_self, Option.some.injEq] at hget
      subst hget
      rw [update_self]
      refine ⟨fun e' he' => ?_, ?_⟩
      · rcases mem_concat.mp he' with he' | he'
        · exact hids e' he'
        · rw [he']
      · exact buffer_take hevs hover e
    · rw [Table.get?_insert_of_ne _ _ hne] at hget
      rw [update_of_ne hne]
      exact hr t pending' hget
  | none =>
  have hcont : r.hub.materializing.contains e.threadId = false := by
    simp [Table.contains, hpend]
  obtain ⟨-, hmat⟩ := @applyEvent_of_not_pending r.hub e nowSecs hpend
  simp only [HubRun.noteEvent, hcont, Bool.false_eq_true, if_false] at hget ⊢
  rcases hmat with hmat | hmat
  · rw [hmat] at hget
    have hne : t ≠ e.threadId := by
      rintro rfl
      rw [hpend] at hget
      cases hget
    rw [update_of_ne hne]
    exact hr t pending' hget
  rw [hmat] at hget
  rcases eq_or_ne t e.threadId with rfl | hne
  · rw [Table.get?_insert_self, Option.some.injEq] at hget
    subst hget
    rw [update_self]
    exact ⟨fun e' he' => by rw [mem_singleton.mp he'], by simp [maxBufferedEvents],
      by simp [maxBufferedEvents]⟩
  · rw [Table.get?_insert_of_ne _ _ hne] at hget
    rw [update_of_ne hne]
    exact hr t pending' hget

end Events

section Absent

variable {s : RowStore} {r : HubRun} {t : String} {e : RowEvent} {nowSecs : Int}

lemma insert_absent {id : String} {value : Json} {m : ListRowMeta} (hid : t ≠ id)
    (h : s.rows.get? t = none) : (s.insert id value m).rows.get? t = none := by
  rcases @insert_rows_of_ne s id t value m hid with hsame | hnone
  · rw [hsame, h]
  · exact hnone

lemma apply_absent (hid : t ≠ e.threadId) (h : s.rows.get? t = none) :
    (s.apply e nowSecs).1.rows.get? t = none := by
  cases hkind : e.kind with
  | started thread =>
    simp only [RowStore.apply, hkind, applyStarted]
    exact insert_absent hid h
  | excluded => rw [apply_removes (.inl hkind), remove_rows, get?_erase_of_ne _ hid, h]
  | deleted => rw [apply_removes (.inr hkind), remove_rows, get?_erase_of_ne _ hid, h]
  | request => rw [apply_request hkind, h]
  | update update =>
  cases hrow : s.rows.get? e.threadId with
  | none => rw [apply_update_none hkind hrow, h]
  | some row =>
    simp only [RowStore.apply, hkind, hrow]
    rw [applyToRow_fst, reindex_rows, get?_insert_of_ne _ _ hid, h]

lemma seedRow_absent {id : String} {value : Json} {head : Nat} (hid : t ≠ id)
    (h : s.rows.get? t = none) : (s.seedRow id value head).rows.get? t = none := by
  unfold seedRow
  split
  · exact insert_absent hid h
  · split
    · exact insert_absent hid h
    · exact h

variable {row : Option StoredRow}

lemma goneAfter_absent {gone : Bool} (h : e.isMembership = true ∨ (gone = true → row = none)) :
    goneAfter gone e = true → rowAfter nowSecs row e = none := by
  unfold goneAfter rowAfter
  cases hkind : e.kind with
  | started thread | excluded | deleted => simp
  | request =>
    rcases h with h | h
    · simp [RowEvent.isMembership, hkind] at h
    · exact h
  | update update =>
  rcases h with h | h
  · simp [RowEvent.isMembership, hkind] at h
  · intro hgone
    rw [h hgone]
    rfl

lemma foldl_goneAfter_absent (events : List RowEvent) {gone : Bool}
    (h : (∃ e ∈ events, e.isMembership = true) ∨ (gone = true → row = none)) :
    events.foldl goneAfter gone = true → events.foldl (rowAfter nowSecs) row = none := by
  induction events generalizing gone row with
  | nil =>
    rcases h with ⟨e, he, -⟩ | h
    · cases he
    · exact h
  | cons e rest ih =>
  rw [foldl_cons, foldl_cons]
  apply ih
  rcases h with ⟨e', he', hmemb⟩ | h
  · rcases mem_cons.mp he' with rfl | he'
    · exact .inr (goneAfter_absent (.inl hmemb))
    · exact .inl ⟨e', he', hmemb⟩
  · exact .inr (goneAfter_absent (.inr h))

lemma GoneAbsent.noteEvent (hr : r.GoneAbsent) (nowSecs : Int) (e : RowEvent) :
    (r.noteEvent nowSecs e).GoneAbsent := by
  intro t hgone
  cases hpend : r.hub.materializing.get? e.threadId with
  | some pending =>
    have hcont : r.hub.materializing.contains e.threadId = true :=
      Table.contains_iff.mpr ⟨pending, hpend⟩
    simp only [HubRun.noteEvent, applyEvent_of_pending hpend, hcont, if_true] at hgone ⊢
    exact hr t hgone
  | none =>
  have hcont : r.hub.materializing.contains e.threadId = false := by
    simp [Table.contains, hpend]
  obtain ⟨hstore, -⟩ := @applyEvent_of_not_pending r.hub e nowSecs hpend
  simp only [HubRun.noteEvent, hcont, Bool.false_eq_true, if_false] at hgone ⊢
  rw [hstore]
  rcases eq_or_ne t e.threadId with rfl | hne
  · rw [update_self] at hgone
    rw [apply_row]
    exact goneAfter_absent (.inr (hr _)) hgone
  · rw [update_of_ne hne] at hgone
    exact apply_absent hne (hr t hgone)

lemma observePage_absent {head : Nat} {archived : Bool} (rows : List Json)
    (h : s.rows.get? t = none)
    (hpage : ∀ row ∈ rows, threadIdOf row = some t → s.DeletedAfter t head) :
    (s.observePage rows head archived).1.rows.get? t = none := by
  induction rows generalizing s with
  | nil => exact h
  | cons row rest ih =>
  have hrest : ∀ row ∈ rest, threadIdOf row = some t → s.DeletedAfter t head :=
    fun row hrow => hpage row (mem_cons_of_mem _ hrow)
  change ((s.observeRow row head archived).1.observePage rest head archived).1.rows.get? t = none
  cases hid : threadIdOf row with
  | none =>
    have hsame : (s.observeRow row head archived).1 = s := by simp only [observeRow, hid]
    rw [hsame]
    exact ih h hrest
  | some id =>
  rcases eq_or_ne t id with rfl | hne
  · have hchg : ¬ s.ChangedAfter t head := by
      rintro ⟨stored, hsto, -⟩
      rw [h] at hsto
      cases hsto
    rw [observeRow_of_deletedAfter hid hchg (hpage row mem_cons_self hid)]
    exact ih h hrest
  unfold observeRow
  rw [hid]
  dsimp only
  split
  · exact ih h hrest
  split
  · exact ih h hrest
  refine ih (insert_absent hne h) (fun row' hrow' hid' => ?_)
  obtain ⟨cursor, hcursor, hlt⟩ := hrest row' hrow' hid'
  refine ⟨cursor, ?_, hlt⟩
  rw [insert_tombstones, get?_erase_of_ne _ hne, hcursor]

end Absent

section Frames

def FromStore (store : RowStore) (frames : List Frame) : Prop :=
  ∀ frame ∈ frames, ∀ row ∈ frame.rows, ∃ t, store.wireRow t = some row

lemma fromStore_addToFrame {store : RowStore} {acc : List Frame × Frame}
    (hacc : FromStore store (acc.1 ++ [acc.2])) (t : String) :
    FromStore store ((Hub.addToFrame store acc t).1 ++ [(Hub.addToFrame store acc t).2]) := by
  obtain ⟨frames, open_⟩ := acc
  have hopen : ∀ row ∈ open_.rows, ∃ t, store.wireRow t = some row :=
    hacc open_ (mem_append_right _ mem_cons_self)
  have hfilled : ∀ filled : Frame, (∀ row ∈ filled.rows, ∃ t, store.wireRow t = some row) →
      FromStore store (frames ++ [filled]) := by
    intro filled hrows frame hframe
    rcases mem_concat.mp hframe with hframe | hframe
    · exact hacc frame (mem_append_left _ hframe)
    · rw [hframe]
      exact hrows
  have hclose : ∀ filled : Frame, (∀ row ∈ filled.rows, ∃ t, store.wireRow t = some row) →
      FromStore store ((frames ++ [filled]) ++ [⟨[], []⟩]) := by
    intro filled hrows frame hframe
    rcases mem_concat.mp hframe with hframe | hframe
    · exact hfilled filled hrows frame hframe
    · rw [hframe]
      intro row hrow
      cases hrow
  have hnext : ∀ filled : Frame, (∀ row ∈ filled.rows, ∃ t, store.wireRow t = some row) →
      FromStore store ((if filled.rows.length + filled.removed.length = maxRowsPerFrame then
            ((frames ++ [filled], ⟨[], []⟩) : List Frame × Frame) else (frames, filled)).1 ++
          [(if filled.rows.length + filled.removed.length = maxRowsPerFrame then
            ((frames ++ [filled], ⟨[], []⟩) : List Frame × Frame) else (frames, filled)).2]) := by
    intro filled hrows
    split
    · exact hclose filled hrows
    · exact hfilled filled hrows
  unfold Hub.addToFrame
  dsimp only
  cases hrow : store.wireRow t with
  | some row =>
    refine hnext _ (fun row' hrow' => ?_)
    rcases mem_concat.mp hrow' with hrow' | hrow'
    · exact hopen row' hrow'
    · rw [hrow']
      exact ⟨t, hrow⟩
  | none =>
  cases store.tombstones.get? t with
  | none => exact hacc
  | some cursor => exact hnext _ hopen

lemma fromStore_frames (h : Hub) (ids : List String) : FromStore h.store (h.frames ids) := by
  have hfold : ∀ (ids : List String) (acc : List Frame × Frame),
      FromStore h.store (acc.1 ++ [acc.2]) →
      FromStore h.store ((ids.foldl (Hub.addToFrame h.store) acc).1 ++
        [(ids.foldl (Hub.addToFrame h.store) acc).2]) := by
    intro ids
    induction ids with
    | nil => exact fun _ hacc => hacc
    | cons t rest ih => exact fun acc hacc => ih _ (fromStore_addToFrame hacc t)
  have hstart : FromStore h.store ([] ++ [(⟨[], []⟩ : Frame)]) := by
    intro frame hframe row hrow
    rw [nil_append, mem_singleton] at hframe
    rw [hframe] at hrow
    cases hrow
  have hall := hfold ids ([], ⟨[], []⟩) hstart
  unfold Hub.frames
  dsimp only
  split
  · exact fun frame hframe => hall frame (mem_append_left _ hframe)
  · exact hall

lemma poll_store (h : Hub) (id now : Nat) (inInterest : String → Bool) :
    (h.poll id now inInterest).1.store = h.store ∧
      (h.poll id now inInterest).1.materializing = h.materializing := by
  unfold Hub.poll
  split <;> exact ⟨rfl, rfl⟩

lemma fromStore_poll (h : Hub) (id now : Nat) (inInterest : String → Bool) :
    FromStore h.store (h.poll id now inInterest).2 := by
  unfold Hub.poll
  split
  · intro frame hframe
    cases hframe
  · rename_i s _
    exact fromStore_frames
      { h with subscribers := h.subscribers.insert id (s.poll now inInterest).1 } _

end Frames

section Steps

variable {r : HubRun}

lemma foldl_unignore (ids : List String) (h : Hub) : (ids.foldl Hub.unignore h).store = h.store ∧
      (ids.foldl Hub.unignore h).materializing = h.materializing := by
  induction ids generalizing h with
  | nil => exact ⟨rfl, rfl⟩
  | cons t rest ih => exact ih (h.unignore t)

lemma observePage_store (h : Hub) (rows : List Json) (head : Nat) (archived : Bool) :
    (h.observePage rows head archived).1.store = (h.store.observePage rows head archived).1 ∧
      (h.observePage rows head archived).1.materializing = h.materializing := by
  obtain ⟨hstore, hmat⟩ := foldl_unignore (rows.filterMap threadIdOf) h
  unfold Hub.observePage
  dsimp only
  rw [hstore, hmat]
  exact ⟨rfl, rfl⟩

lemma applyJournaled_store (r : HubRun) (entries : List Hub.JournaledRow) (nowSecs : Int) :
    let noted := exec (noteEvent nowSecs) r (entries.filterMap Hub.JournaledRow.event?)
    (r.hub.applyJournaled entries nowSecs).1.store = noted.hub.store ∧
      (r.hub.applyJournaled entries nowSecs).1.materializing = noted.hub.materializing := by
  dsimp only
  rw [exec_noteEvent_hub]
  exact ⟨rfl, rfl⟩

lemma setVisible_store (h : Hub) (id : Nat) (visible : Bool) :
    (h.setVisible id visible).store = h.store ∧
      (h.setVisible id visible).materializing = h.materializing := by
  unfold Hub.setVisible
  split <;> exact ⟨rfl, rfl⟩

lemma Buffered.congr {r' : HubRun} (hr : r.Buffered)
    (hmat : r'.hub.materializing = r.hub.materializing) (harrived : r'.arrived = r.arrived) :
    r'.Buffered := by
  intro t pending hget
  rw [hmat] at hget
  rw [harrived]
  exact hr t pending hget

lemma GoneAbsent.congr {r' : HubRun} (hr : r.GoneAbsent) (hstore : r'.hub.store = r.hub.store)
    (hgone : r'.gone = r.gone) : r'.GoneAbsent := by
  intro t ht
  rw [hgone] at ht
  rw [hstore]
  exact hr t ht

variable {pending : Materializing}

lemma completeMaterialization_pending (h : Hub) (t : String) (head : Nat) (read : Hub.RowRead)
    (nowSecs : Int) {t' : String}
    (hget : (h.completeMaterialization t head read nowSecs).1.materializing.get? t' =
      some pending) :
    (t' ≠ t ∧ h.materializing.get? t' = some pending) ∨ (t' = t ∧ pending = ⟨[], false⟩) := by
  cases hbef : h.materializing.get? t with
  | none =>
    unfold Hub.completeMaterialization at hget
    rw [hbef] at hget
    refine .inl ⟨?_, hget⟩
    rintro rfl
    rw [hbef] at hget
    cases hget
  | some before =>
  have herase : ∀ {m : Table String Materializing}, m = h.materializing.erase t →
      m.get? t' = some pending → t' ≠ t ∧ h.materializing.get? t' = some pending := by
    rintro m rfl hm
    rcases eq_or_ne t' t with rfl | hne
    · rw [get?_erase_self] at hm
      cases hm
    · rw [get?_erase_of_ne _ hne] at hm
      exact ⟨hne, hm⟩
  rw [completeMaterialization_of_pending hbef] at hget
  match read with
  | .ok none => exact .inl (herase rfl hget)
  | .error _ => exact .inl (herase rfl hget)
  | .ok (some row) =>
    simp only [Hub.settleRead] at hget
    split at hget
    · rcases eq_or_ne t' t with rfl | hne
      · refine .inr ⟨rfl, ?_⟩
        have hself : (some ⟨[], false⟩ : Option Materializing) = some pending :=
          (get?_insert_self _ _ _).symm.trans hget
        exact (Option.some.inj hself).symm
      · refine .inl (herase rfl ?_)
        exact (get?_insert_of_ne _ _ hne).symm.trans hget
    · exact .inl (herase rfl hget)

lemma Buffered.step (hr : r.Buffered) (i : HubInput) : (r.step i).Buffered := by
  cases i with
  | journaled entries nowSecs =>
    have hnoted : (exec (HubRun.noteEvent nowSecs) r
        (entries.filterMap Hub.JournaledRow.event?)).Buffered :=
      exec_invariant (P := Buffered) (fun r e hr => Buffered.noteEvent hr nowSecs e) hr _
    exact hnoted.congr (applyJournaled_store r entries nowSecs).2 rfl
  | page rows head archived => exact hr.congr (observePage_store _ _ _ _).2 rfl
  | complete t head read nowSecs =>
    intro t' pending hget
    rcases completeMaterialization_pending _ _ _ _ _ hget with ⟨hne, hbef⟩ | ⟨rfl, rfl⟩
    · simp only [HubRun.step, update_of_ne hne]
      exact hr t' pending hbef
    · simp only [HubRun.step, update_self]
      exact ⟨fun e he => (not_mem_nil he).elim, rfl, rfl⟩
  | subscribe visible | unsubscribe id => exact hr.congr rfl rfl
  | setVisible id visible => exact hr.congr (setVisible_store _ _ _).2 rfl
  | poll id now inInterest => exact hr.congr (poll_store _ _ _ _).2 rfl

lemma buffered_start : start.Buffered := by
  intro t pending hget
  cases hget

lemma Buffered.events_eq (hr : r.Buffered) {t : String}
    (hpend : r.hub.materializing.get? t = some pending)
    (hlen : (r.arrived t).length ≤ maxBufferedEvents) : pending.events = r.arrived t := by
  obtain ⟨-, hevs, -⟩ := hr t pending hpend
  rw [hevs, take_of_length_le hlen]

lemma drain_absent {s : RowStore} {t t' : String} {nowSecs : Int} (events : List RowEvent)
    (hids : ∀ e ∈ events, e.threadId = t) (hne : t' ≠ t) (h : s.rows.get? t' = none) :
    (exec RowStep.run s (events.map (fun e => .event e nowSecs))).rows.get? t' = none := by
  induction events generalizing s with
  | nil => exact h
  | cons e rest ih =>
    have hid := hids e mem_cons_self
    exact ih (fun e he => hids e (mem_cons_of_mem _ he)) (apply_absent (hid ▸ hne) h)

lemma GoneAbsent.complete (hr : r.GoneAbsent) (hbuf : r.Buffered) {t : String} {head : Nat}
    {read : Hub.RowRead} {nowSecs : Int} (hsteady : r.Steady (.complete t head read nowSecs)) :
    (r.step (.complete t head read nowSecs)).GoneAbsent := by
  intro t' hgone
  cases hpend : r.hub.materializing.get? t with
  | none =>
    have hsame : (r.hub.completeMaterialization t head read nowSecs).1 = r.hub := by
      unfold Hub.completeMaterialization
      rw [hpend]
    simp only [HubRun.step, goneAfterRead, hpend, hsame] at hgone ⊢
    exact hr t' hgone
  | some pending =>
  obtain ⟨hlen, hread⟩ := hsteady (contains_iff.mpr ⟨pending, hpend⟩)
  have hevs := hbuf.events_eq hpend hlen
  have hids : ∀ e ∈ pending.events, e.threadId = t := by
    rw [hevs]
    exact (hbuf t pending hpend).1
  match read with
  | .ok none =>
    simp only [HubRun.step, goneAfterRead, hpend,
      completeMaterialization_of_pending hpend] at hgone ⊢
    exact hr t' hgone
  | .error _ =>
    simp only [HubRun.step, goneAfterRead, hpend,
      completeMaterialization_of_pending hpend] at hgone ⊢
    exact hr t' hgone
  | .ok (some row) =>
    simp only [HubRun.step, goneAfterRead, hpend,
      completeMaterialization_of_pending hpend, markDirty_store] at hgone ⊢
    rw [(settleRead_row r.hub t pending head row nowSecs).1]
    rcases eq_or_ne t' t with rfl | hne
    · rw [update_self] at hgone
      obtain ⟨hrow, -⟩ := @applyDirectly_eq t' pending.events nowSecs hids
        (r.hub.store.seedRow t' row head) false
      unfold RowStore.seed
      rw [@drain_eq_applyDirectly nowSecs pending.events _ _ false, hrow, seedRow_rows]
      refine foldl_goneAfter_absent pending.events ?_ hgone
      cases hbef : r.gone t' with
      | true =>
        rw [hevs]
        exact .inl (hread.2 hbef)
      | false =>
        refine .inr (fun h => ?_)
        cases h
    rw [update_of_ne hne] at hgone
    unfold RowStore.seed
    rw [drain_fst]
    exact drain_absent pending.events hids hne (seedRow_absent hne (hr t' hgone))

lemma GoneAbsent.step (hr : r.GoneAbsent) (hbuf : r.Buffered) {i : HubInput}
    (hsteady : r.Steady i) : (r.step i).GoneAbsent := by
  cases i with
  | journaled entries nowSecs =>
    have hnoted : (exec (HubRun.noteEvent nowSecs) r
        (entries.filterMap Hub.JournaledRow.event?)).GoneAbsent :=
      exec_invariant (P := GoneAbsent) (fun r e hr => GoneAbsent.noteEvent hr nowSecs e) hr _
    exact hnoted.congr (applyJournaled_store r entries nowSecs).1 rfl
  | page rows head archived =>
    intro t hgone
    have hstore := (observePage_store r.hub rows head archived).1
    simp only [HubRun.step, hstore] at hgone ⊢
    exact observePage_absent rows (hr t hgone) (fun row hrow hid => hsteady row hrow t hid hgone)
  | complete t head read nowSecs => exact hr.complete hbuf hsteady
  | subscribe visible | unsubscribe id => exact hr.congr rfl rfl
  | setVisible id visible => exact hr.congr (setVisible_store _ _ _).1 rfl
  | poll id now inInterest => exact hr.congr (poll_store _ _ _ _).1 rfl

lemma Steady.meets {i : HubInput} (hsteady : r.Steady i) (hbuf : r.Buffered)
    (habsent : r.GoneAbsent) : r.Meets i := by
  cases i with
  | complete t head read nowSecs =>
    intro pending hpend
    obtain ⟨hlen, hread⟩ := hsteady (contains_iff.mpr ⟨pending, hpend⟩)
    have hevs := hbuf.events_eq hpend hlen
    have hids := (hbuf t pending hpend).1
    match read with
    | .ok (some row) =>
      rw [← hevs] at hread hids ⊢
      exact (drainsDirectly_row_iff hpend hids).mpr hread.1 pending hpend
    | .ok none =>
      refine drainsDirectly_of_quiet ?_ hids (fun e he => (hread e he).1)
        (fun row hrow e he => (hread e he).2 row hrow) pending hpend
      rintro row ⟨⟩
    | .error _ =>
      refine drainsDirectly_of_quiet ?_ hids (fun e he => (hread e he).1)
        (fun row hrow e he => (hread e he).2 row hrow) pending hpend
      rintro row ⟨⟩
  | poll id now inInterest =>
    intro frame hframe row hrow
    obtain ⟨t, ht⟩ := fromStore_poll r.hub id now inInterest frame hframe row hrow
    refine ⟨t, ?_, ht⟩
    by_contra hgone
    rw [Bool.not_eq_false] at hgone
    rw [wireRow, habsent t hgone] at ht
    cases ht
  | journaled entries nowSecs | page rows head archived | subscribe visible | unsubscribe id
  | setVisible id visible => trivial

end Steps

/-- A pending read drains a row as if its events had been applied at once exactly when the marks
agree. -/
theorem materialization_drains_directly (inputs : List HubInput) :
    (∀ t pending head row nowSecs,
      (exec step start inputs).hub.materializing.get? t = some pending →
      ((exec step start inputs).arrived t).length ≤ maxBufferedEvents →
      (DrainsDirectly (exec step start inputs).hub t ((exec step start inputs).arrived t) head
          (.ok (some row)) nowSecs ↔
        MarksAgree nowSecs
          (seededRow ((exec step start inputs).hub.store.rows.get? t) row head)
          ((exec step start inputs).arrived t))) ∧
    (Always step Steady start inputs →
      Always step Meets start inputs ∧
        ∀ t, (exec step start inputs).gone t = true →
          (exec step start inputs).hub.store.wireRow t = none) := by
  constructor
  · intro t pending head row nowSecs hpend hlen
    have hbuf : (exec step start inputs).Buffered :=
      exec_invariant (P := Buffered) (fun r i hr => Buffered.step hr i) buffered_start inputs
    have hevs := hbuf.events_eq hpend hlen
    have hids := (hbuf t pending hpend).1
    rw [← hevs] at hids ⊢
    exact drainsDirectly_row_iff hpend hids
  intro hrun
  have hstart : start.Buffered ∧ start.GoneAbsent :=
    ⟨buffered_start, fun t hgone => by cases hgone⟩
  have hstep : ∀ (r : HubRun) (i : HubInput), r.Buffered ∧ r.GoneAbsent → r.Steady i →
      (r.step i).Buffered ∧ (r.step i).GoneAbsent :=
    fun r i hr hsteady => ⟨hr.1.step i, hr.2.step hr.1 hsteady⟩
  refine ⟨Always.of_invariant hstep (fun r i hr hsteady => hsteady.meets hr.1 hr.2) hstart hrun,
    fun t hgone => ?_⟩
  have hend := exec_invariant_of_always hstep hstart hrun
  unfold wireRow
  rw [hend.2 t hgone]
  rfl

end HubRun

def turnEntry (id : String) (cursor : Nat) : Hub.JournaledRow where
  payload := .obj [
    ("codewideThreadPatch", .obj [("operation", .obj [("kind", .str "turnStarted")])]),
    ("method", .str "turn/started"), ("params", .obj [("threadId", .str id)])]
  cursor := cursor
  streamedPreview := none
  seed := none

def deletedEntry (id : String) (cursor : Nat) : Hub.JournaledRow where
  payload := .obj [("method", .str "thread/deleted"), ("params", .obj [("threadId", .str id)])]
  cursor := cursor
  streamedPreview := none
  seed := none

namespace HubRun

/-- A visible socket, a turn of an unknown thread, its read row, and the flush. -/
theorem materialization_drains_first_turn :
    let inputs : List HubInput := [.subscribe true, .journaled [turnEntry "t" 5] 100,
      .complete "t" 4 (.ok (some (listedRow "t" "hi"))) 100, .poll 0 0 (fun _ => false)]
    Always step Steady start inputs ∧ Always step Meets start inputs := by
  intro inputs
  have hsteady : Always step Steady start inputs := by
    refine ⟨trivial, trivial, fun _ => ⟨by decide, fun _ => ?_, fun hgone => ?_⟩, trivial, trivial⟩
    · exact ⟨⟨"t", 5, .urgent, .update { RowUpdate.default with status := some .active }⟩,
        by decide, by decide⟩
    · exact absurd hgone (by decide)
  exact ⟨hsteady, ((materialization_drains_directly inputs).2 hsteady).1⟩

/-- A deletion during the read leaves a tombstone that is not streamed. -/
theorem read_loses_deletion :
    ¬ Always step Meets start [.journaled [turnEntry "t" 5, deletedEntry "t" 6] 100,
      .complete "t" 4 (.ok (some (listedRow "t" "hi"))) 100] ∧
    (let inputs : List HubInput := [.subscribe true, .journaled [turnEntry "t" 5] 100,
      .page [listedRow "t" "hi"] 5 false, .journaled [deletedEntry "t" 6] 100,
      .complete "t" 5 (.ok none) 100]
     ¬ Always step Meets start inputs ∧
      (((exec step start (inputs ++ [.journaled [turnEntry "t" 7] 100])).hub.poll 0 0
        (fun _ => false)).2.map (fun frame => frame.rows.map threadIdOf)) = [[some "t"]]) := by
  refine ⟨?_, ?_, by decide⟩
  · rintro ⟨-, hcomp, -⟩
    have hmarks := (hcomp ⟨[⟨"t", 5, .urgent, .update { RowUpdate.default with
      status := some .active }⟩, ⟨"t", 6, .urgent, .deleted⟩], false⟩ (by decide)).2
    revert hmarks
    decide
  rintro ⟨-, -, -, -, hcomp, -⟩
  have hstore := (hcomp ⟨[⟨"t", 5, .urgent, .update { RowUpdate.default with
    status := some .active }⟩, ⟨"t", 6, .urgent, .deleted⟩], false⟩ (by decide)).1
  revert hstore
  decide

end HubRun

end CodeWide.ThreadList
