import CodeWide.Summary.ServerRows

/-!
# The device race rule

A session keeps the greatest cursor it was told of for a thread.
-/

namespace CodeWide.Summary

open Lib Table Option SessionState

section Listed

variable {rows : Table String StoredThreadSummary} {changed : Changes} {t t' : String}

lemma listed_empty : listed rows ∅ t = rows.get? t := rfl

lemma listed_insert (row : Option StoredThreadSummary) :
    listed rows (changed.insert t row) t' = if t' = t then row else listed rows changed t' := by
  unfold listed
  rw [get?_insert]
  by_cases heq : t' = t
  · rw [if_pos heq, if_pos heq]
  · rw [if_neg heq, if_neg heq]

lemma get?_commit : (DeviceList.commit rows changed).get? t = listed rows changed t := by
  have hwrite : ∀ (rows : Table String StoredThreadSummary)
      (e : String × Option StoredThreadSummary) (k : String),
      (match e with
        | (threadId, some row) => rows.insert threadId row
        | (threadId, none) => rows.erase threadId).get? k =
      if k = e.1 then e.2 else rows.get? k := by
    rintro rows ⟨k', row⟩ k
    cases row with
    | some row => exact get?_insert rows k' k row
    | none => exact get?_erase rows k' k
  have hfold := @get?_foldl_entries _ _ _ _ _ (fun row _ => row) hwrite changed rows t
  unfold listed DeviceList.commit
  refine Eq.trans ?_ (hfold.trans ?_)
  · congr 2
    funext rows e
    obtain ⟨k, row⟩ := e
    cases row <;> rfl
  · cases changed.get? t <;> rfl

end Listed

namespace SessionState

def reportsOf (session : SessionState) (threadId : String) : List RowReport :=
  session.reports.filterMap fun e => if e.1 = threadId then some e.2 else none

def TombstonesRecorded (session : SessionState) : Prop :=
  ∀ e ∈ session.tombstones.entries, session.cursors.get? e.1 = some e.2

def Above (session : SessionState) (threadId : String) (cursor : Nat) : Prop :=
  ∃ entry, session.cursors.get? threadId = some entry ∧ cursor < entry

variable {session : SessionState} {t : String} {cursor : Nat}

lemma any_eq_true_iff : (session.cursors.get? t).any (fun entry => decide (cursor < entry)) = true ↔
    session.Above t cursor := by
  rw [any_eq_true]
  simp only [decide_eq_true_eq, Above]

structure Decides (session : SessionState) (t : String) (cursor : Nat)
    (result : SessionState × Bool) : Prop where
  recorded : result.1.TombstonesRecorded
  reports : result.1.reports = session.reports
  generation : result.1.generation = session.generation
  refused : session.Above t cursor → result.2 = false ∧ result.1.cursors = session.cursors
  admitted : ¬ session.Above t cursor →
    result.2 = true ∧ result.1.cursors = session.cursors.insert t cursor

lemma recorded_insert {tombstones : LinkedMap String Nat} (h : session.TombstonesRecorded)
    (hkept : ∀ e ∈ tombstones.entries, e ∈ session.tombstones.entries ∧ e.1 ≠ t ∨ e = (t, cursor)) :
    ({ session with tombstones, cursors := session.cursors.insert t cursor } :
      SessionState).TombstonesRecorded := by
  intro e he
  rcases hkept e he with ⟨hold, hne⟩ | rfl
  · exact (get?_insert_of_ne _ _ hne).trans (h e hold)
  · exact get?_insert_self _ _ _

lemma decides_admitCursor (h : session.TombstonesRecorded)
    (hfree : ∀ e ∈ session.tombstones.entries, e.1 ≠ t) :
    Decides session t cursor (session.admitCursor t cursor) := by
  unfold admitCursor
  by_cases habove : session.Above t cursor
  · rw [if_pos (any_eq_true_iff.mpr habove)]
    exact ⟨h, rfl, rfl, fun _ => ⟨rfl, rfl⟩, fun hnot => absurd habove hnot⟩
  · rw [if_neg fun hany => habove (any_eq_true_iff.mp hany)]
    refine ⟨recorded_insert h fun e he => .inl ⟨he, hfree e he⟩, rfl, rfl,
      fun hyes => absurd hyes habove, fun _ => ⟨rfl, rfl⟩⟩

lemma decides_admitRow (h : session.TombstonesRecorded) :
    Decides session t cursor (session.admitRow t cursor) := by
  unfold admitRow
  split
  · rename_i removedAt hget
    have hentry : session.cursors.get? t = some removedAt :=
      h (t, removedAt) (LinkedMap.get?_eq_some_iff.mp hget)
    split
    · rename_i hlt
      exact ⟨h, rfl, rfl, fun _ => ⟨rfl, rfl⟩, fun hnot => absurd ⟨removedAt, hentry, hlt⟩ hnot⟩
    have heras := @decides_admitCursor { session with tombstones := session.tombstones.erase t }
      t cursor (fun e he => h e (LinkedMap.mem_erase.mp he).1)
      (fun e he => (LinkedMap.mem_erase.mp he).2)
    exact ⟨heras.recorded, heras.reports, heras.generation, heras.refused, heras.admitted⟩
  · rename_i hget
    refine decides_admitCursor h fun e he heq => ?_
    exact LinkedMap.get?_eq_none_iff.mp hget (List.mem_map.mpr ⟨e, he, heq⟩)

lemma mem_rememberTombstone {e : String × Nat}
    (he : e ∈ (session.rememberTombstone t cursor).tombstones.entries) :
    e ∈ session.tombstones.entries ∧ e.1 ≠ t ∨ e = (t, cursor) := by
  have hput : ∀ e ∈ ((session.tombstones.erase t).put t cursor).entries,
      e ∈ session.tombstones.entries ∧ e.1 ≠ t ∨ e = (t, cursor) := by
    intro e he
    rw [LinkedMap.entries_put_of_new _ (LinkedMap.get?_erase_self _ _)] at he
    rcases List.mem_append.mp he with he | he
    · exact .inl (LinkedMap.mem_erase.mp he)
    · exact .inr (List.mem_singleton.mp he)
  refine hput e ?_
  unfold rememberTombstone at he
  dsimp only at he
  split at he
  · split at he
    · exact (LinkedMap.mem_erase.mp he).1
    · exact he
  · exact he

lemma decides_admitTombstone (h : session.TombstonesRecorded) :
    Decides session t cursor (session.admitTombstone t cursor) := by
  unfold admitTombstone
  by_cases habove : session.Above t cursor
  · rw [if_pos (any_eq_true_iff.mpr habove)]
    exact ⟨h, rfl, rfl, fun _ => ⟨rfl, rfl⟩, fun hnot => absurd habove hnot⟩
  · rw [if_neg fun hany => habove (any_eq_true_iff.mp hany)]
    refine ⟨?_, rfl, rfl, fun hyes => absurd hyes habove, fun _ => ⟨rfl, rfl⟩⟩
    exact recorded_insert h fun e he => mem_rememberTombstone he

lemma reportsOf_concat (r : RowReport) (t' : String) {reports : List (String × RowReport)}
    (h : session.reports = reports ++ [(t, r)]) :
    session.reportsOf t' = (reports.filterMap fun e => if e.1 = t' then some e.2 else none) ++
      if t = t' then [r] else [] := by
  rw [reportsOf, h, List.filterMap_append]
  by_cases heq : t = t' <;> simp [heq]

end SessionState

/-- The summary has the server fields of the row, and its pin unless a newer one was stored. -/
structure Shows (ports : Ports) (row : ThreadListRow) (stored : StoredThreadSummary) : Prop where
  fields : stored.toServerFields = rowFields ports row
  pin : stored.pinCursor = some row.thread.threadPin.cursor ∧
      stored.pinned = row.thread.threadPin.pinned ∨
    row.thread.threadPin.cursor < stored.pinCursor.getD 0
  agent : row.thread.codewideAgent.isSome = true → stored.codewideAgent = row.thread.codewideAgent
  origin : row.thread.originUrl.isSome = true → stored.gitOriginUrl = row.thread.originUrl

lemma shows_serverRowSummary (ports : Ports) (row : ThreadListRow)
    (previous : Option StoredThreadSummary) :
    Shows ports row (serverRowSummary ports row previous) := by
  refine ⟨rfl, ?_, fun hsome => ?_, fun hsome => ?_⟩
  · change some (serverPin row.thread previous).1 = _ ∧ (serverPin row.thread previous).2 = _ ∨
      _ < (some (serverPin row.thread previous).1).getD 0
    rw [getD_some]
    cases previous with
    | none => exact .inl ⟨rfl, rfl⟩
    | some previous =>
    rw [serverPin]
    split
    · rename_i hnewer
      exact .inr hnewer
    · exact .inl ⟨rfl, rfl⟩
  · exact or_of_isSome hsome
  · exact or_of_isSome hsome

structure Agrees (ports : Ports) (rows : Table String StoredThreadSummary)
    (session : SessionState) (changed : Changes) (t : String) : Prop where
  cursor : session.cursors.get? t = (standing (session.reportsOf t)).map Prod.fst
  shown : ∀ c row, standing (session.reportsOf t) = some (c, some (some row)) →
    ∃ stored, listed rows changed t = some stored ∧ Shows ports row stored
  removed : ∀ c, standing (session.reportsOf t) = some (c, some none) → listed rows changed t = none
  withdrawn : ∀ c, standing (session.reportsOf t) = some (c, none) → listed rows changed t = none

namespace RowBatch

structure Ok (ports : Ports) (rows : Table String StoredThreadSummary) (batch : RowBatch) :
    Prop where
  recorded : batch.session.TombstonesRecorded
  agrees : ∀ t, Agrees ports rows batch.session batch.changed t

namespace Ok

variable {ports : Ports} {rows : Table String StoredThreadSummary} {batch : RowBatch}

section

variable (h : batch.Ok ports rows)
include h

lemma offer {t : String} {c : Nat} {result : SessionState × Bool}
    (hdec : batch.session.Decides t c result) {x : Option ThreadListRow}
    {value : Option StoredThreadSummary}
    (hshown : ∀ row, x = some row → ∃ stored, value = some stored ∧ Shows ports row stored)
    (hrem : x = none → value = none) {changed' : Changes}
    (href : result.2 = false → changed' = batch.changed)
    (hadm : result.2 = true → changed' = batch.changed.insert t value) :
    RowBatch.Ok ports rows ⟨result.1.report t (.offer c x), changed'⟩ := by
  refine ⟨hdec.recorded, fun t' => ?_⟩
  have hagr := h.agrees t'
  have hrep : (result.1.report t (.offer c x)).reportsOf t' =
      batch.session.reportsOf t' ++ if t = t' then [.offer c x] else [] := by
    rw [reportsOf_concat (.offer c x) t' rfl, hdec.reports]
    rfl
  have hcursors : (result.1.report t (.offer c x)).cursors = result.1.cursors := rfl
  by_cases habove : batch.session.Above t c
  · -- an older report changes nothing
    obtain ⟨hfalse, hsame⟩ := hdec.refused habove
    have hstand : standing ((result.1.report t (.offer c x)).reportsOf t') =
        standing (batch.session.reportsOf t') := by
      rw [hrep]
      split
      · rename_i heq
        subst heq
        obtain ⟨entry, hentry, hlt⟩ := habove
        rw [hagr.cursor] at hentry
        obtain ⟨e, he, rfl⟩ := map_eq_some_iff.mp hentry
        rw [standing_concat, he, stand_offer_of_lt hlt]
      · rw [List.append_nil]
    rw [href hfalse]
    refine ⟨?_, ?_, ?_, ?_⟩
    · rw [hcursors, hsame, hstand]
      exact hagr.cursor
    · rw [hstand]
      exact hagr.shown
    · rw [hstand]
      exact hagr.removed
    · rw [hstand]
      exact hagr.withdrawn
  obtain ⟨htrue, hinserted⟩ := hdec.admitted habove
  rw [hadm htrue]
  by_cases heq : t = t'
  · subst heq
    have hstand : standing ((result.1.report t (.offer c x)).reportsOf t) = some (c, some x) := by
      rw [hrep, if_pos rfl, standing_concat]
      refine stand_offer_of_le fun e he => Nat.le_of_not_lt fun hlt => habove ⟨e.1, ?_, hlt⟩
      rw [hagr.cursor, he]
      rfl
    have hlist : listed rows (batch.changed.insert t value) t = value := by
      rw [listed_insert, if_pos rfl]
    refine ⟨?_, fun c' row hsome => ?_, fun c' hsome => ?_, fun c' hsome => ?_⟩
    · rw [hcursors, hinserted, hstand, get?_insert_self]
      rfl
    · rw [hstand] at hsome
      cases hsome
      rw [hlist]
      exact hshown row rfl
    · rw [hstand] at hsome
      cases hsome
      rw [hlist]
      exact hrem rfl
    · rw [hstand] at hsome
      cases hsome
  have hsame : (result.1.report t (.offer c x)).reportsOf t' = batch.session.reportsOf t' := by
    rw [hrep, if_neg heq, List.append_nil]
  have hlist : listed rows (batch.changed.insert t value) t' = listed rows batch.changed t' := by
    rw [listed_insert, if_neg (Ne.symm heq)]
  refine ⟨?_, ?_, ?_, ?_⟩
  · rw [hcursors, hinserted, hsame, get?_insert_of_ne _ _ (Ne.symm heq)]
    exact hagr.cursor
  · rw [hsame, hlist]
    exact hagr.shown
  · rw [hsame, hlist]
    exact hagr.removed
  · rw [hsame, hlist]
    exact hagr.withdrawn

lemma stageRow (row : ThreadListRow) : (Summary.stageRow ports rows batch row).Ok ports rows := by
  have hdec := @decides_admitRow _ row.threadId row.listMeta.cursor h.recorded
  unfold Summary.stageRow
  generalize batch.session.admitRow row.threadId row.listMeta.cursor = result at hdec
  obtain ⟨session, admitted⟩ := result
  have hshown : ∀ shown, (if isCatalogExcluded row.thread then none else some row) = some shown →
      ∃ stored, ((if isCatalogExcluded row.thread then none else some row).map
        fun row => serverRowSummary ports row (rows.get? row.threadId)) = some stored ∧
        Shows ports shown stored := by
    intro shown hsome
    rw [hsome]
    exact ⟨_, rfl, shows_serverRowSummary ports shown _⟩
  have hrem : (if isCatalogExcluded row.thread then none else some row) = none →
      ((if isCatalogExcluded row.thread then none else some row).map
        fun row => serverRowSummary ports row (rows.get? row.threadId)) = none := by
    intro hnone
    rw [hnone]
    rfl
  cases admitted with
  | true => exact h.offer hdec hshown hrem (fun hfalse => nomatch hfalse) (fun _ => rfl)
  | false => exact h.offer hdec hshown hrem (fun _ => rfl) (fun htrue => nomatch htrue)

lemma stageTombstone (tombstone : RowTombstone) :
    (Summary.stageTombstone batch tombstone).Ok ports rows := by
  have hdec :=
    @decides_admitTombstone _ tombstone.threadId tombstone.cursor h.recorded
  unfold Summary.stageTombstone
  generalize batch.session.admitTombstone tombstone.threadId tombstone.cursor = result at hdec
  obtain ⟨session, admitted⟩ := result
  have hshown : ∀ row, none = some row →
      ∃ stored, none = some stored ∧ Shows ports row stored := fun _ hsome => nomatch hsome
  cases admitted with
  | true =>
    exact h.offer hdec hshown (fun _ => rfl) (fun hfalse => nomatch hfalse) (fun _ => rfl)
  | false => exact h.offer hdec hshown (fun _ => rfl) (fun _ => rfl) (fun htrue => nomatch htrue)

lemma takeAway (t : String) : (Summary.takeAway batch t).Ok ports rows := by
  refine ⟨h.recorded, fun t' => ?_⟩
  have hagr := h.agrees t'
  have hrep : (Summary.takeAway batch t).session.reportsOf t' =
      batch.session.reportsOf t' ++ if t = t' then [.withdraw] else [] :=
    reportsOf_concat .withdraw t' rfl
  have hlist : listed rows (Summary.takeAway batch t).changed t' =
      if t' = t then none else listed rows batch.changed t' := listed_insert none
  by_cases heq : t = t'
  · subst heq
    have hstand : standing ((Summary.takeAway batch t).session.reportsOf t) =
        (standing (batch.session.reportsOf t)).map fun e => (e.1, none) := by
      rw [hrep, if_pos rfl, standing_concat]
      rfl
    rw [if_pos rfl] at hlist
    refine ⟨?_, fun c row hsome => ?_, fun _ _ => hlist, fun _ _ => hlist⟩
    · rw [hstand, map_map]
      exact hagr.cursor
    · rw [hstand] at hsome
      obtain ⟨e, -, he⟩ := map_eq_some_iff.mp hsome
      cases he
  rw [if_neg heq, List.append_nil] at hrep
  rw [if_neg (Ne.symm heq)] at hlist
  refine ⟨?_, ?_, ?_, ?_⟩
  · rw [hrep]
    exact hagr.cursor
  · rw [hrep, hlist]
    exact hagr.shown
  · rw [hrep, hlist]
    exact hagr.removed
  · rw [hrep, hlist]
    exact hagr.withdrawn

lemma of_listed {rows' : Table String StoredThreadSummary} {changed' : Changes}
    (hlist : ∀ t, listed rows' changed' t = listed rows batch.changed t ∨
      ∃ stored stored', listed rows batch.changed t = some stored ∧
        listed rows' changed' t = some stored' ∧
        ∀ row, Shows ports row stored → Shows ports row stored') :
    RowBatch.Ok ports rows' ⟨batch.session, changed'⟩ := by
  refine ⟨h.recorded, fun t => ?_⟩
  have hagr := h.agrees t
  rcases hlist t with hsame | ⟨stored, stored', hold, hnew, hshows⟩
  · refine ⟨hagr.cursor, ?_, ?_, ?_⟩
    · rw [hsame]
      exact hagr.shown
    · rw [hsame]
      exact hagr.removed
    · rw [hsame]
      exact hagr.withdrawn
  refine ⟨hagr.cursor, fun c row hstand => ?_, fun c hstand => ?_, fun c hstand => ?_⟩
  · obtain ⟨shown, hshown, hrow⟩ := hagr.shown c row hstand
    rw [hold] at hshown
    exact ⟨stored', hnew, hshows row (some.inj hshown ▸ hrow)⟩
  · exact absurd (hold.symm.trans (hagr.removed c hstand)) (some_ne_none _)
  · exact absurd (hold.symm.trans (hagr.withdrawn c hstand)) (some_ne_none _)

lemma withActiveSubagents (root : String × Bool) :
    RowBatch.Ok ports rows ⟨batch.session, Summary.withActiveSubagents rows batch.changed root⟩ := by
  unfold Summary.withActiveSubagents
  split
  · rename_i row hroot
    refine h.of_listed fun t => ?_
    rw [listed_insert]
    by_cases heq : t = root.1
    · subst heq
      rw [if_pos rfl]
      exact .inr ⟨row, _, hroot, rfl, fun shown hshows =>
        ⟨hshows.fields, hshows.pin, hshows.agent, hshows.origin⟩⟩
    · rw [if_neg heq]
      exact .inl rfl
  · exact h

lemma applySubagentActivity : (Summary.applySubagentActivity ports rows batch).Ok ports rows := by
  unfold Summary.applySubagentActivity
  generalize ports.subagentActivity rows batch.changed = roots
  induction roots generalizing batch with
  | nil => exact h
  | cons root roots ih => exact ih (h.withActiveSubagents root)

lemma evict (t : String) : (Summary.evict batch t).Ok ports rows := by
  unfold Summary.evict
  split
  · exact h
  · exact h.takeAway t

lemma stageSnapshotRemoval (snapshot : Snapshot) (entry : String × StoredThreadSummary) :
    (Summary.stageSnapshotRemoval snapshot batch entry).Ok ports rows := by
  unfold Summary.stageSnapshotRemoval
  split
  · exact h
  · split
    · exact h
    · exact h.takeAway entry.1

end

lemma foldl {α : Type} {stage : RowBatch → α → RowBatch}
    (hstage : ∀ batch a, batch.Ok ports rows → (stage batch a).Ok ports rows) (h : batch.Ok ports rows)
    (l : List α) : (l.foldl stage batch).Ok ports rows := by
  induction l generalizing batch with
  | nil => exact h
  | cons a l ih => exact ih (hstage batch a h)

end Ok

end RowBatch

namespace DeviceList

def changed (s : DeviceList) : Changes :=
  match s.phase with
  | .staged changed => changed
  | _ => ∅

def listed (s : DeviceList) (t : String) : Option StoredThreadSummary :=
  Summary.listed s.rows s.changed t

def Inv (ports : Ports) (s : DeviceList) : Prop :=
  RowBatch.Ok ports s.rows ⟨s.session, s.changed⟩

variable {ports : Ports} {s : DeviceList}

lemma ok_of_fresh (rows : Table String StoredThreadSummary) (changed : Changes)
    (generation : Option Nat) : RowBatch.Ok ports rows ⟨{ generation }, changed⟩ where
  recorded _ h := absurd h List.not_mem_nil
  agrees _ := ⟨rfl, (fun _ _ h => nomatch h), (fun _ h => nomatch h), (fun _ h => nomatch h)⟩

lemma ok_stageWrite (h : RowBatch.Ok ports s.rows ⟨s.session, ∅⟩) (write : Write) :
    (stageWrite ports s write).Ok ports s.rows := by
  have hrows : ∀ {batch : RowBatch} (l : List ThreadListRow), batch.Ok ports s.rows →
      (l.foldl (stageRow ports s.rows) batch).Ok ports s.rows := fun l hbatch =>
    RowBatch.Ok.foldl (fun batch row hok => RowBatch.Ok.stageRow hok row) hbatch l
  cases write with
  | serverRows generation frame =>
    refine RowBatch.Ok.applySubagentActivity (hrows frame.rows ?_)
    exact RowBatch.Ok.foldl (fun batch tombstone hok => hok.stageTombstone tombstone) h frame.removed
  | catalogPage page =>
    refine RowBatch.Ok.foldl (fun batch t hok => hok.evict t) ?_ _
    exact (hrows page.rows h).applySubagentActivity
  | snapshot snapshot =>
  refine RowBatch.Ok.applySubagentActivity ?_
  refine RowBatch.Ok.foldl (fun batch entry hok => hok.stageSnapshotRemoval snapshot entry) ?_ _
  exact hrows snapshot.rows h

lemma Inv.advance (h : Inv ports s) : Inv ports (DeviceList.advance ports s) := by
  unfold DeviceList.advance
  cases hphase : s.phase with
  | idle =>
    have hempty : s.changed = ∅ := by rw [DeviceList.changed, hphase]
    unfold Inv at h
    rw [hempty] at h
    cases hqueue : s.queue with
    | nil =>
      unfold Inv
      rwa [hempty]
    | cons write queue =>
    dsimp only
    split
    · exact h
    · exact h
  | loading write =>
    have hempty : s.changed = ∅ := by rw [DeviceList.changed, hphase]
    unfold Inv at h
    rw [hempty] at h
    exact ok_stageWrite h write
  | staged changed =>
  have hstaged : s.changed = changed := by rw [DeviceList.changed, hphase]
  unfold Inv at h
  rw [hstaged] at h
  refine h.of_listed fun t => .inl ?_
  exact get?_commit

lemma Inv.step (h : Inv ports s) (input : ListInput) : Inv ports (DeviceList.step ports s input) := by
  cases input with
  | generation generation =>
    rw [DeviceList.step]
    split
    · exact h
    · exact ok_of_fresh _ _ _
  | rows generation frame =>
    rw [DeviceList.step]
    split <;> exact h
  | catalogPage page | snapshot snapshot | dispose => exact h
  | forgetConnection => exact ok_of_fresh _ _ _
  | advance => exact h.advance

/-- The write was read or pushed under a socket that has been replaced. -/
def Stale (s : DeviceList) : Write → Prop
  | .serverRows generation _ => s.session.generation ≠ some generation
  | .catalogPage page => s.session.generation ≠ page.generation
  | .snapshot _ => False

def Replaces (s : DeviceList) : ListInput → Prop
  | .generation generation => s.session.generation ≠ some generation
  | .forgetConnection => True
  | _ => False

/-- What a state says of a thread, by what its session was told. -/
structure ThreadRule (ports : Ports) (s : DeviceList) (t : String) : Prop where
  recorded : ∀ c, s.session.cursors.get? t = some c →
    (∃ x, .offer c x ∈ s.session.reportsOf t) ∧ ∀ c' x, .offer c' x ∈ s.session.reportsOf t → c' ≤ c
  unrecorded : s.session.cursors.get? t = none → ∀ c x, .offer c x ∉ s.session.reportsOf t
  greatest : ∀ before after c x, s.session.reportsOf t = before ++ .offer c x :: after →
    (∀ c' x', .offer c' x' ∈ before → c' ≤ c) → (∀ c' x', .offer c' x' ∈ after → c' < c) →
    s.session.cursors.get? t = some c ∧
    (.withdraw ∈ after → s.listed t = none) ∧
    (.withdraw ∉ after → x = none → s.listed t = none) ∧
    (.withdraw ∉ after → ∀ row, x = some row →
      ∃ stored, s.listed t = some stored ∧ Shows ports row stored)
  removed : ∀ c, .offer c none ∈ s.session.reportsOf t → ∀ stored, s.listed t = some stored →
    ∃ c' row, c ≤ c' ∧ .offer c' (some row) ∈ s.session.reportsOf t ∧ Shows ports row stored
  stored : (∀ changed, s.phase ≠ .staged changed) → s.rows.get? t = s.listed t

structure RaceRule (ports : Ports) (s : DeviceList) (input : ListInput) : Prop where
  threads : ∀ t, ThreadRule ports (step ports s input) t
  increasing : ¬ s.Replaces input → ∀ t c, s.session.cursors.get? t = some c →
    ∃ c', (step ports s input).session.cursors.get? t = some c' ∧ c ≤ c'
  dropped : input = .advance → s.phase = .idle → ∀ write queue, s.queue = write :: queue →
    s.Stale write → step ports s input = { s with queue }
  refused : ∀ generation frame, input = .rows generation frame →
    s.session.generation ≠ some generation → step ports s input = s

lemma Inv.threadRule (h : Inv ports s) (t : String) : ThreadRule ports s t := by
  have hagr : Agrees ports s.rows s.session s.changed t := h.agrees t
  refine ⟨fun c hc => ?_, fun hnone c x hmem => ?_, fun before after c x hsplit hbef hafter => ?_,
    fun c hmem stored hsto => ?_, fun hphase => ?_⟩
  · rw [hagr.cursor] at hc
    obtain ⟨e, he, rfl⟩ := map_eq_some_iff.mp hc
    refine ⟨exists_offer_of_standing he, fun c' x hmem => ?_⟩
    obtain ⟨e', he', hle⟩ := le_standing hmem
    rwa [some.inj (he.symm.trans he')]
  · obtain ⟨e, he, -⟩ := le_standing hmem
    rw [hagr.cursor, he] at hnone
    cases hnone
  · have hcurs : ∀ x', standing (s.session.reportsOf t) = some (c, x') →
        s.session.cursors.get? t = some c := by
      intro x' hstand
      rw [hagr.cursor, hstand]
      rfl
    have hsplit' := standing_of_split (v := x) hbef hafter
    rw [← hsplit] at hsplit'
    rcases hsplit' with ⟨hkept, hstand⟩ | ⟨hgone, hstand⟩
    · refine ⟨hcurs _ hstand, fun hgone => absurd hgone hkept, fun _ hx => ?_, fun _ row hx => ?_⟩
      · exact hagr.removed c (hx ▸ hstand)
      · exact hagr.shown c row (hx ▸ hstand)
    · exact ⟨hcurs _ hstand, fun _ => hagr.withdrawn c hstand,
        fun hkept => absurd hgone hkept, fun hkept => absurd hgone hkept⟩
  · obtain ⟨⟨c', x⟩, he, hle⟩ := le_standing hmem
    have hlist : Summary.listed s.rows s.changed t = some stored := hsto
    cases x with
    | none =>
      rw [hagr.withdrawn c' he] at hlist
      cases hlist
    | some x =>
    cases x with
    | none =>
      rw [hagr.removed c' he] at hlist
      cases hlist
    | some row =>
    obtain ⟨shown, hshown, hrow⟩ := hagr.shown c' row he
    rw [hlist] at hshown
    obtain rfl := some.inj hshown
    exact ⟨c', row, hle, mem_of_standing he, hrow⟩
  have hempty : s.changed = ∅ := by
    unfold DeviceList.changed
    split
    · rename_i changed hstaged
      exact absurd hstaged (hphase changed)
    · rfl
  unfold DeviceList.listed
  rw [hempty, listed_empty]

def Grows (session session' : SessionState) : Prop :=
  ∃ later, session'.reports = session.reports ++ later

variable (session : SessionState)

lemma Grows.refl : Grows session session :=
  ⟨[], (List.append_nil _).symm⟩

lemma Grows.trans {a b c : SessionState} (hab : Grows a b) (hbc : Grows b c) : Grows a c := by
  obtain ⟨l, hl⟩ := hab
  obtain ⟨m, hm⟩ := hbc
  exact ⟨l ++ m, by rw [hm, hl, List.append_assoc]⟩

lemma Grows.reportsOf {a b : SessionState} (h : Grows a b) (t : String) :
    ∃ later, b.reportsOf t = a.reportsOf t ++ later := by
  obtain ⟨l, hl⟩ := h
  refine ⟨l.filterMap fun e => if e.1 = t then some e.2 else none, ?_⟩
  rw [SessionState.reportsOf, hl, List.filterMap_append]
  rfl

lemma grows_admitRow (t : String) (c : Nat) (r : RowReport) :
    Grows session ((session.admitRow t c).1.report t r) := by
  refine ⟨[(t, r)], ?_⟩
  have hrep : (session.admitRow t c).1.reports = session.reports := by
    unfold admitRow admitCursor
    split <;> (repeat' split) <;> rfl
  exact congrArg (· ++ [(t, r)]) hrep

lemma grows_admitTombstone (t : String) (c : Nat) (r : RowReport) :
    Grows session ((session.admitTombstone t c).1.report t r) := by
  refine ⟨[(t, r)], ?_⟩
  have hrep : (session.admitTombstone t c).1.reports = session.reports := by
    unfold admitTombstone
    split <;> rfl
  exact congrArg (· ++ [(t, r)]) hrep

lemma grows_stageRow (ports : Ports) (current : Table String StoredThreadSummary)
    (batch : RowBatch) (row : ThreadListRow) :
    Grows batch.session (stageRow ports current batch row).session := by
  unfold stageRow
  dsimp only
  split <;> exact grows_admitRow _ _ _ _

lemma grows_stageTombstone (batch : RowBatch) (tombstone : RowTombstone) :
    Grows batch.session (stageTombstone batch tombstone).session := by
  unfold stageTombstone
  dsimp only
  split <;> exact grows_admitTombstone _ _ _ _

lemma grows_evict (batch : RowBatch) (t : String) :
    Grows batch.session (evict batch t).session := by
  unfold evict
  split
  · exact Grows.refl _
  · exact ⟨[(t, .withdraw)], rfl⟩

lemma grows_stageSnapshotRemoval (snapshot : Snapshot) (batch : RowBatch)
    (entry : String × StoredThreadSummary) :
    Grows batch.session (stageSnapshotRemoval snapshot batch entry).session := by
  unfold stageSnapshotRemoval
  split
  · exact Grows.refl _
  · split
    · exact Grows.refl _
    · exact ⟨[(entry.1, .withdraw)], rfl⟩

lemma grows_foldl {α : Type} {stage : RowBatch → α → RowBatch}
    (hstage : ∀ batch a, Grows batch.session (stage batch a).session) (batch : RowBatch)
    (l : List α) : Grows batch.session (l.foldl stage batch).session := by
  induction l generalizing batch with
  | nil => exact Grows.refl _
  | cons a l ih => exact (hstage batch a).trans (ih (stage batch a))

lemma grows_stageWrite (ports : Ports) (s : DeviceList) (write : Write) :
    Grows s.session (stageWrite ports s write).session := by
  have hrows : ∀ (batch : RowBatch) (l : List ThreadListRow),
      Grows batch.session (l.foldl (stageRow ports s.rows) batch).session :=
    grows_foldl (grows_stageRow ports s.rows)
  cases write with
  | serverRows generation frame =>
    exact (grows_foldl grows_stageTombstone { session := s.session } frame.removed).trans
      (hrows _ frame.rows)
  | catalogPage page =>
    refine (hrows { session := s.session } page.rows).trans ?_
    exact grows_foldl grows_evict (applySubagentActivity ports s.rows _) _
  | snapshot snapshot =>
    exact (hrows { session := s.session } snapshot.rows).trans
      (grows_foldl (grows_stageSnapshotRemoval snapshot) _ _)

lemma grows_step (ports : Ports) {s : DeviceList} {input : ListInput}
    (hkept : ¬ s.Replaces input) : Grows s.session (step ports s input).session := by
  cases input with
  | generation generation =>
    rw [step, if_pos (not_not.mp hkept)]
    exact Grows.refl _
  | rows generation frame =>
    rw [step]
    split <;> exact Grows.refl _
  | catalogPage page | snapshot snapshot | dispose => exact Grows.refl _
  | forgetConnection => exact absurd trivial hkept
  | advance =>
  rw [step, advance]
  split
  · split
    · exact Grows.refl _
    · split <;> exact Grows.refl _
  · exact grows_stageWrite ports s _
  · exact Grows.refl _

lemma Inv.raceRule (h : Inv ports s) (input : ListInput) : RaceRule ports s input := by
  have hnext := h.step input
  refine ⟨hnext.threadRule, fun hkept t c hc => ?_, fun hadv hidle write queue hqueue hstale => ?_,
    fun generation frame hrows hold => ?_⟩
  · obtain ⟨later, hlater⟩ := (grows_step ports hkept).reportsOf t
    have hcurs := (h.agrees t).cursor
    have hcurs' := (hnext.agrees t).cursor
    dsimp only at hcurs hcurs'
    rw [hcurs] at hc
    obtain ⟨e, he, rfl⟩ := map_eq_some_iff.mp hc
    obtain ⟨e', he', hle⟩ := standing_stamp_le he later
    refine ⟨e'.1, ?_, hle⟩
    rw [hcurs', hlater, he']
    rfl
  · subst hadv
    have hstarts : s.starts write = false := by
      cases write with
      | serverRows generation frame => simp [starts, isCurrent, decide_eq_false hstale]
      | catalogPage page => simp [starts, isCurrent, decide_eq_false hstale]
      | snapshot snapshot => exact absurd hstale id
    rw [DeviceList.step, DeviceList.advance, hidle, hqueue]
    simp [hstarts]
  · subst hrows
    rw [DeviceList.step, if_neg hold]

lemma Inv.always (h : Inv ports s) (inputs : List ListInput) :
    Always (DeviceList.step ports) (RaceRule ports) s inputs := by
  induction inputs generalizing s with
  | nil => trivial
  | cons input inputs ih => exact ⟨h.raceRule input, ih (h.step input)⟩

/-- Every step of every run, over any stored rows, keeps the race rule. -/
theorem raceRule_of_run (ports : Ports) (rows : Table String StoredThreadSummary)
    (inputs : List ListInput) : Always (step ports) (RaceRule ports) { rows } inputs := by
  have hinv : Inv ports { rows } := ok_of_fresh rows ∅ none
  exact hinv.always inputs

/-- Whatever a session was told last among the greatest is what is stored of a thread. -/
def StoresGreatest (ports : Ports) (s : DeviceList) : Prop :=
  ∀ t before after c x, s.session.reportsOf t = before ++ .offer c x :: after →
    (∀ c' x', .offer c' x' ∈ before → c' ≤ c) → (∀ c' x', .offer c' x' ∈ after → c' < c) →
    (s.rows.get? t).map (·.toServerFields) = x.map (rowFields ports)

/-- A snapshot that omits a thread takes away the summary that a pushed row stored. -/
theorem snapshot_takes_pushed_row :
    ¬ ∀ (ports : Ports) (rows : Table String StoredThreadSummary) (inputs : List ListInput),
      (exec (step ports) { rows } inputs).phase = .idle →
      StoresGreatest ports (exec (step ports) { rows } inputs) := by
  intro h
  let ports : Ports := ⟨id, fun _ _ _ _ => [], fun _ _ => []⟩
  let thread : Thread :=
    { id := "t", cwd := "/", preview := "hello", status := .obj [("type", .str "idle")],
      updatedAt := 1 }
  let row : ThreadListRow := ⟨{ cursor := 5 }, thread, "t"⟩
  let inputs : List ListInput := [.generation 1, .rows 1 { rows := [row] }, .advance, .advance,
    .advance, .snapshot ⟨9, []⟩, .advance, .advance, .advance]
  have hsto := h ports ∅ inputs rfl "t" [] [.withdraw] 5 (some row) rfl
    (fun _ _ hmem => absurd hmem List.not_mem_nil) (fun _ _ hmem => by simp at hmem)
  have hnone : (exec (step ports) { rows := ∅ } inputs).rows.get? "t" = none := by decide
  rw [hnone] at hsto
  cases hsto

end DeviceList

end CodeWide.Summary
