import CodeWide.Device.FrameReads

/-!
# Recovery of a new runtime from the device's journal

The projection posts the cursor through which it applied the journal (`acknowledgeThrough`), and the
acknowledgement arrives at any later time.
-/

namespace CodeWide.Device

open Lib List NativeFrameStore

/-- What the store was given for a connection since its latest snapshot. -/
structure Journal where
  epoch : Nat := 0
  snapshot : Option (Int × String) := none
  accepted : List (Int × String) := []
  overflowed : Bool := false

structure Projected where
  connectionId : String
  epoch : Nat
  cursor : Int
deriving DecidableEq

structure Recovery where
  store : NativeFrameStore := {}
  journals : Table String Journal := ∅
  applied : List Projected := []
  posted : List Projected := []

inductive RecoveryInput where
  | appendEvents (connectionId : String) (incoming : List IncomingJournalEntry)
  | storeSnapshot (connectionId : String) (cursor : Int) (snapshotJson : String)
  | storePendingRequests (connectionId pendingRequestsJson : String)
  | deleteConnection (connectionId : String)
  /-- The projection applies through a cursor and posts the acknowledgement. -/
  | project (projected : Projected)
  | arrive (index : Nat)

namespace Recovery

def journal (s : Recovery) (connectionId : String) : Journal :=
  (s.journals.get? connectionId).getD {}

def appended (s : Recovery) (connectionId : String) (incoming : List IncomingJournalEntry)
    (status : JournalAppendStatus) : Journal :=
  match status with
  | .committed =>
    { s.journal connectionId with
      accepted := (s.journal connectionId).accepted ++
        (s.store.freshFor connectionId incoming).map (fun e => (e.cursor, e.payload)) }
  | .nonContiguous => s.journal connectionId
  | .overflow => { s.journal connectionId with overflowed := true }

def step (org : OrgJson) (s : Recovery) : RecoveryInput → Recovery
  | .appendEvents connectionId incoming =>
    { s with
      store := (s.store.appendEvents org connectionId incoming).1
      journals := s.journals.insert connectionId (s.appended connectionId incoming
        (s.store.appendEvents org connectionId incoming).2.status) }
  | .storeSnapshot connectionId cursor snapshotJson =>
    { s with
      store := s.store.storeSnapshot connectionId cursor snapshotJson
      journals := s.journals.insert connectionId
        { epoch := (s.journal connectionId).epoch + 1, snapshot := some (cursor, snapshotJson) } }
  | .storePendingRequests connectionId pendingRequestsJson =>
    { s with store := s.store.storePendingRequests connectionId pendingRequestsJson }
  | .deleteConnection connectionId =>
    { s with
      store := s.store.deleteConnection connectionId
      journals := s.journals.insert connectionId
        { epoch := (s.journal connectionId).epoch + 1 } }
  | .project projected =>
    if projected.epoch ≤ (s.journal projected.connectionId).epoch then
      { s with applied := s.applied ++ [projected], posted := s.posted ++ [projected] }
    else s
  | .arrive index =>
    match s.posted[index]? with
    | none => s
    | some projected =>
      { s with
        store := s.store.acknowledgeThrough projected.connectionId projected.cursor
        posted := s.posted.eraseIdx index }

/-- The projection has applied the present journal of the connection through the cursor. -/
def Applied (s : Recovery) (connectionId : String) (cursor : Int) : Prop :=
  ∃ projected ∈ s.applied, projected.connectionId = connectionId ∧
    projected.epoch = (s.journal connectionId).epoch ∧ cursor ≤ projected.cursor

/-- An acknowledgement is covered by what was applied of the present journal, or below its snapshot.
-/
def Covered (s : Recovery) (projected : Projected) : Prop :=
  ∀ cursor, (s.store.journalState projected.connectionId).cursor = some cursor →
    NativeFrameStore.accepts cursor
      (s.store.journalState projected.connectionId).projectedCursor projected.cursor = true →
    s.Applied projected.connectionId projected.cursor ∨
      ∃ snapshot, (s.store.journalState projected.connectionId).snapshotCursor = some snapshot ∧
        projected.cursor < snapshot

/-- The connection has a snapshot or a projection that events continue. -/
def Based (s : NativeFrameStore) (connectionId : String) : Prop :=
  (s.journalState connectionId).projectedCursor ≠ none ∨
    (s.journalState connectionId).snapshotCursor ≠ none

/-- No acknowledgement that arrives is of an earlier journal, and no event comes without a snapshot.
-/
def Orderly (s : Recovery) : RecoveryInput → Prop
  | .appendEvents connectionId incoming =>
    ¬ Based s.store connectionId → s.store.freshFor connectionId incoming = []
  | .arrive index => ∀ projected, s.posted[index]? = some projected → s.Covered projected
  | _ => True

/-- What ties a journal to its row and frames, while it has not overflowed. -/
structure Tied (s : Recovery) (connectionId : String) : Prop where
  snapshotCursor : (s.store.journalState connectionId).snapshotCursor =
    (s.journal connectionId).snapshot.map Prod.fst
  snapshotJson : (s.store.journalState connectionId).snapshotJson =
    (s.journal connectionId).snapshot.map Prod.snd
  frames : (s.store.framesOf connectionId).map (fun f => (f.eventCursor, f.payload)) =
    (s.journal connectionId).accepted.filter (fun e =>
      (s.store.journalState connectionId).projectedCursor.all (fun p => decide (p < e.1)))
  increasing : (s.journal connectionId).accepted.Pairwise (fun a b => a.1 < b.1)
  held : ∀ e ∈ (s.journal connectionId).accepted,
    ∃ c, (s.store.journalState connectionId).cursor = some c ∧ e.1 ≤ c
  beyondSnapshot : ∀ e ∈ (s.journal connectionId).accepted,
    ∀ latest, (s.journal connectionId).snapshot = some latest → latest.1 < e.1
  projected : ∀ p, (s.store.journalState connectionId).projectedCursor = some p →
    s.Applied connectionId p ∨ ∃ latest, (s.journal connectionId).snapshot = some latest ∧ p < latest.1
  based : (s.journal connectionId).accepted ≠ [] → Based s.store connectionId

section Deliver

open NativeFrameStore

variable {s : Recovery} {connectionId : String}

lemma Tied.framesAfter (h : Tied s connectionId)
    (hkept : Kept (s.store.journalState connectionId) (s.store.framesOf connectionId)) {b : Int}
    (hall : ∀ f ∈ s.store.framesOf connectionId, b < f.eventCursor) :
    ((s.store.framesAfter connectionId (some b)).map FrameRow.stored).map
        (fun f => (f.cursor, f.payload)) =
      (s.journal connectionId).accepted.filter (fun e =>
        (s.store.journalState connectionId).projectedCursor.all (fun p => decide (p < e.1))) := by
  rw [hkept.framesAfter, filter_eq_self.mpr, map_map, ← h.frames]
  · rfl
  · exact fun f hf => decide_eq_true (hall f hf)

variable {store : NativeFrameStore}

open Option

end Deliver

section Runs

open NativeFrameStore

variable {s s' : Recovery} {org : OrgJson} {connectionId : String}

/-- Only the pending requests of the row change, and the projection applies more. -/
lemma Tied.of_same (h : Tied s connectionId) (hcurs : (s'.store.journalState connectionId).cursor =
      (s.store.journalState connectionId).cursor)
    (hproj : (s'.store.journalState connectionId).projectedCursor =
      (s.store.journalState connectionId).projectedCursor)
    (hsnap : (s'.store.journalState connectionId).snapshotCursor =
      (s.store.journalState connectionId).snapshotCursor)
    (hjson : (s'.store.journalState connectionId).snapshotJson =
      (s.store.journalState connectionId).snapshotJson)
    (hfrs : s'.store.framesOf connectionId = s.store.framesOf connectionId)
    (hjnl : s'.journal connectionId = s.journal connectionId)
    (happl : s.applied ⊆ s'.applied) : Tied s' connectionId := by
  refine ⟨?_, ?_, ?_, ?_, ?_, ?_, ?_, ?_⟩
  · rw [hsnap, hjnl]
    exact h.snapshotCursor
  · rw [hjson, hjnl]
    exact h.snapshotJson
  · rw [hfrs, hjnl, hproj]
    exact h.frames
  · rw [hjnl]
    exact h.increasing
  · rw [hjnl, hcurs]
    exact h.held
  · rw [hjnl]
    exact h.beyondSnapshot
  · rw [hproj, hjnl]
    intro p hp
    refine (h.projected p hp).imp ?_ id
    rintro ⟨projected, hmem, hid, hepoch, hle⟩
    exact ⟨projected, happl hmem, hid, by rw [hjnl]; exact hepoch, hle⟩
  · rw [hjnl, Based, hproj, hsnap]
    exact h.based

structure Inv (s : Recovery) : Prop where
  kept : WellKept s.store
  tied : ∀ connectionId, (s.journal connectionId).overflowed = false → Tied s connectionId

lemma journalState_of_replaces {t t' : NativeFrameStore} {k : String} {row : Option SyncState}
    {frames : List FrameRow} (h : Replaces t t' k row frames) :
    t'.journalState connectionId =
      if connectionId = k then row.getD {} else t.journalState connectionId := by
  rw [journalState, h.sync]
  split <;> rfl

variable {row : Option SyncState}

lemma Tied.of_other (h : Tied s connectionId) {k : String}
    {frames : List FrameRow} (hrepl : Replaces s.store s'.store k row frames)
    (hne : connectionId ≠ k) (hjnl : s'.journal connectionId = s.journal connectionId)
    (happl : s.applied ⊆ s'.applied) : Tied s' connectionId := by
  have hstate : s'.store.journalState connectionId = s.store.journalState connectionId := by
    rw [journalState_of_replaces hrepl, if_neg hne]
  refine h.of_same ?_ ?_ ?_ ?_ (hrepl.others connectionId hne) hjnl happl <;> rw [hstate]

lemma tied_of_fresh (hfrs : s.store.framesOf connectionId = [])
    (hproj : (s.store.journalState connectionId).projectedCursor = none)
    (hacc : (s.journal connectionId).accepted = [])
    (hcurs : (s.store.journalState connectionId).snapshotCursor =
      (s.journal connectionId).snapshot.map Prod.fst)
    (hjson : (s.store.journalState connectionId).snapshotJson =
      (s.journal connectionId).snapshot.map Prod.snd) : Tied s connectionId := by
  refine ⟨hcurs, hjson, ?_, ?_, ?_, ?_, ?_, ?_⟩
  · rw [hfrs, hacc]
    rfl
  · rw [hacc]
    exact List.Pairwise.nil
  · simp [hacc]
  · simp [hacc]
  · simp [hproj]
  · simp [hacc]

lemma rowsFor_map (nextId : Nat) (fresh : List IncomingEvent) :
    (rowsFor nextId connectionId fresh).map (fun f => (f.eventCursor, f.payload)) =
      fresh.map (fun e => (e.cursor, e.payload)) := by
  induction fresh generalizing nextId with
  | nil => rfl
  | cons e rest ih => rw [rowsFor_cons, map_cons, map_cons, ih]

lemma Tied.append (h : Tied s connectionId)
    (hkept : Kept (s.store.journalState connectionId) (s.store.framesOf connectionId))
    {incoming : List IncomingJournalEntry} {pending : String} (hinc : incoming ≠ [])
    (hrepl : Replaces s.store s'.store connectionId
      (some (committedRow (s.store.journalState connectionId) incoming pending))
      (s.store.framesOf connectionId ++
        rowsFor s.store.nextId connectionId (s.store.freshFor connectionId incoming)))
    (hjnl : s'.journal connectionId = s.appended connectionId incoming .committed)
    (happl : s'.applied = s.applied)
    (hbased : ¬ Based s.store connectionId → s.store.freshFor connectionId incoming = []) :
    Tied s' connectionId := by
  have hstate := @journalState_of_replaces connectionId _ _ _ _ _ hrepl
  rw [if_pos rfl, Option.getD_some] at hstate
  have hfresh : ∀ e ∈ s.store.freshFor connectionId incoming,
      ∀ c, (s.store.journalState connectionId).cursor = some c → c < e.cursor :=
    fun e he => (mem_freshEvents he).1
  have hbeyond : ∀ e ∈ s.store.freshFor connectionId incoming, ∀ p,
      (s.store.journalState connectionId).projectedCursor = some p → p < e.cursor := by
    intro e he p hp
    obtain ⟨c, hc, hle⟩ := hkept.projected p hp
    have := hfresh e he c hc
    omega
  have hacc : (s'.journal connectionId).accepted = (s.journal connectionId).accepted ++
      (s.store.freshFor connectionId incoming).map (fun e => (e.cursor, e.payload)) := by
    rw [hjnl]
    rfl
  have hsnap : (s'.journal connectionId).snapshot = (s.journal connectionId).snapshot := by
    rw [hjnl]
    rfl
  obtain ⟨d, hd⟩ := @reached_isSome (s.store.journalState connectionId).cursor incoming hinc
  refine ⟨?_, ?_, ?_, ?_, ?_, ?_, ?_, ?_⟩
  · rw [hstate, hsnap]
    exact h.snapshotCursor
  · rw [hstate, hsnap]
    exact h.snapshotJson
  · rw [hrepl.frames, hstate, hacc, map_append, h.frames, filter_append, rowsFor_map]
    refine congrArg _ (filter_eq_self.mpr (fun e he => ?_)).symm
    obtain ⟨e', he', rfl⟩ := mem_map.mp he
    simp only [committedRow]
    cases hp : (s.store.journalState connectionId).projectedCursor with
    | none => rfl
    | some p => exact decide_eq_true (hbeyond e' he' p hp)
  · rw [hacc]
    refine pairwise_append.mpr ⟨h.increasing, ?_, fun e he f hf => ?_⟩
    · exact (freshEvents_increasing _ incoming).map _ (fun _ _ hlt => hlt)
    · obtain ⟨f', hf', rfl⟩ := mem_map.mp hf
      obtain ⟨c, hc, hle⟩ := h.held e he
      have := hfresh f' hf' c hc
      dsimp only
      omega
  · rw [hacc, hstate]
    intro e he
    refine ⟨d, hd, ?_⟩
    rcases mem_append.mp he with he | he
    · obtain ⟨c, hc, hle⟩ := h.held e he
      obtain ⟨d', hd', hcd⟩ := @le_reached c incoming
      rw [hc, hd', Option.some.injEq] at hd
      omega
    · obtain ⟨e', he', rfl⟩ := mem_map.mp he
      obtain ⟨-, d', hd', hle⟩ := mem_freshEvents he'
      rw [hd, Option.some.injEq] at hd'
      dsimp only
      omega
  · rw [hacc, hsnap]
    intro e he latest hlat
    rcases mem_append.mp he with he | he
    · exact h.beyondSnapshot e he latest hlat
    obtain ⟨e', he', rfl⟩ := mem_map.mp he
    have hcurs := h.snapshotCursor
    rw [hlat, Option.map_some] at hcurs
    obtain ⟨c, hc, hle⟩ := hkept.snapshot latest.1 hcurs
    have := hfresh e' he' c hc
    dsimp only
    omega
  · rw [hstate, hsnap]
    intro p hp
    refine (h.projected p hp).imp ?_ id
    rintro ⟨projected, hmem, hid, hepoch, hle⟩
    refine ⟨projected, happl ▸ hmem, hid, ?_, hle⟩
    rw [hjnl]
    exact hepoch
  rw [hacc, Based, hstate]
  intro hne
  by_contra hnot
  -- Without a base nothing was accepted before and nothing is fresh.
  have hnew := hbased hnot
  have hold : (s.journal connectionId).accepted = [] := by
    by_contra hne'
    exact hnot (h.based hne')
  rw [hold, hnew] at hne
  exact hne rfl

lemma Tied.acknowledge (h : Tied s connectionId) {row : SyncState} {cursor : Int}
    {projected : Projected} (hid : projected.connectionId = connectionId)
    (hrow : s.store.sync.get? connectionId = some row) (hcurs : row.cursor = some cursor)
    (hacce : accepts cursor row.projectedCursor projected.cursor = true)
    (hrepl : Replaces s.store s'.store connectionId
      (some (acknowledgedRow s.store connectionId projected.cursor row))
      (s.store.uncovered connectionId projected.cursor))
    (hjnl : ∀ k, s'.journal k = s.journal k) (happl : s'.applied = s.applied)
    (hcov : s.Covered projected) : Tied s' connectionId := by
  subst hid
  have hstate := @journalState_of_replaces projected.connectionId _ _ _ _ _ hrepl
  rw [if_pos rfl, Option.getD_some] at hstate
  have hold : s.store.journalState projected.connectionId = row := by
    rw [journalState, hrow]
    rfl
  have hprev : ∀ p, row.projectedCursor = some p → p < projected.cursor := by
    intro p hp
    rw [accepts, hp, Bool.and_eq_true] at hacce
    simpa using hacce.2
  refine ⟨?_, ?_, ?_, ?_, ?_, ?_, ?_, ?_⟩
  · rw [hstate, hjnl, ← h.snapshotCursor, hold]
    rfl
  · rw [hstate, hjnl, ← h.snapshotJson, hold]
    rfl
  · rw [hrepl.frames, hstate, hjnl]
    have hfrs := congrArg (filter (fun e : Int × String => decide (projected.cursor < e.1)))
      h.frames
    rw [filter_filter, filter_map, hold] at hfrs
    have hleft : s.store.uncovered projected.connectionId projected.cursor =
        (s.store.framesOf projected.connectionId).filter
          ((fun e : Int × String => decide (projected.cursor < e.1)) ∘
            (fun f => (f.eventCursor, f.payload))) := by
      refine filter_congr (fun f _ => ?_)
      rw [Function.comp_apply, ← decide_not, decide_eq_decide, not_le]
    rw [hleft, hfrs]
    refine filter_congr (fun e _ => ?_)
    simp only [acknowledgedRow, Option.all_some]
    by_cases hlt : projected.cursor < e.1
    · cases hp : row.projectedCursor with
      | none => simp [hlt]
      | some p =>
        have := (hprev p hp).trans hlt
        simp [hlt, this]
    · simp [hlt]
  · rw [hjnl]
    exact h.increasing
  · rw [hjnl, hstate]
    intro e he
    obtain ⟨c, hc, hle⟩ := h.held e he
    rw [hold] at hc
    exact ⟨c, hc, hle⟩
  · rw [hjnl]
    exact h.beyondSnapshot
  · rw [hstate, hjnl]
    intro p hp
    obtain rfl := Option.some.inj hp
    rcases hcov cursor (by rw [hold]; exact hcurs) (by rw [hold]; exact hacce) with
      ⟨q, hmem, hid, hepoch, hle⟩ | ⟨snapshot, hsnap, hlt⟩
    · exact .inl ⟨q, happl ▸ hmem, hid, by rw [hjnl]; exact hepoch, hle⟩
    · rw [h.snapshotCursor] at hsnap
      obtain ⟨latest, hlat, rfl⟩ := Option.map_eq_some_iff.mp hsnap
      exact .inr ⟨latest, hlat, hlt⟩
  · rw [Based, hstate]
    exact fun _ => .inl (by simp [acknowledgedRow])

lemma Inv.of_dropped (h : Inv s) {k : String} {g : Journal}
    (hkept : WellKept s'.store) (hrepl : Replaces s.store s'.store k row [])
    (hjournals : s'.journals = s.journals.insert k g) (happl : s'.applied = s.applied)
    (hfresh : g.overflowed = false → Tied s' k) : Inv s' := by
  have hjnl : ∀ id, s'.journal id = if id = k then g else s.journal id := by
    intro id
    rw [journal, hjournals, Table.get?_insert]
    split <;> rfl
  refine ⟨hkept, fun id hover => ?_⟩
  rw [hjnl] at hover
  by_cases heq : id = k
  · subst heq
    rw [if_pos rfl] at hover
    exact hfresh hover
  · rw [if_neg heq] at hover
    refine (h.tied id hover).of_other hrepl heq ?_ ?_
    · rw [hjnl, if_neg heq]
    · rw [happl]
      exact fun _ hmem => hmem

lemma Inv.appendEvents (h : Inv s) (k : String) (incoming : List IncomingJournalEntry)
    (hord : s.Orderly (.appendEvents k incoming)) :
    Inv (step org s (.appendEvents k incoming)) := by
  have hkept : WellKept (step org s (.appendEvents k incoming)).store :=
    h.kept.appendEvents org k incoming
  have hjnl : ∀ id, (step org s (.appendEvents k incoming)).journal id =
      if id = k then s.appended k incoming (s.store.appendEvents org k incoming).2.status
      else s.journal id := by
    intro id
    simp only [step, journal, Table.get?_insert]
    split <;> rfl
  -- Where the store is left alone, so is the journal.
  have hsame : (s.store.appendEvents org k incoming).1 = s.store →
      s.appended k incoming (s.store.appendEvents org k incoming).2.status = s.journal k →
      Inv (step org s (.appendEvents k incoming)) := by
    intro hstore hg
    have hj : ∀ id, (step org s (.appendEvents k incoming)).journal id = s.journal id := by
      intro id
      rw [hjnl]
      split
      · rename_i heq
        rw [hg, heq]
      · rfl
    refine ⟨hkept, fun id hover => ?_⟩
    rw [hj] at hover
    refine (h.tied id hover).of_same ?_ ?_ ?_ ?_ ?_ (hj id) (fun _ hmem => hmem) <;>
      simp only [step, hstore]
  rcases appendEvents_cases org incoming with ⟨-, heq⟩ | ⟨hreached, heq, hst⟩ | ⟨-, heq⟩ |
      ⟨hinc, -, hst, ⟨pending, hrepl⟩, -⟩
  · refine hsame ?_ ?_ <;> rw [heq]
    rfl
  · refine hsame heq ?_
    rw [hst]
    have hnil : s.store.freshFor k incoming = [] := freshEvents_of_reached hreached
    simp [appended, hnil]
  · have hrepl : Replaces s.store (step org s (.appendEvents k incoming)).store k
        ((s.store.sync.get? k).map resetRow) [] := by
      simp only [step, heq]
      exact resetJournal_replaces
    refine h.of_dropped hkept hrepl rfl rfl ?_
    rw [heq]
    exact fun hover => nomatch hover
  refine ⟨hkept, fun id hover => ?_⟩
  rw [hjnl, hst] at hover
  by_cases heq : id = k
  · subst heq
    rw [if_pos rfl] at hover
    refine (h.tied id hover).append (h.kept.kept id) hinc hrepl ?_ rfl hord
    rw [hjnl, if_pos rfl, hst]
  · rw [if_neg heq] at hover
    refine (h.tied id hover).of_other hrepl heq ?_ (fun _ hmem => hmem)
    rw [hjnl, if_neg heq]

lemma Inv.arrive (h : Inv s) (index : Nat) (hord : s.Orderly (.arrive index)) :
    Inv (step org s (.arrive index)) := by
  cases hget : s.posted[index]? with
  | none =>
    have hstep : step org s (.arrive index) = s := by simp only [step, hget]
    rw [hstep]
    exact h
  | some projected =>
  have hstep : step org s (.arrive index) = { s with
        store := s.store.acknowledgeThrough projected.connectionId projected.cursor
        posted := s.posted.eraseIdx index } := by
    simp only [step, hget]
  rw [hstep]
  refine ⟨h.kept.acknowledgeThrough _ _, fun id hover => ?_⟩
  have htied := h.tied id hover
  rcases @acknowledgeThrough_cases s.store projected.connectionId projected.cursor with hsame | ⟨row, cursor, hrow, hcurs, hacce, hrepl, -⟩
  · refine htied.of_same ?_ ?_ ?_ ?_ ?_ rfl (fun _ hmem => hmem) <;> rw [hsame]
  · by_cases heq : id = projected.connectionId
    · subst heq
      exact htied.acknowledge rfl hrow hcurs hacce hrepl (fun _ => rfl) rfl (hord projected hget)
    · exact htied.of_other hrepl heq rfl (fun _ hmem => hmem)

lemma Inv.step (h : Inv s) (org : OrgJson) (input : RecoveryInput) (hord : s.Orderly input) :
    Inv (step org s input) := by
  cases input with
  | appendEvents k incoming => exact h.appendEvents k incoming hord
  | storeSnapshot k cursor json =>
    refine h.of_dropped (h.kept.storeSnapshot k cursor json) (storeSnapshot_replaces cursor json)
      rfl rfl (fun _ => ?_)
    have hjnl : (Recovery.step org s (.storeSnapshot k cursor json)).journal k =
        { epoch := (s.journal k).epoch + 1, snapshot := some (cursor, json) } := by
      simp [Recovery.step, journal]
    have hstate := @journalState_of_replaces k _ _ _ _ _
      (@storeSnapshot_replaces s.store k cursor json)
    rw [if_pos rfl, Option.getD_some] at hstate
    refine tied_of_fresh framesOf_deleteFrames_self ?_ ?_ ?_ ?_
    · exact congrArg SyncState.projectedCursor hstate
    · rw [hjnl]
    · rw [hjnl]
      exact congrArg SyncState.snapshotCursor hstate
    · rw [hjnl]
      exact congrArg SyncState.snapshotJson hstate
  | storePendingRequests k json =>
    refine ⟨h.kept.storePendingRequests k json, fun id hover => ?_⟩
    have hstate := @journalState_of_replaces id _ _ _ _ _
      (@storePendingRequests_replaces s.store k json)
    refine (h.tied id hover).of_same ?_ ?_ ?_ ?_ rfl rfl (fun _ hmem => hmem) <;>
    · simp only [Recovery.step, hstate]
      split
      · rename_i heq
        rw [heq]
        rfl
      · rfl
  | deleteConnection k =>
    refine h.of_dropped (h.kept.deleteConnection k) deleteConnection_replaces rfl rfl (fun _ => ?_)
    have hjnl : (Recovery.step org s (.deleteConnection k)).journal k =
        { epoch := (s.journal k).epoch + 1 } := by
      simp [Recovery.step, journal]
    have hstate := @journalState_of_replaces k _ _ _ _ _ (@deleteConnection_replaces s.store k)
    rw [if_pos rfl, Option.getD_none] at hstate
    refine tied_of_fresh framesOf_deleteFrames_self ?_ ?_ ?_ ?_
    · exact congrArg SyncState.projectedCursor hstate
    · rw [hjnl]
    · rw [hjnl]
      exact congrArg SyncState.snapshotCursor hstate
    · rw [hjnl]
      exact congrArg SyncState.snapshotJson hstate
  | project projected =>
    have hstep : Recovery.step org s (.project projected) =
        if projected.epoch ≤ (s.journal projected.connectionId).epoch then
          { s with applied := s.applied ++ [projected], posted := s.posted ++ [projected] }
        else s := rfl
    rw [hstep]
    split
    · refine ⟨h.kept, fun id hover => ?_⟩
      exact (h.tied id hover).of_same rfl rfl rfl rfl rfl rfl (fun _ hmem => mem_append_left _ hmem)
    · exact h
  | arrive index => exact h.arrive index hord

lemma Inv.empty : Inv {} :=
  ⟨WellKept.empty, fun _ _ => tied_of_fresh rfl rfl rfl rfl rfl⟩

end Runs

end Recovery

end CodeWide.Device
