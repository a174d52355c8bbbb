import CodeWide.Device.FrameStore

/-!
# What the device's journal keeps

Every call of `NativeFrameStore` changes the row and the frames of one connection:
`Replaces` says by what.
-/

namespace CodeWide.Device

open Lib List Table NativeFrameStore

/-! ## Batches -/

section Batches

variable {cursor : Option Int} {incoming : List IncomingJournalEntry}

def reach (cursor : Option Int) (entry : IncomingJournalEntry) : Option Int :=
  some (cursor.elim entry.cursor (fun c => max c entry.cursor))

def reached (cursor : Option Int) (entries : List IncomingJournalEntry) : Option Int :=
  entries.foldl reach cursor

/-- Every entry of the batch is at or below the cursor reached before it, or continues it. -/
def Continuous (cursor : Option Int) (incoming : List IncomingJournalEntry) : Prop :=
  ∀ front entry back, incoming = front ++ entry :: back →
    ∀ c, reached cursor front = some c → c < entry.cursor → entry.afterCursor = c

def Beyond (cursor : Option Int) (entry : IncomingJournalEntry) : Prop :=
  ∀ c, cursor = some c → c < entry.cursor

instance (cursor : Option Int) (entry : IncomingJournalEntry) : Decidable (Beyond cursor entry) :=
  match cursor with
  | none => isTrue (by simp [Beyond])
  | some c => decidable_of_iff (c < entry.cursor) (by simp [Beyond])

def freshEvents (cursor : Option Int) : List IncomingJournalEntry → List IncomingEvent
  | [] => []
  | entry :: rest =>
    (if Beyond cursor entry then entry.event?.toList else []) ++
      freshEvents (reach cursor entry) rest

variable {entry : IncomingJournalEntry}

lemma reach_of_beyond (h : Beyond cursor entry) : reach cursor entry = some entry.cursor := by
  cases cursor with
  | none => rfl
  | some c =>
  have hlt := h c rfl
  simp only [reach, Option.elim_some]
  rw [max_eq_right (by omega)]

lemma reach_of_not_beyond (h : ¬ Beyond cursor entry) : reach cursor entry = cursor := by
  cases cursor with
  | none => exact absurd (by simp [Beyond]) h
  | some c =>
  have hle : entry.cursor ≤ c := by simpa [Beyond] using h
  simp only [reach, Option.elim_some]
  rw [max_eq_left hle]

lemma continuous_cons {rest : List IncomingJournalEntry} : Continuous cursor (entry :: rest) ↔
      (∀ c, cursor = some c → c < entry.cursor → entry.afterCursor = c) ∧
        Continuous (reach cursor entry) rest := by
  constructor
  · intro h
    refine ⟨fun c hc => h [] entry rest rfl c hc, fun front e back hsplit => ?_⟩
    exact h (entry :: front) e back (by rw [hsplit, cons_append])
  rintro ⟨hhead, hrest⟩ front e back hsplit
  cases front with
  | nil =>
    obtain ⟨rfl, rfl⟩ := cons.inj hsplit
    exact hhead
  | cons e' front =>
  rw [cons_append] at hsplit
  obtain ⟨rfl, htail⟩ := cons.inj hsplit
  exact hrest front e back htail

lemma chain_eq_some {r : Option Int × List IncomingEvent} :
    NativeFrameStore.chain cursor incoming = some r ↔
      Continuous cursor incoming ∧ r = (reached cursor incoming, freshEvents cursor incoming) := by
  induction incoming generalizing cursor r with
  | nil =>
    have hnil : Continuous cursor [] := by
      intro front entry back h
      simp at h
    simp only [chain, Option.some.injEq, hnil, true_and]
    exact eq_comm
  | cons entry rest ih =>
  rw [continuous_cons]
  unfold chain freshEvents
  change _ ↔ _ ∧ r = (reached (reach cursor entry) rest, _)
  by_cases hb : Beyond cursor entry
  · have hdup : ¬ cursor.any (fun c => decide (entry.cursor ≤ c)) = true := by
      cases cursor with
      | none => simp
      | some c => simpa [Beyond] using hb
    have hbreak : (cursor.any (fun c => decide (entry.afterCursor ≠ c)) = true) ↔
        ¬ ∀ c, cursor = some c → c < entry.cursor → entry.afterCursor = c := by
      cases cursor with
      | none => simp
      | some c =>
        have hlt := hb c rfl
        simp [hlt]
    rw [if_neg hdup, reach_of_beyond hb, if_pos hb]
    split
    · rename_i h
      simp [hbreak.mp h]
    rename_i h
    have hhead := not_not.mp (mt hbreak.mpr h)
    rw [and_iff_right hhead]
    simp only [Option.map_eq_some_iff, ih]
    constructor
    · rintro ⟨a, ⟨hrest, rfl⟩, rfl⟩
      exact ⟨hrest, rfl⟩
    · rintro ⟨hrest, rfl⟩
      exact ⟨_, ⟨hrest, rfl⟩, rfl⟩
  have hdup : cursor.any (fun c => decide (entry.cursor ≤ c)) = true := by
    cases cursor with
    | none => exact absurd (by simp [Beyond]) hb
    | some c => simpa [Beyond] using hb
  have hhead : ∀ c, cursor = some c → c < entry.cursor → entry.afterCursor = c := by
    rintro c rfl hlt
    exact absurd (by simpa [Beyond] using hlt) hb
  rw [if_pos hdup, ih, reach_of_not_beyond hb, if_neg hb, and_iff_right hhead, nil_append]

lemma le_reached {c : Int} (incoming : List IncomingJournalEntry) :
    ∃ d, reached (some c) incoming = some d ∧ c ≤ d := by
  induction incoming generalizing c with
  | nil => exact ⟨c, rfl, le_refl c⟩
  | cons entry rest ih =>
    obtain ⟨d, hd, hle⟩ := @ih (max c entry.cursor)
    exact ⟨d, hd, (le_max_left c entry.cursor).trans hle⟩

lemma reached_isSome (h : incoming ≠ []) : ∃ d, reached cursor incoming = some d := by
  cases incoming with
  | nil => exact absurd rfl h
  | cons entry rest =>
    obtain ⟨d, hd, -⟩ := @le_reached (cursor.elim entry.cursor (fun c => max c entry.cursor)) rest
    exact ⟨d, hd⟩

lemma mem_freshEvents {e : IncomingEvent} (h : e ∈ freshEvents cursor incoming) :
    (∀ c, cursor = some c → c < e.cursor) ∧
      ∃ d, reached cursor incoming = some d ∧ e.cursor ≤ d := by
  induction incoming generalizing cursor with
  | nil => simp [freshEvents] at h
  | cons entry rest ih =>
  rw [freshEvents, mem_append] at h
  rcases h with h | h
  · split at h
    · rename_i hb
      obtain rfl : entry = .event e := by
        cases entry <;> simp_all [IncomingJournalEntry.event?]
      obtain ⟨d, hd, hle⟩ := @le_reached e.cursor rest
      refine ⟨hb, d, ?_, hle⟩
      change reached (reach cursor _) rest = some d
      rw [reach_of_beyond hb]
      exact hd
    · simp at h
  obtain ⟨habove, hreach⟩ := ih h
  refine ⟨fun c hc => ?_, hreach⟩
  subst hc
  have := habove _ rfl
  simp only [Option.elim_some] at this
  omega

lemma freshEvents_increasing (cursor : Option Int) (incoming : List IncomingJournalEntry) :
    (freshEvents cursor incoming).Pairwise (fun a b => a.cursor < b.cursor) := by
  induction incoming generalizing cursor with
  | nil => exact List.Pairwise.nil
  | cons entry rest ih =>
  rw [freshEvents]
  refine pairwise_append.mpr ⟨?_, ih _, fun a ha b hb => ?_⟩
  · split
    · cases entry <;> simp [IncomingJournalEntry.event?]
    · exact List.Pairwise.nil
  split at ha
  · rename_i hbeyond
    obtain rfl : entry = .event a := by
      cases entry <;> simp_all [IncomingJournalEntry.event?]
    rw [reach_of_beyond hbeyond] at hb
    exact (mem_freshEvents hb).1 _ rfl
  · simp at ha

end Batches

section Increasing

variable {incoming : List IncomingJournalEntry}

lemma freshEvents_of_increasing (cursor : Int)
    (h : incoming.Pairwise (fun a b => a.cursor < b.cursor)) :
    freshEvents (some cursor) incoming =
      (incoming.filter (fun entry => decide (cursor < entry.cursor))).filterMap
        IncomingJournalEntry.event? := by
  induction incoming generalizing cursor with
  | nil => rfl
  | cons entry rest ih =>
  obtain ⟨hhead, hrest⟩ := pairwise_cons.mp h
  rw [freshEvents]
  by_cases hb : Beyond (some cursor) entry
  · have hlt : cursor < entry.cursor := hb cursor rfl
    -- Everything behind the entry is beyond both cursors.
    have hall : ∀ c ≤ entry.cursor, rest.filter (fun e => decide (c < e.cursor)) = rest := by
      intro c hc
      refine filter_eq_self.mpr (fun e he => decide_eq_true ?_)
      exact lt_of_le_of_lt hc (hhead e he)
    rw [if_pos hb, reach_of_beyond hb, ih entry.cursor hrest, hall _ (le_refl _),
      filter_cons_of_pos (by simpa using hlt), hall _ hlt.le, filterMap_cons]
    cases entry.event? <;> rfl
  have hle : ¬ cursor < entry.cursor := fun hlt => hb (by simpa [Beyond] using hlt)
  rw [if_neg hb, reach_of_not_beyond hb, ih cursor hrest, filter_cons_of_neg (by simpa using hle)]
  rfl

lemma reached_of_increasing {cursor : Int} {last : IncomingJournalEntry}
    (h : incoming.Pairwise (fun a b => a.cursor < b.cursor)) (hlast : incoming.getLast? = some last)
    (hbeyond : cursor < last.cursor) : reached (some cursor) incoming = some last.cursor := by
  obtain ⟨front, rfl⟩ := getLast?_eq_some_iff.mp hlast
  have hbef : ∀ e ∈ front, e.cursor < last.cursor :=
    fun e he => (pairwise_append.mp h).2.2 e he last (by simp)
  have hreach : ∃ c, reached (some cursor) front = some c ∧ c < last.cursor := by
    clear h hlast
    induction front generalizing cursor with
    | nil => exact ⟨cursor, rfl, hbeyond⟩
    | cons e front ih =>
      have he := hbef e (by simp)
      exact @ih (max cursor e.cursor) (by omega) (fun e' he' => hbef e' (by simp [he']))
  obtain ⟨c, hc, hlt⟩ := hreach
  rw [reached, foldl_append]
  change some ((reached (some cursor) front).elim _ _) = _
  rw [hc, Option.elim_some, max_eq_right hlt.le]

end Increasing

/-! ## One connection -/

def NativeFrameStore.resetRow (row : SyncState) : SyncState :=
  { row with
    cursor := none
    snapshotCursor := none
    projectedCursor := none
    snapshotJson := none
    journalFrames := 0
    journalBytes := 0 }

def NativeFrameStore.snapshotRow (cursor : Int) (snapshotJson : String) (row : SyncState) : SyncState :=
  { row with
    cursor := some cursor
    snapshotCursor := some cursor
    projectedCursor := none
    snapshotJson := some snapshotJson
    journalFrames := 0
    journalBytes := 0 }

structure Kept (row : SyncState) (frames : List FrameRow) : Prop where
  counted : countFrames frames = ⟨row.journalFrames, row.journalBytes⟩
  framesLimit : row.journalFrames ≤ maxFrames
  bytesLimit : row.journalBytes ≤ maxBytes
  increasing : frames.Pairwise (fun a b => a.eventCursor < b.eventCursor)
  held : ∀ f ∈ frames, ∃ c, row.cursor = some c ∧ f.eventCursor ≤ c
  beyondProjected : ∀ f ∈ frames, ∀ p, row.projectedCursor = some p → p < f.eventCursor
  beyondSnapshot : ∀ f ∈ frames, ∀ p, row.snapshotCursor = some p → p < f.eventCursor
  projected : ∀ p, row.projectedCursor = some p → ∃ c, row.cursor = some c ∧ p ≤ c
  snapshot : ∀ p, row.snapshotCursor = some p → ∃ c, row.cursor = some c ∧ p ≤ c

@[simp] lemma countFrames_nil : countFrames [] = ⟨0, 0⟩ := rfl

lemma countFrames_append (l m : List FrameRow) :
    countFrames (l ++ m) = ⟨(countFrames l).frameCount + (countFrames m).frameCount,
      (countFrames l).payloadBytes + (countFrames m).payloadBytes⟩ := by
  simp [countFrames]

lemma countFrames_filter (p : FrameRow → Bool) (l : List FrameRow) :
    (countFrames (l.filter p)).frameCount + (countFrames (l.filter (fun f => !p f))).frameCount =
        (countFrames l).frameCount ∧
      (countFrames (l.filter p)).payloadBytes +
          (countFrames (l.filter (fun f => !p f))).payloadBytes = (countFrames l).payloadBytes := by
  induction l with
  | nil => exact ⟨rfl, rfl⟩
  | cons f rest ih =>
    simp only [countFrames] at ih ⊢
    cases hp : p f <;> simp [hp] <;> omega

section Rows

variable {connectionId : String} {nextId : Nat} {fresh : List IncomingEvent}

lemma rowsFor_cons (e : IncomingEvent) : NativeFrameStore.rowsFor nextId connectionId (e :: fresh) =
    ⟨nextId, connectionId, e.cursor, e.payload⟩ ::
      NativeFrameStore.rowsFor (nextId + 1) connectionId fresh := rfl

lemma mem_rowsFor {f : FrameRow} (h : f ∈ NativeFrameStore.rowsFor nextId connectionId fresh) :
    f.connectionId = connectionId ∧ ∃ e ∈ fresh, f.eventCursor = e.cursor := by
  obtain ⟨⟨e, i⟩, he, rfl⟩ := mem_map.mp h
  exact ⟨rfl, e, fst_mem_of_mem_zipIdx he, rfl⟩

lemma rowsFor_increasing (h : fresh.Pairwise (fun a b => a.cursor < b.cursor)) :
    (NativeFrameStore.rowsFor nextId connectionId fresh).Pairwise
      (fun a b => a.eventCursor < b.eventCursor) := by
  induction fresh generalizing nextId with
  | nil => exact List.Pairwise.nil
  | cons e rest ih =>
  rw [rowsFor_cons]
  obtain ⟨hhead, hrest⟩ := pairwise_cons.mp h
  refine pairwise_cons.mpr ⟨fun f hf => ?_, ih hrest⟩
  obtain ⟨-, e', he', hcurs⟩ := mem_rowsFor hf
  rw [hcurs]
  exact hhead e' he'

lemma countFrames_rowsFor : countFrames (NativeFrameStore.rowsFor nextId connectionId fresh) =
    ⟨fresh.length, NativeFrameStore.freshBytes fresh⟩ := by
  induction fresh generalizing nextId with
  | nil => rfl
  | cons e rest ih =>
  have htail := @ih (nextId + 1)
  simp only [countFrames, JournalTotals.mk.injEq] at htail
  simp [rowsFor_cons, countFrames, htail, freshBytes, FrameRow.payloadBytes]

end Rows

namespace Kept

variable {row : SyncState} {frames : List FrameRow}

lemma empty : Kept {} [] := by
  constructor <;> simp

lemma of_snapshot {cursor : Int} {json : String} :
    Kept (NativeFrameStore.snapshotRow cursor json row) [] := by
  constructor <;> simp [snapshotRow]

lemma of_reset : Kept (NativeFrameStore.resetRow row) [] := by
  constructor <;> simp [resetRow]

lemma of_eq {row' : SyncState} (h : Kept row frames) (hcurs : row'.cursor = row.cursor)
    (hsnap : row'.snapshotCursor = row.snapshotCursor)
    (hproj : row'.projectedCursor = row.projectedCursor)
    (hfrs : row'.journalFrames = row.journalFrames)
    (hbytes : row'.journalBytes = row.journalBytes) : Kept row' frames := by
  obtain ⟨hcounted, hfl, hbl, hinc, hheld, hbp, hbs, hp, hs⟩ := h
  constructor
  · rw [hfrs, hbytes]
    exact hcounted
  · rw [hfrs]
    exact hfl
  · rw [hbytes]
    exact hbl
  · exact hinc
  · rw [hcurs]
    exact hheld
  · rw [hproj]
    exact hbp
  · rw [hsnap]
    exact hbs
  · rw [hproj, hcurs]
    exact hp
  · rw [hsnap, hcurs]
    exact hs

lemma acknowledge {cursor projection : Int} (h : Kept row frames) (hcurs : row.cursor = some cursor)
    (hle : projection ≤ cursor) :
    Kept { row with
        projectedCursor := some projection
        journalFrames := row.journalFrames -
          (countFrames (frames.filter (fun f => decide (f.eventCursor ≤ projection)))).frameCount
        journalBytes := row.journalBytes -
          (countFrames (frames.filter (fun f => decide (f.eventCursor ≤ projection)))).payloadBytes }
      (frames.filter (fun f => !decide (f.eventCursor ≤ projection))) := by
  have hparts := countFrames_filter (fun f => decide (f.eventCursor ≤ projection)) frames
  rw [h.counted] at hparts
  constructor
  · ext
    · dsimp only at hparts ⊢
      omega
    · dsimp only at hparts ⊢
      omega
  · exact (Nat.sub_le _ _).trans h.framesLimit
  · exact (Nat.sub_le _ _).trans h.bytesLimit
  · exact h.increasing.sublist filter_sublist
  · exact fun f hf => h.held f (mem_filter.mp hf).1
  · rintro f hf p hp
    obtain rfl := Option.some.inj hp
    simpa using (mem_filter.mp hf).2
  · exact fun f hf => h.beyondSnapshot f (mem_filter.mp hf).1
  · rintro p hp
    obtain rfl := Option.some.inj hp
    exact ⟨cursor, hcurs, hle⟩
  · exact h.snapshot

lemma append {incoming : List IncomingJournalEntry} {connectionId : String} {nextId : Nat}
    (h : Kept row frames) (hinco : incoming ≠ [])
    (hfrs : row.journalFrames + (freshEvents row.cursor incoming).length ≤ maxFrames)
    (hbytes : row.journalBytes + NativeFrameStore.freshBytes (freshEvents row.cursor incoming) ≤
      maxBytes) :
    Kept { row with
        cursor := reached row.cursor incoming
        journalFrames := row.journalFrames + (freshEvents row.cursor incoming).length
        journalBytes := row.journalBytes +
          NativeFrameStore.freshBytes (freshEvents row.cursor incoming) }
      (frames ++ NativeFrameStore.rowsFor nextId connectionId (freshEvents row.cursor incoming)) := by
  obtain ⟨d, hd⟩ := @reached_isSome row.cursor incoming hinco
  -- What the stored cursor bounds, the cursor reached bounds.
  have hgrow : ∀ {p : Int}, (∃ c, row.cursor = some c ∧ p ≤ c) → p ≤ d := by
    rintro p ⟨c, hc, hle⟩
    obtain ⟨d', hd', hcd⟩ := @le_reached c incoming
    rw [hc, hd', Option.some.injEq] at hd
    omega
  have hfresh : ∀ {f : FrameRow}, f ∈ rowsFor nextId connectionId
      (freshEvents row.cursor incoming) →
      (∀ c, row.cursor = some c → c < f.eventCursor) ∧ f.eventCursor ≤ d := by
    intro f hf
    obtain ⟨-, e, he, hcurs⟩ := mem_rowsFor hf
    obtain ⟨habove, d', hd', hle⟩ := mem_freshEvents he
    rw [hd, Option.some.injEq] at hd'
    subst hd'
    rw [hcurs]
    exact ⟨habove, hle⟩
  constructor
  · rw [countFrames_append, countFrames_rowsFor, h.counted]
  · exact hfrs
  · exact hbytes
  · refine pairwise_append.mpr
      ⟨h.increasing, rowsFor_increasing (freshEvents_increasing _ _), fun f hf g hg => ?_⟩
    obtain ⟨c, hc, hle⟩ := h.held f hf
    have := (hfresh hg).1 c hc
    omega
  · intro f hf
    refine ⟨d, hd, ?_⟩
    rcases mem_append.mp hf with hf | hf
    · exact hgrow (h.held f hf)
    · exact (hfresh hf).2
  · intro f hf p hp
    rcases mem_append.mp hf with hf | hf
    · exact h.beyondProjected f hf p hp
    · obtain ⟨c, hc, hle⟩ := h.projected p hp
      have := (hfresh hf).1 c hc
      omega
  · intro f hf p hp
    rcases mem_append.mp hf with hf | hf
    · exact h.beyondSnapshot f hf p hp
    · obtain ⟨c, hc, hle⟩ := h.snapshot p hp
      have := (hfresh hf).1 c hc
      omega
  · exact fun p hp => ⟨d, hd, hgrow (h.projected p hp)⟩
  · exact fun p hp => ⟨d, hd, hgrow (h.snapshot p hp)⟩

end Kept

/-! ## The store -/

lemma filter_covered {s : NativeFrameStore} {connectionId : String} (projectionCursor : Int) :
    s.frames.filter (NativeFrameStore.covered connectionId projectionCursor) =
      (s.framesOf connectionId).filter (fun f => decide (f.eventCursor ≤ projectionCursor)) := by
  rw [framesOf, filter_filter]
  refine filter_congr (fun f _ => ?_)
  rw [covered, Bool.and_comm]

structure WellKept (s : NativeFrameStore) : Prop where
  kept : ∀ connectionId, Kept (s.journalState connectionId) (s.framesOf connectionId)
  frameTotal : s.totals.frameCount = s.sync.sum SyncState.journalFrames
  byteTotal : s.totals.payloadBytes = s.sync.sum SyncState.journalBytes
  frameLimit : s.totals.frameCount ≤ maxTotalFrames
  byteLimit : s.totals.payloadBytes ≤ maxTotalBytes

structure Replaces (s s' : NativeFrameStore) (connectionId : String) (row : Option SyncState)
    (frames : List FrameRow) : Prop where
  sync : ∀ other, s'.sync.get? other = if other = connectionId then row else s.sync.get? other
  frames : s'.framesOf connectionId = frames
  others : ∀ other, other ≠ connectionId → s'.framesOf other = s.framesOf other

structure Accounts (s s' : NativeFrameStore) (connectionId : String) (row : Option SyncState) :
    Prop where
  frames : s'.totals.frameCount + (s.journalCounters connectionId).frameCount =
    s.totals.frameCount + (row.getD {}).journalFrames
  bytes : s'.totals.payloadBytes + (s.journalCounters connectionId).payloadBytes =
    s.totals.payloadBytes + (row.getD {}).journalBytes

namespace WellKept

variable {s s' : NativeFrameStore} {connectionId : String}

lemma empty : WellKept {} := by
  refine ⟨fun _ => Kept.empty, rfl, rfl, ?_, ?_⟩ <;> simp

lemma counters_le (h : WellKept s) (connectionId : String) :
    (s.journalCounters connectionId).frameCount ≤ s.totals.frameCount ∧
      (s.journalCounters connectionId).payloadBytes ≤ s.totals.payloadBytes := by
  rw [h.frameTotal, h.byteTotal]
  simp only [journalCounters, journalState]
  cases hrow : s.sync.get? connectionId with
  | none => exact ⟨Nat.zero_le _, Nat.zero_le _⟩
  | some row => exact ⟨le_sum hrow _, le_sum hrow _⟩

lemma removed_le (h : WellKept s) (connectionId : String) (projectionCursor : Int) :
    (countFrames (s.frames.filter
        (NativeFrameStore.covered connectionId projectionCursor))).frameCount ≤
        (s.journalCounters connectionId).frameCount ∧
      (countFrames (s.frames.filter
        (NativeFrameStore.covered connectionId projectionCursor))).payloadBytes ≤
        (s.journalCounters connectionId).payloadBytes := by
  have hparts := countFrames_filter (fun f => decide (f.eventCursor ≤ projectionCursor))
    (s.framesOf connectionId)
  rw [(h.kept connectionId).counted] at hparts
  rw [filter_covered]
  exact ⟨Nat.le.intro hparts.1, Nat.le.intro hparts.2⟩

lemma of_replaces (h : WellKept s) {row : Option SyncState} {frames : List FrameRow}
    (hrepl : Replaces s s' connectionId row frames) (hkept : Kept (row.getD {}) frames)
    (haccounts : Accounts s s' connectionId row)
    (hfrs : s'.totals.frameCount ≤ maxTotalFrames)
    (hbytes : s'.totals.payloadBytes ≤ maxTotalBytes) : WellKept s' := by
  have hold : ∀ f : SyncState → Nat, f {} = 0 →
      ((s.sync.get? connectionId).map f).getD 0 = f (s.journalState connectionId) := by
    intro f hf
    rw [journalState]
    cases s.sync.get? connectionId with
    | none => exact hf.symm
    | some r => rfl
  have hnew : ∀ f : SyncState → Nat, f {} = 0 → (row.map f).getD 0 = f (row.getD {}) := by
    intro f hf
    cases row with
    | none => exact hf.symm
    | some r => rfl
  refine ⟨fun other => ?_, ?_, ?_, hfrs, hbytes⟩
  · rw [journalState, hrepl.sync]
    by_cases heq : other = connectionId
    · rw [if_pos heq, heq, hrepl.frames]
      exact hkept
    · rw [if_neg heq, hrepl.others other heq]
      exact h.kept other
  · have hsum := sum_of_replaced hrepl.sync SyncState.journalFrames
    rw [hold _ rfl, hnew _ rfl] at hsum
    have hcount := haccounts.frames
    rw [h.frameTotal, journalCounters] at hcount
    dsimp only at hcount
    omega
  have hsum := sum_of_replaced hrepl.sync SyncState.journalBytes
  rw [hold _ rfl, hnew _ rfl] at hsum
  have hcount := haccounts.bytes
  rw [h.byteTotal, journalCounters] at hcount
  dsimp only at hcount
  omega

end WellKept

/-! ## What a call replaces -/

namespace NativeFrameStore

variable {s : NativeFrameStore} {connectionId : String}

@[simp] lemma framesOf_deleteFrames_self : (s.deleteFrames connectionId).framesOf connectionId = [] := by
  simp [framesOf, deleteFrames, filter_filter]

lemma framesOf_deleteFrames_of_ne {other : String} (h : other ≠ connectionId) :
    (s.deleteFrames connectionId).framesOf other = s.framesOf other := by
  rw [framesOf, framesOf, deleteFrames, filter_filter]
  refine filter_congr (fun f _ => ?_)
  by_cases hf : f.connectionId = other
  · simp [hf, h]
  · simp [hf]

variable (f : SyncState → SyncState)

variable (other : String)

lemma update_sync : (s.update connectionId f).sync.get? other =
      if other = connectionId then (s.sync.get? connectionId).map f else s.sync.get? other := by
  unfold update
  split
  · rename_i hnone
    by_cases h : other = connectionId
    · simp [h, hnone]
    · rw [if_neg h]
  · rename_i row hrow
    rw [get?_insert, hrow]
    rfl

lemma update_frames :
    (s.update connectionId f).frames = s.frames ∧ (s.update connectionId f).totals = s.totals ∧
      (s.update connectionId f).nextId = s.nextId := by
  unfold update
  split <;> exact ⟨rfl, rfl, rfl⟩

lemma framesOf_update : (s.update connectionId f).framesOf other = s.framesOf other := by
  rw [framesOf, (update_frames f).1, framesOf]

lemma resetJournal_replaces : Replaces s (s.resetJournal connectionId) connectionId
    ((s.sync.get? connectionId).map resetRow) [] where
  sync other := update_sync _ other
  frames := (framesOf_update _ connectionId).trans framesOf_deleteFrames_self
  others other h := (framesOf_update _ other).trans (framesOf_deleteFrames_of_ne h)

lemma storeSnapshot_replaces (cursor : Int) (snapshotJson : String) :
    Replaces s (s.storeSnapshot connectionId cursor snapshotJson) connectionId
      (some (snapshotRow cursor snapshotJson (s.journalState connectionId))) [] where
  sync other := by
    rw [storeSnapshot, upsert, get?_insert]
    rfl
  frames := framesOf_deleteFrames_self
  others _ h := framesOf_deleteFrames_of_ne h

lemma deleteConnection_replaces :
    Replaces s (s.deleteConnection connectionId) connectionId none [] where
  sync other := get?_erase s.sync connectionId other
  frames := framesOf_deleteFrames_self
  others _ h := framesOf_deleteFrames_of_ne h

lemma storePendingRequests_replaces (json : String) :
    Replaces s (s.storePendingRequests connectionId json) connectionId
      (some { s.journalState connectionId with pendingRequestsJson := json })
      (s.framesOf connectionId) where
  sync other := by
    rw [storePendingRequests, upsert, get?_insert]
    rfl
  frames := rfl
  others _ _ := rfl

def uncovered (s : NativeFrameStore) (connectionId : String) (projectionCursor : Int) :
    List FrameRow :=
  (s.framesOf connectionId).filter (fun f => !decide (f.eventCursor ≤ projectionCursor))

def acknowledgedRow (s : NativeFrameStore) (connectionId : String) (projectionCursor : Int)
    (row : SyncState) : SyncState :=
  { row with
    projectedCursor := some projectionCursor
    journalFrames := row.journalFrames -
      (countFrames (s.frames.filter (covered connectionId projectionCursor))).frameCount
    journalBytes := row.journalBytes -
      (countFrames (s.frames.filter (covered connectionId projectionCursor))).payloadBytes }

lemma acknowledgeThrough_cases (projectionCursor : Int) :
    s.acknowledgeThrough connectionId projectionCursor = s ∨
      ∃ row cursor, s.sync.get? connectionId = some row ∧ row.cursor = some cursor ∧
        accepts cursor row.projectedCursor projectionCursor = true ∧
        Replaces s (s.acknowledgeThrough connectionId projectionCursor) connectionId
          (some (acknowledgedRow s connectionId projectionCursor row))
          (s.uncovered connectionId projectionCursor) ∧
        (s.acknowledgeThrough connectionId projectionCursor).totals =
          (s.decrementTotals (countFrames
            (s.frames.filter (covered connectionId projectionCursor)))).totals := by
  unfold acknowledgeThrough
  split
  · exact .inl rfl
  rename_i row hrow
  split
  · exact .inl rfl
  rename_i cursor hcurs
  split
  · rename_i hacc
    refine .inr ⟨row, cursor, hrow, hcurs, hacc, ⟨fun other => ?_, ?_, ?_⟩, rfl⟩
    · exact get?_insert ..
    · simp only [decrementTotals, framesOf, uncovered, filter_filter]
      refine filter_congr (fun f _ => ?_)
      by_cases hf : f.connectionId = connectionId <;> simp [covered, hf]
    intro other hne
    simp only [decrementTotals, framesOf, filter_filter]
    refine filter_congr (fun f _ => ?_)
    by_cases hf : f.connectionId = other
    · simp [covered, hf, hne]
    · simp [hf]
  · exact .inl rfl

def committedRow (row : SyncState) (incoming : List IncomingJournalEntry) (pending : String) :
    SyncState :=
  { row with
    cursor := reached row.cursor incoming
    journalFrames := row.journalFrames + (freshEvents row.cursor incoming).length
    journalBytes := row.journalBytes + freshBytes (freshEvents row.cursor incoming)
    pendingRequestsJson := pending }

lemma framesOf_append_rowsFor {rows : List FrameRow} {nextId : Nat} {fresh : List IncomingEvent} :
    (rows ++ rowsFor nextId connectionId fresh).filter (fun f => decide (f.connectionId = other)) =
      rows.filter (fun f => decide (f.connectionId = other)) ++
        if other = connectionId then rowsFor nextId connectionId fresh else [] := by
  rw [filter_append]
  split
  · rename_i h
    rw [filter_eq_self.mpr (fun f hf => decide_eq_true ((mem_rowsFor hf).1.trans h.symm))]
  rename_i h
  have hnone : (rowsFor nextId connectionId fresh).filter
      (fun f => decide (f.connectionId = other)) = [] := by
    refine filter_eq_nil_iff.mpr (fun f hf => ?_)
    simpa [(mem_rowsFor hf).1] using Ne.symm h
  rw [hnone]

def freshFor (s : NativeFrameStore) (connectionId : String) (incoming : List IncomingJournalEntry) :
    List IncomingEvent :=
  freshEvents (s.journalState connectionId).cursor incoming

/-- A batch is stored: its fresh events behind the frames, and the cursor it reaches. -/
structure Commits (s s' : NativeFrameStore) (connectionId : String)
    (incoming : List IncomingJournalEntry) : Prop where
  replaces : ∃ pending, Replaces s s' connectionId
    (some (committedRow (s.journalState connectionId) incoming pending))
    (s.framesOf connectionId ++ rowsFor s.nextId connectionId (s.freshFor connectionId incoming))
  totals : s'.totals = ⟨s.totals.frameCount + (s.freshFor connectionId incoming).length,
    s.totals.payloadBytes + freshBytes (s.freshFor connectionId incoming)⟩

lemma applyPendingRequestEvents_commits (org : OrgJson) (incoming : List IncomingJournalEntry)
    (payloads : List Json) :
    Commits s ((s.commitFresh connectionId (reached (s.journalState connectionId).cursor incoming)
      (s.freshFor connectionId incoming)).applyPendingRequestEvents org connectionId payloads)
      connectionId incoming := by
  have hcommit : Commits s (s.commitFresh connectionId
      (reached (s.journalState connectionId).cursor incoming) (s.freshFor connectionId incoming))
      connectionId incoming := by
    refine ⟨⟨_, fun other => get?_insert .., ?_, fun other hne => ?_⟩, rfl⟩
    · exact (framesOf_append_rowsFor connectionId).trans (by rw [if_pos rfl]; rfl)
    · exact (framesOf_append_rowsFor other).trans (by rw [if_neg hne, append_nil]; rfl)
  unfold applyPendingRequestEvents
  split
  · exact hcommit
  obtain ⟨⟨pending, hsync, hfrs, hoth⟩, htotals⟩ := hcommit
  refine ⟨⟨org.text (.arr (payloads.foldl (applyPendingRequestEvent org)
    ((org.array pending).getD []))), fun other => ?_, (framesOf_update _ connectionId).trans hfrs,
    fun other hne => (framesOf_update _ other).trans (hoth other hne)⟩,
    (update_frames _).2.1.trans htotals⟩
  rw [update_sync, hsync, hsync other, if_pos rfl]
  by_cases heq : other = connectionId
  · rw [if_pos heq, if_pos heq]
    rfl
  · rw [if_neg heq, if_neg heq, if_neg heq]

lemma appendEvents_cases (org : OrgJson) (incoming : List IncomingJournalEntry) :
    (¬ Continuous (s.journalState connectionId).cursor incoming ∧
        s.appendEvents org connectionId incoming = (s, ⟨.nonContiguous, [], none, none⟩)) ∨
      (reached (s.journalState connectionId).cursor incoming = (s.journalState connectionId).cursor ∧
        (s.appendEvents org connectionId incoming).1 = s ∧
        (s.appendEvents org connectionId incoming).2.status = .committed) ∨
      (s.Overflows connectionId (s.freshFor connectionId incoming)
          (freshBytes (s.freshFor connectionId incoming)) ∧
        s.appendEvents org connectionId incoming =
          (s.resetJournal connectionId, ⟨.overflow, [], none, none⟩)) ∨
      (incoming ≠ [] ∧ ¬ s.Overflows connectionId (s.freshFor connectionId incoming)
          (freshBytes (s.freshFor connectionId incoming)) ∧
        (s.appendEvents org connectionId incoming).2.status = .committed ∧
        Commits s (s.appendEvents org connectionId incoming).1 connectionId incoming) := by
  by_cases hinco : incoming = []
  · subst hinco
    exact .inr (.inl ⟨rfl, rfl, rfl⟩)
  cases hchain : chain (s.journalState connectionId).cursor incoming with
  | none =>
    refine .inl ⟨fun h => ?_, ?_⟩
    · rw [chain_eq_some.mpr ⟨h, rfl⟩] at hchain
      cases hchain
    · unfold appendEvents
      rw [if_neg hinco, hchain]
  | some r =>
  obtain ⟨hcontinuous, rfl⟩ := chain_eq_some.mp hchain
  refine .inr ?_
  unfold appendEvents
  rw [if_neg hinco, hchain]
  dsimp only
  split
  · rename_i hsame
    exact .inl ⟨hsame, rfl, rfl⟩
  split
  · rename_i hover
    exact .inr (.inl ⟨hover, rfl⟩)
  · rename_i hover
    exact .inr (.inr ⟨hinco, hover, rfl, applyPendingRequestEvents_commits ..⟩)

end NativeFrameStore

/-! ## Every run -/

namespace WellKept

open NativeFrameStore

variable {s : NativeFrameStore} {connectionId : String}

section

variable (h : WellKept s)
include h

lemma of_dropped {s' : NativeFrameStore} {row : Option SyncState}
    (hrepl : Replaces s s' connectionId row []) (hkept : Kept (row.getD {}) [])
    (htotals : s'.totals = (s.decrementTotals (s.journalCounters connectionId)).totals) :
    WellKept s' := by
  have hcount := hkept.counted
  rw [countFrames_nil, JournalTotals.mk.injEq] at hcount
  obtain ⟨hfrs, hbytes⟩ := h.counters_le connectionId
  have hfl := h.frameLimit
  have hbl := h.byteLimit
  refine h.of_replaces hrepl hkept ⟨?_, ?_⟩ ?_ ?_ <;> rw [htotals] <;>
    simp only [decrementTotals] <;> omega

lemma resetJournal (connectionId : String) : WellKept (s.resetJournal connectionId) := by
  refine h.of_dropped resetJournal_replaces ?_ ?_
  · cases s.sync.get? connectionId with
    | none => exact Kept.empty
    | some row => exact Kept.of_reset
  · simp only [NativeFrameStore.resetJournal, decrementTotals, (update_frames _).2.1]
    rfl

lemma storeSnapshot (connectionId : String) (cursor : Int) (json : String) :
    WellKept (s.storeSnapshot connectionId cursor json) :=
  h.of_dropped (storeSnapshot_replaces cursor json) Kept.of_snapshot rfl

lemma deleteConnection (connectionId : String) : WellKept (s.deleteConnection connectionId) :=
  h.of_dropped deleteConnection_replaces Kept.empty rfl

lemma storePendingRequests (connectionId json : String) :
    WellKept (s.storePendingRequests connectionId json) :=
  h.of_replaces (storePendingRequests_replaces json)
    ((h.kept connectionId).of_eq rfl rfl rfl rfl rfl) ⟨rfl, rfl⟩ h.frameLimit h.byteLimit

lemma acknowledgeThrough (connectionId : String) (projectionCursor : Int) :
    WellKept (s.acknowledgeThrough connectionId projectionCursor) := by
  rcases acknowledgeThrough_cases projectionCursor with hsame |
      ⟨row, cursor, hrow, hcurs, hacc, hrepl, htotals⟩
  · rw [hsame]
    exact h
  have hle : projectionCursor ≤ cursor := by
    rw [accepts, Bool.and_eq_true, decide_eq_true_eq] at hacc
    exact hacc.1
  have hstate : s.journalState connectionId = row := by
    rw [journalState, hrow]
    rfl
  have hkept := h.kept connectionId
  rw [hstate] at hkept
  obtain ⟨hfrs, hbytes⟩ := h.counters_le connectionId
  obtain ⟨hrf, hrb⟩ := h.removed_le connectionId projectionCursor
  have hfl := h.frameLimit
  have hbl := h.byteLimit
  refine h.of_replaces hrepl ?_ ⟨?_, ?_⟩ ?_ ?_
  · have hack := hkept.acknowledge hcurs hle
    rw [← filter_covered] at hack
    exact hack
  all_goals
    rw [htotals]
    simp only [journalCounters, hstate] at hfrs hbytes hrf hrb
    simp only [decrementTotals, journalCounters, hstate, acknowledgedRow, Option.getD_some]
    omega

lemma appendEvents (org : OrgJson) (connectionId : String)
    (incoming : List IncomingJournalEntry) :
    WellKept (s.appendEvents org connectionId incoming).1 := by
  rcases appendEvents_cases org incoming with ⟨-, heq⟩ | ⟨-, heq, -⟩ | ⟨-, heq⟩ |
      ⟨hinco, hroom, -, ⟨pending, hrepl⟩, htotals⟩
  · rw [heq]
    exact h
  · rw [heq]
    exact h
  · rw [heq]
    exact h.resetJournal connectionId
  simp only [Overflows, not_or, Nat.not_lt] at hroom
  obtain ⟨hfrs, hbytes, htotalFrames, htotalBytes⟩ := hroom
  refine h.of_replaces hrepl ?_ ⟨?_, ?_⟩ ?_ ?_
  · exact ((h.kept connectionId).append hinco hfrs hbytes).of_eq rfl rfl rfl rfl rfl
  all_goals
    rw [htotals]
    simp only [journalCounters, committedRow, Option.getD_some, freshFor] at htotalFrames htotalBytes ⊢
    omega

end

lemma frameStep (h : WellKept s) (org : OrgJson) (op : FrameOp) :
    WellKept (frameStep org s op) := by
  cases op with
  | appendEvents connectionId incoming => exact h.appendEvents org connectionId incoming
  | storeSnapshot connectionId cursor json => exact h.storeSnapshot connectionId cursor json
  | acknowledgeThrough connectionId cursor => exact h.acknowledgeThrough connectionId cursor
  | storePendingRequests connectionId json => exact h.storePendingRequests connectionId json
  | deleteConnection connectionId => exact h.deleteConnection connectionId

lemma exec (org : OrgJson) (ops : List FrameOp) :
    WellKept (Lib.exec (Device.frameStep org) {} ops) :=
  exec_invariant (fun _ op h => h.frameStep org op) empty ops

end WellKept

/-- No `MAX(0, ...)` of the next call takes more off a counter than it holds. -/
structure Unclamped (s : NativeFrameStore) : Prop where
  dropped : ∀ connectionId,
    (s.journalCounters connectionId).frameCount ≤ s.totals.frameCount ∧
      (s.journalCounters connectionId).payloadBytes ≤ s.totals.payloadBytes
  acknowledged : ∀ connectionId projectionCursor,
    (countFrames (s.frames.filter
        (NativeFrameStore.covered connectionId projectionCursor))).frameCount ≤
        (s.journalCounters connectionId).frameCount ∧
      (countFrames (s.frames.filter
        (NativeFrameStore.covered connectionId projectionCursor))).payloadBytes ≤
        (s.journalCounters connectionId).payloadBytes

/-- These events are put behind the frames of the connection, and its cursor moves. -/
structure Stores (s s' : NativeFrameStore) (connectionId : String) (events : List IncomingEvent)
    (cursor : Option Int) : Prop where
  frames : s'.framesOf connectionId =
    s.framesOf connectionId ++ NativeFrameStore.rowsFor s.nextId connectionId events
  cursor : (s'.journalState connectionId).cursor = cursor
  others : ∀ other, other ≠ connectionId →
    s'.framesOf other = s.framesOf other ∧ s'.sync.get? other = s.sync.get? other

/-- What the device's journal promises in a state. -/
structure JournalContract (org : OrgJson) (s : NativeFrameStore) : Prop where
  kept : WellKept s
  unclamped : Unclamped s
  broken : ∀ connectionId incoming,
    ¬ Continuous (s.journalState connectionId).cursor incoming →
    s.appendEvents org connectionId incoming = (s, ⟨.nonContiguous, [], none, none⟩)
  duplicates : ∀ connectionId incoming,
    (∀ entry ∈ incoming, ¬ Beyond (s.journalState connectionId).cursor entry) →
    (s.appendEvents org connectionId incoming).1 = s
  accepted : ∀ connectionId incoming,
    (s.appendEvents org connectionId incoming).2.status = .committed →
    Stores s (s.appendEvents org connectionId incoming).1 connectionId
      (freshEvents (s.journalState connectionId).cursor incoming)
      (reached (s.journalState connectionId).cursor incoming)
  increasing : ∀ connectionId incoming cursor last,
    (s.appendEvents org connectionId incoming).2.status = .committed →
    (s.journalState connectionId).cursor = some cursor →
    incoming.Pairwise (fun a b => a.cursor < b.cursor) →
    incoming.getLast? = some last → cursor < last.cursor →
    Stores s (s.appendEvents org connectionId incoming).1 connectionId
      ((incoming.filter (fun entry => decide (cursor < entry.cursor))).filterMap
        IncomingJournalEntry.event?)
      (some last.cursor)

section Contract

open NativeFrameStore

variable {s : NativeFrameStore} {org : OrgJson} {connectionId : String}
  {incoming : List IncomingJournalEntry}

lemma reached_of_duplicates {cursor : Option Int} (h : ∀ entry ∈ incoming, ¬ Beyond cursor entry) :
    reached cursor incoming = cursor := by
  induction incoming with
  | nil => rfl
  | cons entry rest ih =>
  change reached (reach cursor entry) rest = cursor
  rw [reach_of_not_beyond (h entry (by simp))]
  exact ih (fun e he => h e (by simp [he]))

lemma freshEvents_of_reached {cursor : Option Int} (h : reached cursor incoming = cursor) :
    freshEvents cursor incoming = [] := by
  refine eq_nil_iff_forall_not_mem.mpr (fun e he => ?_)
  obtain ⟨habove, d, hd, hle⟩ := mem_freshEvents he
  rw [h] at hd
  exact absurd (habove d hd) (by omega)

lemma appendEvents_stores (h : (s.appendEvents org connectionId incoming).2.status = .committed) :
    Stores s (s.appendEvents org connectionId incoming).1 connectionId
      (freshEvents (s.journalState connectionId).cursor incoming)
      (reached (s.journalState connectionId).cursor incoming) := by
  rcases appendEvents_cases org incoming with ⟨-, heq⟩ | ⟨hsame, heq, -⟩ | ⟨-, heq⟩ |
      ⟨-, -, -, ⟨pending, hsync, hfrs, hoth⟩, -⟩
  · rw [heq] at h
    cases h
  · rw [heq, freshEvents_of_reached hsame, hsame]
    exact ⟨(append_nil _).symm, rfl, fun _ _ => ⟨rfl, rfl⟩⟩
  · rw [heq] at h
    cases h
  refine ⟨hfrs, ?_, fun other hne => ⟨hoth other hne, ?_⟩⟩
  · rw [journalState, hsync, if_pos rfl]
    rfl
  · rw [hsync, if_neg hne]

lemma appendEvents_duplicates
    (h : ∀ entry ∈ incoming, ¬ Beyond (s.journalState connectionId).cursor entry) :
    (s.appendEvents org connectionId incoming).1 = s := by
  unfold appendEvents
  split
  · rfl
  split
  · rfl
  rename_i hchain
  have hreach := congrArg Prod.fst (chain_eq_some.mp hchain).2
  dsimp only at hreach ⊢
  rw [if_pos (hreach.trans (reached_of_duplicates h))]

end Contract

/-- Every state that calls of the store reach keeps the contract of the journal. -/
theorem journalContract_of_run (org : OrgJson) (ops : List FrameOp) :
    JournalContract org (exec (frameStep org) {} ops) := by
  have hkept := WellKept.exec org ops
  refine ⟨hkept, ⟨hkept.counters_le, hkept.removed_le⟩, fun id incoming h => ?_,
    fun id incoming h => appendEvents_duplicates h, fun id incoming h => appendEvents_stores h,
    fun id incoming cursor last h hcurs hinc hlast hlt => ?_⟩
  · unfold appendEvents
    split
    · subst incoming
      exact absurd (by intro front entry back hsplit; simp at hsplit) h
    · cases hchain : chain _ incoming with
      | none => rfl
      | some r => exact absurd (chain_eq_some.mp hchain).1 h
  have hstores := appendEvents_stores h
  rw [hcurs, freshEvents_of_increasing cursor hinc, reached_of_increasing hinc hlast hlt]
    at hstores
  exact hstores

/-- An entry beyond the stored cursor is a duplicate behind an entry that passed it. -/
theorem passed_entry_not_stored :
    ¬ ∀ (org : OrgJson) (ops : List FrameOp) (connectionId : String)
      (incoming : List IncomingJournalEntry) (cursor : Int) (last : IncomingJournalEntry),
      ((exec (frameStep org) {} ops).appendEvents org connectionId incoming).2.status = .committed →
      ((exec (frameStep org) {} ops).journalState connectionId).cursor = some cursor →
      incoming.getLast? = some last → cursor < last.cursor →
      Stores (exec (frameStep org) {} ops)
        ((exec (frameStep org) {} ops).appendEvents org connectionId incoming).1 connectionId
        ((incoming.filter (fun entry => decide (cursor < entry.cursor))).filterMap
          IncomingJournalEntry.event?)
        (some last.cursor) := by
  intro h
  have hstores := h ⟨fun _ => none, fun _ => ""⟩ [.storeSnapshot "home" 4 "[]"] "home"
    [.advance 10 4, .event ⟨7, 4, "{}", none⟩] 4 (.event ⟨7, 4, "{}", none⟩) (by decide)
    (by decide) rfl (by decide)
  exact absurd hstores.cursor (by decide)

end CodeWide.Device
