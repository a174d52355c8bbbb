import CodeWide.Index.Pages

/-!
# Where the cold scan and the index agree

The reverse scan closes a start by the first terminal after it, and shows a standalone record behind
which some terminal is.
-/

namespace CodeWide.Index

open Lib Lib.Saturating List Option Placed

def Placed.terminal? (r : Placed) : Option (String × Nat × Bool) :=
  match r.line with
  | .boundary (.terminal turnId completed) => some (turnId, r.stop, completed)
  | _ => none

def stretch (newer : List Placed) : List Placed := newer.takeWhile fun r => !r.isStart

def firstTerminal (newer : List Placed) : Option (String × Nat × Bool) :=
  (stretch newer).findSome? Placed.terminal?

/-- The first terminal before the next start that names the turn. -/
def matchingTerminal (id : String) (newer : List Placed) : Option (Nat × Bool) :=
  (stretch newer).findSome? fun r => (r.terminal?.filter fun t => decide (t.1 = id)).map Prod.snd

def nextStart (openEnd : Nat) (newer : List Placed) : Nat :=
  ((newer.find? Placed.isStart).map Placed.start).getD openEnd

/-- The terminal comes after that of another turn, and says more than that it was aborted. -/
def MisreadEnd (id : String) (newer : List Placed) : Prop :=
  ∃ turnId last end', firstTerminal newer = some (turnId, last) ∧ turnId ≠ id ∧
    matchingTerminal id newer = some end' ∧ end' ≠ (nextStart 0 newer, false)

/-- The id of the turn a record is, unless a rollback took it or it lies inside a turn. -/
def keptId (older newer : List Placed) (r : Placed) : Option String :=
  match r.line with
  | .boundary (.started id) => if survives 0 newer then some id else none
  | .standalone id => if (activeAfter older).isNone then some id else none
  | _ => none

/-- The files on which the two readings agree. -/
structure ReadsAlike (records : List Placed) : Prop where
  ends : ∀ newer r older id, records = newer ++ r :: older → r.line = .boundary (.started id) →
    survives 0 newer.reverse = true → ¬ MisreadEnd id newer.reverse
  standalones : ∀ newer r older id, records = newer ++ r :: older → r.line = .standalone id →
    afterTerminal older = (activeAfter older).isNone
  anchors : match activeAfter records with
    | none => (timeline keptId records []).Nodup
    | some turn => ∀ id ∈ timeline keptId records [], id = turn.id

def TurnRef.closedAt (durable : Nat) (t : TurnRef) : TurnRef :=
  if t.endOffset = 0 then { t with endOffset := durable } else t

/-- The reverse scan visits the rows of the index, and its pages are those of the index. -/
structure SessionFile.ScansAgree (f : SessionFile) : Prop where
  rows : f.visited .live = f.index.newestFirst
  frozen : f.visited .frozen = f.index.newestFirst.map (TurnRef.closedAt f.durable)
  tail : ∀ beforeOffset limit,
    f.scanTailTurns .live beforeOffset limit = f.index.turnsDesc beforeOffset limit
  before : ∀ newer anchor older, f.index.newestFirst = newer ++ anchor :: older →
    (∀ t ∈ newer, t.id ≠ anchor.id) → anchor.endOffset ≠ 0 → ∀ limit,
      f.scanTurnsBefore .live anchor.id limit =
        some (f.index.turnsDesc (some anchor.startOffset) limit)
  after : ∀ newer anchor older, f.index.newestFirst = newer ++ anchor :: older →
    (∀ t ∈ newer, t.id ≠ anchor.id) → anchor.endOffset ≠ 0 → ∀ limit,
      f.scanTurnsAfter anchor.id limit = some (f.index.turnsAscAfter anchor.startOffset limit)

lemma backwardOf_terminal (openEnd : Nat) (newer : List Placed) :
    (backwardOf openEnd newer).terminal = firstTerminal newer ∧
      (backwardOf openEnd newer).nextStart = nextStart openEnd newer := by
  induction newer with
  | nil => exact ⟨rfl, rfl⟩
  | cons x newer ih =>
  obtain ⟨hterm, hnext⟩ := ih
  simp only [firstTerminal, stretch, nextStart] at hterm hnext
  rcases hl : x.line with (⟨c⟩ | ⟨c, completed⟩ | count) | c | _
  · have hs : x.isStart = true := by simp [isStart, hl]
    simp [backwardOf, firstTerminal, stretch, nextStart, hl, hs, Backward.afterStart]
  · have hs : x.isStart = false := by simp [isStart, hl]
    have ht : x.terminal? = some (c, x.stop, completed) := by simp [terminal?, hl]
    simp [backwardOf, firstTerminal, stretch, nextStart, hl, hs, ht, hnext]
  all_goals
    have hs : x.isStart = false := by simp [isStart, hl]
    have ht : x.terminal? = none := by simp [terminal?, hl]
    simp [backwardOf, firstTerminal, stretch, nextStart, hl, hs, ht, hterm, hnext]

lemma turnEnd_of_survives {id : String} {newer : List Placed} (h : survives 0 newer = true) :
    turnEnd id newer = (matchingTerminal id newer).getD (nextStart 0 newer, false) := by
  induction newer with
  | nil => rfl
  | cons x newer ih =>
  rcases hl : x.line with (⟨c⟩ | ⟨c, completed⟩ | count) | c | _
  · have hs : x.isStart = true := by simp [isStart, hl]
    simp [turnEnd, matchingTerminal, stretch, nextStart, hl, hs]
  · have hs : x.isStart = false := by simp [isStart, hl]
    have ht : x.terminal? = some (c, x.stop, completed) := by simp [terminal?, hl]
    have hrest := ih (by simpa [survives, hl] using h)
    simp only [matchingTerminal, stretch, nextStart] at hrest
    by_cases hc : c = id <;>
      simp [turnEnd, matchingTerminal, stretch, nextStart, hl, hs, ht, hc, hrest, Option.filter]
  · have hs : x.isStart = false := by simp [isStart, hl]
    have ht : x.terminal? = none := by simp [terminal?, hl]
    have hz : count = 0 := by
      simp only [survives, hl, Bool.and_eq_true, decide_eq_true_eq] at h
      omega
    have hrest := ih (by simpa [survives, hl, hz] using h)
    simp only [matchingTerminal, stretch, nextStart] at hrest
    simp [turnEnd, matchingTerminal, stretch, nextStart, hl, hs, ht, hz, hrest]
  all_goals
    have hs : x.isStart = false := by simp [isStart, hl]
    have ht : x.terminal? = none := by simp [terminal?, hl]
    have hrest := ih (by simpa [survives, hl] using h)
    simp only [matchingTerminal, stretch, nextStart] at hrest
    simp [turnEnd, matchingTerminal, stretch, nextStart, hl, hs, ht, hrest]

/-- The first terminal is the matching one if it names the turn, and without a terminal there
is none that matches. -/
lemma matchingTerminal_of_first (id : String) (newer : List Placed) :
    (firstTerminal newer = none → matchingTerminal id newer = none) ∧
      ∀ last, firstTerminal newer = some (id, last) → matchingTerminal id newer = some last := by
  rw [firstTerminal, matchingTerminal]
  induction stretch newer with
  | nil => simp
  | cons x rest ih =>
  rcases ht : x.terminal? with _ | ⟨c, last⟩
  · simpa [findSome?_cons, ht] using ih
  · refine ⟨fun h => by simp [ht] at h, fun last' h => ?_⟩
    simp only [findSome?_cons, ht, some.injEq, Prod.mk.injEq] at h
    simp [ht, h.1, h.2, Option.filter]

lemma close_eq_turnEnd_iff {id : String} {newer : List Placed} (h : survives 0 newer = true) :
    (backwardOf 0 newer).close id = turnEnd id newer ↔ ¬ MisreadEnd id newer := by
  obtain ⟨hterm, hnext⟩ := backwardOf_terminal 0 newer
  obtain ⟨hnone, hsame⟩ := matchingTerminal_of_first id newer
  rw [turnEnd_of_survives h, Backward.close, hterm, hnext, MisreadEnd]
  rcases hfirst : firstTerminal newer with _ | ⟨c, last⟩
  · simp [hnone hfirst]
  by_cases hc : c = id
  · subst hc
    simp [hsame last hfirst]
  rcases hm : matchingTerminal id newer with _ | end'
  · simp [hc]
  simp only [hc, if_false, getD_some, some.injEq, Prod.mk.injEq, ne_eq]
  constructor
  · rintro he ⟨c', last', e, -, -, rfl, hne⟩
    exact hne he.symm
  · intro hno
    by_contra hne
    exact hno ⟨c, last, end', ⟨rfl, rfl⟩, hc, rfl, fun he => hne he.symm⟩

lemma start_lt_stop {records : List Record} {r : Placed} (hr : r ∈ (placed records).2) :
    r.start < r.stop := by
  induction records using reverseRecOn with
  | nil => exact absurd hr not_mem_nil
  | append_singleton records x ih =>
  rw [placed_concat] at hr
  rcases mem_cons.mp hr with rfl | hr
  · have hpos := x.durable
    simp only [Record.placeAt]
    omega
  · exact ih hr

lemma coldView_keyed (openEnd : Nat) :
    Keyed Placed.start TurnRef.startOffset (coldView openEnd) := by
  intro older newer r t ht
  unfold coldView at ht
  split at ht
  · split at ht
    · obtain rfl := some.inj ht
      rfl
    · exact absurd ht (some_ne_none _).symm
  · exact taskView_keyed openEnd _ _ _ _ ht

lemma keptId_eq (older newer : List Placed) (r : Placed) :
    keptId older newer r = (rowView older newer r).map TurnRef.id := by
  rcases hl : r.line with (⟨id⟩ | ⟨id, completed⟩ | count) | id | _ <;>
    simp only [keptId, rowView, hl, map_none]
  · split <;> rfl
  · split <;> rfl

section Turns

variable {older newer : List Placed} {r : Placed}

/-- The two readings agree unless the terminals after a start mislead the reverse scan. -/
lemma coldView_eq_rowView_iff (hlen : newer.length < max64) :
    coldView 0 older newer r = rowView older newer r ↔
      (∀ id, r.line = .boundary (.started id) → survives 0 newer = true → ¬ MisreadEnd id newer) ∧
        ∀ id, r.line = .standalone id → afterTerminal older = (activeAfter older).isNone := by
  rcases hl : r.line with (⟨id⟩ | ⟨id, completed⟩ | count) | id | _
  · have hcold : coldView 0 older newer r = taskView 0 older newer r := by simp only [coldView, hl]
    rw [hcold, taskView_started hl hlen]
    simp only [rowView, hl]
    by_cases hs : survives 0 newer = true
    · have hiff := @close_eq_turnEnd_iff id newer hs
      simp only [hs, if_true, Backward.turn, some.injEq, TurnRef.mk.injEq, true_and,
        Line.boundary.injEq, Boundary.started.injEq, forall_eq', forall_const, reduceCtorEq,
        false_imp_iff, and_true]
      rw [← hiff, Prod.ext_iff]
    · simp [hs]
  · simp [coldView, taskView, rowView, hl]
  · simp [coldView, taskView, rowView, hl]
  · simp only [coldView, rowView, hl]
    cases afterTerminal older <;> cases (activeAfter older).isNone <;> simp
  · simp [coldView, taskView, rowView, hl]

lemma backwardOf_skipped (openEnd openEnd' : Nat) (newer : List Placed) :
    (backwardOf openEnd newer).skipped = (backwardOf openEnd' newer).skipped := by
  induction newer with
  | nil => rfl
  | cons x newer ih =>
    rcases hl : x.line with (⟨c⟩ | ⟨c, completed⟩ | count) | c | _ <;>
      simp [backwardOf, hl, Backward.afterStart, ih]

lemma coldView_frozen {durable : Nat} (hr : r.start < r.stop)
    (hnewer : ∀ x ∈ newer, 0 < x.start ∧ 0 < x.stop) :
    coldView durable older newer r = (coldView 0 older newer r).map (TurnRef.closedAt durable) := by
  rcases hl : r.line with (⟨id⟩ | ⟨id, completed⟩ | count) | id | _
  · obtain ⟨hterm, hnext⟩ := backwardOf_terminal durable newer
    obtain ⟨hterm', hnext'⟩ := backwardOf_terminal 0 newer
    have hstop : ∀ c stop completed, firstTerminal newer = some (c, stop, completed) → 0 < stop := by
      intro c stop completed hfirst
      obtain ⟨x, hx, ht⟩ := exists_of_findSome?_eq_some hfirst
      have hxn : x ∈ newer := (takeWhile_sublist _).subset hx
      unfold terminal? at ht
      split at ht
      · obtain ⟨-, rfl, -⟩ := Prod.mk.inj (some.inj ht) |>.imp_right Prod.mk.inj
        exact (hnewer x hxn).2
      · exact absurd ht (some_ne_none _).symm
    have hopen : ((nextStart 0 newer = 0 ∧ nextStart durable newer = durable) ∨
        (0 < nextStart 0 newer ∧ nextStart durable newer = nextStart 0 newer)) := by
      rw [nextStart, nextStart]
      rcases hfind : newer.find? isStart with _ | x
      · exact .inl ⟨rfl, rfl⟩
      · exact .inr ⟨(hnewer x (mem_of_find?_eq_some hfind)).1, rfl⟩
    have hclose : ((backwardOf durable newer).turn id r.start) =
        ((backwardOf 0 newer).turn id r.start).closedAt durable := by
      simp only [Backward.turn, Backward.close, hterm, hterm', hnext, hnext', TurnRef.closedAt]
      rcases hfirst : firstTerminal newer with _ | ⟨c, stop, completed⟩
      · rcases hopen with ⟨h0, h1⟩ | ⟨h0, h1⟩
        · simp [h0, h1]
        · simp [h1, Nat.ne_of_gt h0]
      have hpos := hstop c stop completed hfirst
      by_cases hc : c = id
      · simp [hc, Nat.ne_of_gt hpos]
      · rcases hopen with ⟨h0, h1⟩ | ⟨h0, h1⟩
        · simp [hc, h0, h1]
        · simp [hc, h1, Nat.ne_of_gt h0]
    simp only [coldView, taskView, hl, backwardOf_skipped durable 0 newer, hclose]
    split <;> rfl
  · simp [coldView, taskView, hl]
  · simp [coldView, taskView, hl]
  · have hpos : r.stop ≠ 0 := by omega
    simp only [coldView, hl]
    split <;> simp [TurnRef.closedAt, hpos]
  · simp [coldView, taskView, hl]

lemma open_of_turnEnd_zero {id : String} (h : survives 0 newer = true)
    (hnewer : ∀ x ∈ newer, 0 < x.start ∧ 0 < x.stop) (hend : (turnEnd id newer).1 = 0) :
    ∀ x ∈ newer, x.closes id = false := by
  induction newer with
  | nil => exact fun x hx => absurd hx not_mem_nil
  | cons x newer ih =>
  obtain ⟨hx, hrest⟩ := forall_mem_cons.mp hnewer
  rw [forall_mem_cons]
  rcases hl : x.line with (⟨c⟩ | ⟨c, completed⟩ | count) | c | _
  · simp only [turnEnd, hl] at hend
    omega
  · by_cases hc : c = id
    · simp only [turnEnd, hl, hc, if_true] at hend
      omega
    · refine ⟨by simp [closes, hl, hc], ih (by simpa [survives, hl] using h) hrest ?_⟩
      simpa [turnEnd, hl, hc] using hend
  · have hz : count = 0 := by
      simp only [survives, hl, Bool.and_eq_true, decide_eq_true_eq] at h
      omega
    refine ⟨by simp [closes, hl, hz], ih (by simpa [survives, hl, hz] using h) hrest ?_⟩
    simpa [turnEnd, hl, hz] using hend
  all_goals
    refine ⟨by simp [closes, hl], ih (by simpa [survives, hl] using h) hrest ?_⟩
    simpa [turnEnd, hl] using hend

end Turns

namespace SessionFile

variable {f : SessionFile}

lemma index_eq (f : SessionFile) : f.index.newestFirst = timeline rowView f.newestFirst [] :=
  newestFirst_indexFile f.records f.fits

lemma ordered (f : SessionFile) : Ordered f.newestFirst f.durable := placed_ordered f.fits

variable {newer older : List Placed}

lemma length_lt_of_split {r : Placed}
    (hsplit : f.newestFirst = newer ++ r :: older) : newer.reverse.length < max64 := by
  have hle := f.ordered.2.2
  have hfits : f.durable ≤ max64 := f.fits
  rw [hsplit, length_append, length_cons] at hle
  rw [length_reverse]
  omega

lemma positive_of_split {r : Placed} (hsplit : f.newestFirst = newer ++ r :: older) :
    r.start < r.stop ∧ ∀ x ∈ newer.reverse, 0 < x.start ∧ 0 < x.stop := by
  have hmem : ∀ x ∈ newer ++ r :: older, x.start < x.stop := fun x hx =>
    start_lt_stop (hsplit ▸ hx : x ∈ f.newestFirst)
  have hord := f.ordered.1
  rw [hsplit] at hord
  obtain ⟨-, -, hcross⟩ := pairwise_append.mp hord
  refine ⟨hmem r (by simp), fun x hx => ?_⟩
  rw [mem_reverse] at hx
  have hlt := hcross x hx r mem_cons_self
  have hstop := hmem x (by simp [hx])
  omega

lemma rows_iff : f.visited .live = f.index.newestFirst ↔
      (∀ newer r older id, f.newestFirst = newer ++ r :: older →
        r.line = .boundary (.started id) → survives 0 newer.reverse = true →
          ¬ MisreadEnd id newer.reverse) ∧
      ∀ newer r older id, f.newestFirst = newer ++ r :: older → r.line = .standalone id →
        afterTerminal older = (activeAfter older).isNone := by
  rw [index_eq, visited, visited_eq]
  simp only [FileEnd.openEnd]
  rw [timeline_eq_iff (coldView_keyed 0) rowView_keyed f.ordered.1]
  simp only [append_nil]
  constructor
  · intro h
    have hboth := fun newer r older hsplit =>
      (coldView_eq_rowView_iff (length_lt_of_split hsplit)).mp (h newer r older hsplit)
    exact ⟨fun newer r older id hsplit => (hboth newer r older hsplit).1 id,
      fun newer r older id hsplit => (hboth newer r older hsplit).2 id⟩
  · rintro ⟨hends, halone⟩ newer r older hsplit
    exact (coldView_eq_rowView_iff (length_lt_of_split hsplit)).mpr
      ⟨fun id => hends newer r older id hsplit, fun id => halone newer r older id hsplit⟩

lemma visited_frozen : f.visited .frozen = (f.visited .live).map (TurnRef.closedAt f.durable) := by
  rw [visited, visited, visited_eq, visited_eq, map_timeline]
  refine timeline_congr fun newer r older hsplit => ?_
  obtain ⟨hr, hnewer⟩ := positive_of_split hsplit
  rw [append_nil]
  exact coldView_frozen hr hnewer

lemma active_of_open {t : TurnRef} (ht : t ∈ f.index.newestFirst) (hopen : t.endOffset = 0) :
    ∃ u, activeAfter f.newestFirst = some u ∧ u.startOffset = t.startOffset ∧ u.id = t.id := by
  rw [index_eq] at ht
  obtain ⟨newer, r, older, hsplit, hview⟩ := mem_timeline.mp ht
  rw [append_nil] at hview
  obtain ⟨hr, hnewer⟩ := positive_of_split hsplit
  rcases hl : r.line with (⟨id⟩ | ⟨id, completed⟩ | count) | id | _
  · simp only [rowView, hl] at hview
    split at hview
    · obtain rfl := some.inj hview
      have hnone := open_of_turnEnd_zero ‹_› hnewer hopen
      rw [hsplit, activeAfter_of_open hl fun y hy => hnone y (mem_reverse.mpr hy)]
      exact ⟨_, rfl, rfl, rfl⟩
    · exact absurd hview (some_ne_none _).symm
  · simp [rowView, hl] at hview
  · simp [rowView, hl] at hview
  · simp only [rowView, hl] at hview
    split at hview
    · obtain rfl := some.inj hview
      simp only at hopen
      omega
    · exact absurd hview (some_ne_none _).symm
  · simp [rowView, hl] at hview

lemma index_of_active {t : TurnRef} (ht : activeAfter f.newestFirst = some t) :
    ∃ older, f.index.newestFirst =
      { id := t.id, startOffset := t.startOffset, endOffset := 0, completed := false } :: older := by
  obtain ⟨r, hr, hline, hstart⟩ := activeAfter_mem ht
  obtain ⟨newer, older, hsplit⟩ := append_of_mem hr
  have hord := f.ordered.1
  rw [hsplit] at hord ht
  obtain ⟨-, hopen⟩ := open_of_active hord ht hstart.symm
  have hempty : timeline (fun o => rowView (o ++ r :: older)) newer [] = [] := by
    refine eq_nil_iff_forall_not_mem.mpr fun u hu => ?_
    obtain ⟨a, x, b, rfl, hview⟩ := mem_timeline.mp hu
    have hx := hopen x (by simp)
    have hacti := @activeAfter_of_open t.id r b older hline fun y hy =>
      hopen y (mem_append_right a (mem_cons_of_mem x hy))
    rcases hl : x.line with (⟨id⟩ | ⟨id, completed⟩ | count) | id | _
    · simp [closes, hl] at hx
    all_goals simp [rowView, hl, hacti] at hview
  refine ⟨timeline rowView older (r :: newer.reverse), ?_⟩
  rw [index_eq, hsplit, timeline_append, hempty, nil_append, timeline, append_nil,
    rowView_of_open hline hopen, hstart]
  rfl

lemma closed_of_active {t u : TurnRef} {older : List TurnRef}
    (ht : activeAfter f.newestFirst = some t)
    (hrows : f.index.newestFirst =
      { id := t.id, startOffset := t.startOffset, endOffset := 0, completed := false } :: older)
    (hu : u ∈ older) : u.endOffset ≠ 0 := by
  intro hopen
  have hmem : u ∈ f.index.newestFirst := by rw [hrows]; exact mem_cons_of_mem _ hu
  obtain ⟨v, hv, hstart, -⟩ := active_of_open hmem hopen
  obtain rfl := some.inj (ht.symm.trans hv)
  have hlt := (@starts_of_split f [] older _ hrows).2 u hu
  simp only at hlt
  omega

lemma keptIds_eq (f : SessionFile) :
    timeline keptId f.newestFirst [] = f.index.newestFirst.map TurnRef.id := by
  rw [index_eq, map_timeline]
  exact timeline_congr fun _ _ _ _ => keptId_eq _ _ _

lemma nodup_of_anchors {turns : List TurnRef}
    (h : ∀ newer t older, turns = newer ++ t :: older → (∀ u ∈ newer, u.id ≠ t.id) →
      ∀ u ∈ older, u.id ≠ t.id) : (turns.map TurnRef.id).Nodup := by
  induction turns with
  | nil => exact nodup_nil
  | cons x turns ih =>
  have hx : ∀ u ∈ turns, u.id ≠ x.id :=
    h [] x turns rfl fun u hu => absurd hu not_mem_nil
  rw [map_cons, nodup_cons]
  constructor
  · intro hmem
    obtain ⟨u, hu, he⟩ := mem_map.mp hmem
    exact hx u hu he
  · refine ih fun newer t older hsplit hnew => ?_
    refine h (x :: newer) t older (by rw [hsplit]; rfl) (forall_mem_cons.mpr ⟨?_, hnew⟩)
    exact fun he => hx t (by rw [hsplit]; simp) he.symm

lemma exists_newest {turns : List TurnRef} {u : TurnRef} (hu : u ∈ turns) :
    ∃ newer t older, turns = newer ++ t :: older ∧ t.id = u.id ∧ ∀ v ∈ newer, v.id ≠ u.id := by
  rcases hfind : turns.find? (fun t => decide (t.id = u.id)) with _ | t
  · exact absurd (find?_eq_none.mp hfind u hu) (by simp)
  · obtain ⟨hid, newer, older, hsplit, hnew⟩ := find?_eq_some_iff_append.mp hfind
    exact ⟨newer, t, older, hsplit, by simpa using hid, fun v hv => by simpa using hnew v hv⟩

lemma ScansAgree.anchors (h : f.ScansAgree) : match activeAfter f.newestFirst with
    | none => (timeline keptId f.newestFirst []).Nodup
    | some turn => ∀ id ∈ timeline keptId f.newestFirst [], id = turn.id := by
  rw [keptIds_eq]
  rcases hact : activeAfter f.newestFirst with _ | t
  · have hcl : ∀ u ∈ f.index.newestFirst, u.endOffset ≠ 0 := fun u hu hopen => by
      obtain ⟨v, hv, -⟩ := active_of_open hu hopen
      exact absurd (hact.symm.trans hv).symm (Option.some_ne_none _)
    -- a page before an anchor skips the older turns with the id of the anchor
    refine nodup_of_anchors fun newer anchor older hsplit hnew => ?_
    have hanch := hcl anchor (by rw [hsplit]; simp)
    have hpage := h.before newer anchor older hsplit hnew hanch older.length
    rw [scanTurnsBefore_eq older.length (h.rows.trans hsplit) hnew hanch fun u hu =>
      hcl u (by rw [hsplit]; simp [hu]), turnsDesc_anchor hsplit, take_length,
      take_of_length_le (length_filter_le _ _)] at hpage
    exact fun u hu => of_decide_eq_true (filter_eq_self.mp (Option.some.inj hpage) u hu)
  obtain ⟨rest, hrows⟩ := index_of_active hact
  intro id hid
  obtain ⟨u, hu, rfl⟩ := mem_map.mp hid
  by_contra hne
  obtain ⟨newer, anchor, older, hsplit, hsame, hnew⟩ := exists_newest hu
  cases newer with
  | nil =>
    obtain ⟨rfl, rfl⟩ := cons.inj (hrows.symm.trans hsplit)
    exact hne hsame.symm
  | cons v newer =>
  obtain ⟨rfl, hrest⟩ := cons.inj (hrows.symm.trans hsplit)
  have hanch : anchor.endOffset ≠ 0 := closed_of_active hact hrows (by rw [hrest]; simp)
  -- a page after an anchor leaves the open turn out
  have hpage := h.after _ anchor older hsplit (by rwa [hsame]) hanch (newer.length + 1)
  rw [scanTurnsAfter_eq _ (h.rows.trans hsplit) (by rwa [hsame]) hanch,
    turnsAscAfter_anchor hsplit] at hpage
  have hlen := congrArg (Option.map length) hpage
  simp only [Option.map_some, length_take, length_reverse, Option.some.injEq,
    filter_cons, ne_eq, not_true_eq_false, decide_false, Bool.false_eq_true, if_false,
    length_cons] at hlen
  have hle := length_filter_le (fun t : TurnRef => decide (¬ t.endOffset = 0)) newer
  omega

/-- The reverse scan and the index agree, in the turns and in their pages, exactly on the files
that read alike. -/
theorem scansAgree_iff (f : SessionFile) : f.ScansAgree ↔ ReadsAlike f.newestFirst := by
  constructor
  · intro h
    obtain ⟨hends, halone⟩ := rows_iff.mp h.rows
    exact { ends := hends, standalones := halone, anchors := h.anchors }
  intro h
  have hrows := rows_iff.mpr ⟨h.ends, h.standalones⟩
  -- the anchor is closed, so no turn is open and no two rows share an id
  have hanchors : ∀ {newer anchor older}, f.index.newestFirst = newer ++ anchor :: older →
      (∀ t ∈ newer, t.id ≠ anchor.id) → anchor.endOffset ≠ 0 →
      (∀ t ∈ f.index.newestFirst, t.endOffset ≠ 0) ∧ ∀ t ∈ older, t.id ≠ anchor.id := by
    intro newer anchor older hsplit hnew hanch
    have hids := h.anchors
    rw [keptIds_eq] at hids
    rcases hact : activeAfter f.newestFirst with _ | t
    · simp only [hact] at hids
      refine ⟨fun u hu hopen => ?_, fun u hu => ?_⟩
      · obtain ⟨v, hv, -⟩ := active_of_open hu hopen
        exact absurd (hact.symm.trans hv).symm (some_ne_none _)
      · rw [hsplit, map_append, map_cons, nodup_append, nodup_cons] at hids
        exact fun he => hids.2.1.1 (he ▸ mem_map_of_mem hu)
    simp only [hact] at hids
    obtain ⟨rest, hrest⟩ := index_of_active hact
    have hid : anchor.id = t.id := hids _ (mem_map_of_mem (by rw [hsplit]; simp))
    cases newer with
    | nil =>
      obtain ⟨rfl, -⟩ := cons.inj (hrest.symm.trans hsplit)
      exact absurd rfl hanch
    | cons v newer =>
    obtain ⟨rfl, -⟩ := cons.inj (hrest.symm.trans hsplit)
    have hne := hnew _ mem_cons_self
    exact absurd hid.symm hne
  exact {
    rows := hrows
    frozen := by rw [visited_frozen, hrows]
    tail := fun beforeOffset limit => by rw [scanTailTurns_eq, turnsDesc_eq, hrows]
    before := fun newer anchor older hsplit hnew hanch limit => by
      obtain ⟨hcl, hold⟩ := hanchors hsplit hnew hanch
      rw [scanTurnsBefore_eq limit (hrows.trans hsplit) hnew hanch fun u hu =>
        hcl u (by rw [hsplit]; simp [hu]), turnsDesc_anchor hsplit,
        filter_eq_self.mpr fun u hu => decide_eq_true (hold u hu)]
    after := fun newer anchor older hsplit hnew hanch limit => by
      obtain ⟨hcl, -⟩ := hanchors hsplit hnew hanch
      rw [scanTurnsAfter_eq limit (hrows.trans hsplit) hnew hanch, turnsAscAfter_anchor hsplit,
        filter_eq_self.mpr fun u hu => decide_eq_true (hcl u (by rw [hsplit]; simp [hu]))] }

/-- The turn `a` is aborted late: the terminal of another turn stands before its own. -/
def staleTerminal : SessionFile where
  records := [
    (⟨.boundary (.started "a"), 1, by decide⟩, false),
    (⟨.boundary (.terminal "b" false), 1, by decide⟩, false),
    (⟨.boundary (.terminal "a" true), 1, by decide⟩, false)]
  fits := by decide

/-- The reverse scan shows `a` as running, where the index has it completed. -/
theorem staleTerminal_misread : ¬ staleTerminal.ScansAgree := by
  intro h
  have hrows := h.rows
  have hcold : staleTerminal.visited .live = [⟨"a", 0, 0, false⟩] := by decide
  have hindex : staleTerminal.index.newestFirst = [⟨"a", 0, 3, true⟩] := by decide
  rw [hcold, hindex] at hrows
  exact absurd hrows (by decide)

end SessionFile

end CodeWide.Index
