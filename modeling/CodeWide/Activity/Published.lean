import CodeWide.Activity.Tracker

/-!
# What the tracker published

A device shows the last change published for a thread (`shown`).
-/

namespace CodeWide.Activity

open Lib List Table Option

def LiveActivityChange.activity : LiveActivityChange → Option LiveActivity
  | .set activity => some activity
  | .cleared => none

structure Feed where
  tracker : Tracker := ∅
  published : List (String × LiveActivityChange) := []

def publication (payload : Json) (change : Option LiveActivityChange) :
    List (String × LiveActivityChange) :=
  match target? payload, change with
  | some (_, _, threadId), some change => [(threadId, change)]
  | _, _ => []

def feed (f : Feed) (payload : Json) : Feed :=
  { tracker := (observe f.tracker payload).1
    published := f.published ++ publication payload (observe f.tracker payload).2 }

def Feed.lastChange (f : Feed) (threadId : String) : Option LiveActivityChange :=
  ((f.published.filter (fun e => decide (e.1 = threadId))).getLast?).map Prod.snd

def Feed.shown (f : Feed) (threadId : String) : Option LiveActivity :=
  (f.lastChange threadId).bind LiveActivityChange.activity

def activityOf (t : Tracker) (threadId : String) : Option LiveActivity :=
  (t.get? threadId).bind ThreadState.effective

structure Kept (s : ThreadState) : Prop where
  published : s.published = s.effective
  busy : s.isIdle = false

/-- The table is within its bound and keeps only such states. -/
structure Tidy (t : Tracker) : Prop where
  size : t.size ≤ maxTrackedThreads
  kept : ∀ threadId s, t.get? threadId = some s → Kept s

lemma tidy_empty : Tidy ∅ := ⟨Nat.zero_le _, fun _ _ h => nomatch h⟩

variable {t : Tracker}

lemma Tidy.makeRoom (h : Tidy t) (threadId : String) : Tidy (makeRoom t threadId) := by
  unfold Activity.makeRoom
  split
  · exact tidy_empty
  · exact h

variable {threadId : String}

lemma makeRoom_room (h : (makeRoom t threadId).get? threadId = none) :
    (makeRoom t threadId).size < maxTrackedThreads := by
  unfold makeRoom at h ⊢
  by_cases hfull : t.contains threadId = false ∧ maxTrackedThreads ≤ t.size
  · rw [if_pos hfull]
    decide
  rw [if_neg hfull] at h ⊢
  have huntr : t.contains threadId = false := by
    rw [Table.contains, h]
    rfl
  by_contra hsize
  exact hfull ⟨huntr, by omega⟩

lemma Tidy.settle (h : Tidy t)
    (hroom : t.get? threadId = none → t.size < maxTrackedThreads) (s : ThreadState) :
    Tidy (settle t threadId s).1 := by
  obtain ⟨hsize, hkept⟩ := h
  unfold Activity.settle
  dsimp only
  split
  · refine ⟨?_, fun id state hstate => ?_⟩
    · cases hget : t.get? threadId with
      | none =>
        rw [erase_of_none hget]
        exact hsize
      | some old =>
        have := size_erase_of_some hget
        omega
    exact hkept id state (of_get?_erase hstate).2
  rename_i hbusy
  refine ⟨?_, fun id state hstate => ?_⟩
  · cases hget : t.get? threadId with
    | none =>
      rw [size_insert_of_none _ hget]
      have := hroom hget
      omega
    | some old =>
      rw [size_insert_of_some _ hget]
      exact hsize
  rw [get?_insert] at hstate
  split at hstate
  · cases hstate
    exact ⟨rfl, eq_false_of_ne_true hbusy⟩
  · exact hkept id state hstate

lemma Tidy.observe (h : Tidy t) (payload : Json) : Tidy (observe t payload).1 := by
  unfold Activity.observe
  split
  · exact h
  · split
    · exact h
    · exact (h.makeRoom _).settle makeRoom_room _

lemma reduce_published (s : ThreadState) (signal : Signal) (params : Json) :
    (reduce s signal params).published = s.published := by
  cases signal with
  | turnStarted | turnCompleted | other => rfl
  | statusChanged | itemStarted | summaryPartAdded | planUpdated =>
    dsimp only [reduce]
    split <;> rfl
  | summaryTextDelta =>
    dsimp only [reduce, observeReasoningDelta, extendPart]
    split <;> rfl

lemma activityOf_settle (t : Tracker) (threadId id : String) (s : ThreadState) :
    activityOf (settle t threadId s).1 id =
      if id = threadId then s.effective else activityOf t id := by
  unfold settle activityOf
  dsimp only
  split
  · rename_i hidle
    rw [get?_erase]
    split
    · -- An idle state has published nothing, so it stands for nothing.
      unfold ThreadState.isIdle at hidle
      simp only [Bool.and_eq_true, isNone_iff_eq_none] at hidle
      exact hidle.1.1.1.symm
    · rfl
  · rw [get?_insert]
    split <;> rfl

/-- A notification publishes the difference between what is published and what the state stands for.
-/
lemma changeOf_activity (published next shown : Option LiveActivity) (h : shown = published) :
    ((changeOf published next).map LiveActivityChange.activity).getD shown = next := by
  unfold changeOf
  split
  · rename_i heq
    rw [heq]
    exact h
  · cases next <;> rfl

/-- A notification that empties the table to make room for its thread. -/
def Evicts (t : Tracker) (payload : Json) : Prop :=
  ∃ signal params threadId, target? payload = some (signal, params, threadId) ∧
    t.contains threadId = false ∧ startsTracking signal params = true ∧ maxTrackedThreads ≤ t.size

lemma makeRoom_of_tracked
    (h : ¬ (t.contains threadId = false ∧ maxTrackedThreads ≤ t.size)) : makeRoom t threadId = t :=
  if_neg h

lemma observe_cases (t : Tracker) (payload : Json) :
    observe t payload = (t, none) ∧ ¬ Evicts t payload ∨
      ∃ signal params threadId, target? payload = some (signal, params, threadId) ∧
        (t.contains threadId = true ∨ startsTracking signal params = true) ∧
        observe t payload = settle (makeRoom t threadId) threadId
          (reduce (((makeRoom t threadId).get? threadId).getD {}) signal params) := by
  unfold observe
  cases htgt : target? payload with
  | none =>
    refine .inl ⟨rfl, ?_⟩
    rintro ⟨signal, params, threadId, h, -⟩
    rw [htgt] at h
    cases h
  | some target =>
  obtain ⟨signal, params, threadId⟩ := target
  dsimp only
  by_cases hskip : t.contains threadId = false ∧ startsTracking signal params = false
  · rw [if_pos hskip]
    refine .inl ⟨rfl, ?_⟩
    rintro ⟨signal', params', threadId', h, -, hstart, -⟩
    rw [htgt] at h
    cases h
    rw [hskip.2] at hstart
    cases hstart
  rw [if_neg hskip]
  refine .inr ⟨signal, params, threadId, rfl, ?_, rfl⟩
  by_cases htrack : t.contains threadId = true
  · exact .inl htrack
  · refine .inr ?_
    by_contra hstart
    exact hskip ⟨eq_false_of_ne_true htrack, eq_false_of_ne_true hstart⟩

lemma lastChange_concat (f : Feed) (t : Tracker) (threadId id : String)
    (change : LiveActivityChange) :
    Feed.lastChange ⟨t, f.published ++ [(threadId, change)]⟩ id =
      if id = threadId then some change else f.lastChange id := by
  unfold Feed.lastChange
  dsimp only
  rw [filter_append]
  by_cases hid : id = threadId
  · subst hid
    rw [if_pos rfl, filter_cons_of_pos (by simp), filter_nil, getLast?_concat]
    rfl
  · rw [if_neg hid, filter_cons_of_neg (by simpa using Ne.symm hid), filter_nil, append_nil]

variable {f : Feed}

lemma lastChange_feed {payload params : Json} {signal : Signal}
    (h : target? payload = some (signal, params, threadId)) (id : String) :
    (feed f payload).lastChange id =
      if id = threadId then (observe f.tracker payload).2.or (f.lastChange id)
      else f.lastChange id := by
  unfold feed publication
  rw [h]
  cases hchg : (observe f.tracker payload).2 with
  | none =>
    dsimp only
    rw [append_nil, none_or, ite_self]
    rfl
  | some change =>
    dsimp only
    rw [lastChange_concat, some_or]

variable {payload : Json}

lemma feed_of_unchanged
    (h : observe f.tracker payload = (f.tracker, none)) : feed f payload = f := by
  unfold feed publication
  rw [h]
  cases htgt : target? payload with
  | none | some target => rw [append_nil]

def Agrees (f : Feed) : Prop := ∀ threadId, f.shown threadId = activityOf f.tracker threadId

/-- A notification that empties the table finds no activity in it. -/
def KeepsActivities (f : Feed) (payload : Json) : Prop :=
  Evicts f.tracker payload → ∀ threadId, activityOf f.tracker threadId = none

lemma shown_feed {payload params : Json} {signal : Signal}
    (htidy : Tidy f.tracker) (hagr : Agrees f)
    (htgt : target? payload = some (signal, params, threadId))
    (hobs : observe f.tracker payload = settle (makeRoom f.tracker threadId) threadId
      (reduce (((makeRoom f.tracker threadId).get? threadId).getD {}) signal params)) (id : String) :
    (feed f payload).shown id =
      if id = threadId then activityOf (feed f payload).tracker id else f.shown id := by
  have hafter : (feed f payload).tracker = (observe f.tracker payload).1 := rfl
  rw [hafter, hobs, activityOf_settle]
  unfold Feed.shown
  rw [lastChange_feed htgt, hobs]
  by_cases hid : id = threadId
  · subst hid
    rw [if_pos rfl, if_pos rfl, if_pos rfl]
    -- What the thread had published is what the devices show.
    have hshown : f.shown id =
        (reduce (((makeRoom f.tracker id).get? id).getD {}) signal params).published := by
      rw [reduce_published, hagr id]
      unfold activityOf makeRoom
      split
      · rename_i hfull
        have hnone : f.tracker.get? id = none := by
          have huntr := hfull.1
          rw [Table.contains, isSome_eq_false_iff, isNone_iff_eq_none] at huntr
          exact huntr
        rw [hnone]
        rfl
      · cases hget : f.tracker.get? id with
        | none => rfl
        | some s => exact (htidy.kept id s hget).published.symm
    have hchg := changeOf_activity _
      (reduce (((makeRoom f.tracker id).get? id).getD {}) signal params).effective _ hshown
    unfold settle
    dsimp only
    unfold Feed.shown at hchg
    cases hc : changeOf (reduce (((makeRoom f.tracker id).get? id).getD {}) signal params).published
        (reduce (((makeRoom f.tracker id).get? id).getD {}) signal params).effective with
    | none | some change =>
      rw [hc] at hchg
      exact hchg
  · rw [if_neg hid, if_neg hid]

/-- A notification keeps the devices right exactly when it empties no table with an
activity. -/
lemma agrees_feed (htidy : Tidy f.tracker) (hagr : Agrees f) :
    Agrees (feed f payload) ↔ KeepsActivities f payload := by
  rcases observe_cases f.tracker payload with ⟨hsame, hkeeps⟩ | ⟨signal, params, threadId, htgt,
    hhandled, hobs⟩
  · rw [feed_of_unchanged hsame]
    exact ⟨fun _ hevicts => absurd hevicts hkeeps, fun _ => hagr⟩
  have hshown := shown_feed htidy hagr htgt hobs
  have hact : ∀ id, id ≠ threadId → activityOf (feed f payload).tracker id =
      activityOf (makeRoom f.tracker threadId) id := by
    intro id hid
    change activityOf (observe f.tracker payload).1 id = _
    rw [hobs, activityOf_settle, if_neg hid]
  by_cases hfull : f.tracker.contains threadId = false ∧ maxTrackedThreads ≤ f.tracker.size
  · have hstart : startsTracking signal params = true := by
      rcases hhandled with htrack | hstart
      · rw [hfull.1] at htrack
        cases htrack
      · exact hstart
    have hroom : makeRoom f.tracker threadId = ∅ := if_pos hfull
    have huntr : activityOf f.tracker threadId = none := by
      have h := hfull.1
      rw [Table.contains, isSome_eq_false_iff, isNone_iff_eq_none] at h
      unfold activityOf
      rw [h]
      rfl
    constructor
    · intro hafter _ id
      by_cases hid : id = threadId
      · rw [hid]
        exact huntr
      · rw [← hagr id, ← (hshown id).trans (if_neg hid), hafter id, hact id hid, hroom]
        rfl
    intro hkeeps id
    rw [hshown id]
    split
    · rfl
    · rename_i hid
      rw [hact id hid, hroom, hagr id]
      exact hkeeps ⟨signal, params, threadId, htgt, hfull.1, hstart, hfull.2⟩ id
  constructor
  · rintro - ⟨signal', params', threadId', htgt', huntr, -, hsize⟩
    rw [htgt] at htgt'
    cases htgt'
    exact absurd ⟨huntr, hsize⟩ hfull
  intro _ id
  rw [hshown id]
  split
  · rfl
  · rename_i hid
    rw [hact id hid, makeRoom_of_tracked hfull, hagr id]

def Ends (payload : Json) (threadId : String) : Prop :=
  ∃ signal params, target? payload = some (signal, params, threadId) ∧
    (signal = .turnStarted ∨ signal = .turnCompleted ∨ signal = .statusChanged ∧
      (params.get? "status").bind (textField · "type") ≠ some "active")

/-- The devices show the effective activities, and the end of a thread's work clears them. -/
def Complete (payloads : List Json) : Prop :=
  ∀ before after, payloads = before ++ after →
    Agrees (exec feed {} before) ∧
      ∀ earlier payload threadId, before = earlier ++ [payload] → Ends payload threadId →
        ∀ change, (exec feed {} before).lastChange threadId = some change → change = .cleared

lemma tidy_run (payloads : List Json) : Tidy (exec feed {} payloads).tracker :=
  exec_invariant (P := fun f : Feed => Tidy f.tracker)
    (fun _ payload h => h.observe payload) tidy_empty payloads

lemma activityOf_of_ends
    (h : Ends payload threadId) : activityOf (observe t payload).1 threadId = none := by
  obtain ⟨signal, params, htgt, hends⟩ := h
  have hreset : ∀ s, reduce s signal params = s.reset := by
    intro s
    rcases hends with rfl | rfl | ⟨rfl, hst⟩
    · rfl
    · rfl
    · exact if_neg hst
  unfold observe
  rw [htgt]
  dsimp only
  split
  · rename_i hskip
    have h := hskip.1
    rw [Table.contains, isSome_eq_false_iff, isNone_iff_eq_none] at h
    unfold activityOf
    rw [h]
    rfl
  · rw [activityOf_settle, if_pos rfl, hreset]
    rfl

lemma cleared_of_ends
    {change : LiveActivityChange} (hagr : Agrees (feed f payload)) (hends : Ends payload threadId)
    (hlast : (feed f payload).lastChange threadId = some change) : change = .cleared := by
  have hshown := hagr threadId
  rw [Feed.shown, hlast] at hshown
  change change.activity = activityOf (observe f.tracker payload).1 threadId at hshown
  rw [activityOf_of_ends hends] at hshown
  cases change with
  | set activity => cases hshown
  | cleared => rfl

/-- What is published is complete exactly in runs that empty no table with an activity. -/
theorem published_complete_iff (payloads : List Json) :
    Complete payloads ↔ Always feed KeepsActivities {} payloads := by
  rw [← always_iff_forall_reached (P := Agrees) (T := fun f => Tidy f.tracker)
    (fun f payload h => h.observe payload) (fun f payload htidy => agrees_feed htidy)
    tidy_empty (fun _ => rfl)]
  constructor
  · exact fun h before after heq => (h before after heq).1
  intro h before after heq
  refine ⟨h before after heq, fun earlier payload threadId hsplit hends change hlast => ?_⟩
  subst hsplit
  have hagr := h _ after heq
  rw [exec_append] at hagr hlast
  exact cleared_of_ends hagr hends hlast

def searchStarted (threadId : String) : Json :=
  .ofFields [("method", .str "item/started"),
    ("params", .ofFields [("item", .ofFields [("type", .str "webSearch")]),
      ("threadId", .str threadId)])]

def numbered (n : Nat) : String := String.ofList (replicate n 'a')

def searches (n : Nat) : List Json := (range n).map (fun i => searchStarted (numbered i))

lemma numbered_inj {m n : Nat} (h : numbered m = numbered n) : m = n := by
  have hlen := congrArg (fun s => s.toList.length) h
  simpa [numbered] using hlen

lemma target?_searchStarted (threadId : String) :
    ∃ params, target? (searchStarted threadId) = some (.itemStarted, params, threadId) ∧
      params.get? "item" = some (.ofFields [("type", .str "webSearch")]) := by
  refine ⟨.ofFields [("item", .ofFields [("type", .str "webSearch")]),
    ("threadId", .str threadId)], ?_, ?_⟩
  · simp [target?, Json.method?, textField, searchStarted, Json.get?_ofFields, Json.lookupField,
      Json.asStr?, Signal.ofMethod]
  · simp [Json.get?_ofFields, Json.lookupField]

lemma observe_searchStarted (hnew : t.get? threadId = none) (hroom : t.size < maxTrackedThreads) :
    (observe t (searchStarted threadId)).1 =
      t.insert threadId { published := some .webSearch, current := some .webSearch } := by
  obtain ⟨params, htgt, hitem⟩ := target?_searchStarted threadId
  have htype : (Json.ofFields [("type", .str "webSearch")]).get? "type" = some (.str "webSearch") := by
    simp [Json.get?_ofFields, Json.lookupField]
  have hact : itemActivity (.ofFields [("type", .str "webSearch")]) = some .webSearch := by
    unfold itemActivity textField
    rw [htype]
    rfl
  have hstate : reduce {} .itemStarted params = { current := some .webSearch } := by
    dsimp only [reduce]
    rw [hitem, bind_some, bind_some, hact, textField, htype]
    exact if_neg (by decide)
  have hfree : makeRoom t threadId = t := makeRoom_of_tracked (fun h => by omega)
  have hstart : startsTracking .itemStarted params = true := by
    dsimp only [startsTracking]
    rw [hitem, bind_some, hact]
    rfl
  unfold observe
  rw [htgt]
  dsimp only
  rw [if_neg (by rw [hstart]; simp), hfree, hnew, getD_none, hstate]
  rfl

lemma tracker_searches {n : Nat} (hn : n ≤ maxTrackedThreads) :
    (exec feed {} (searches n)).tracker.size = n ∧
      ∀ threadId, (exec feed {} (searches n)).tracker.get? threadId =
        if ∃ i < n, threadId = numbered i then
          some { published := some .webSearch, current := some .webSearch }
        else none := by
  induction n with
  | zero => exact ⟨rfl, fun threadId => by rw [if_neg (by simp)]; rfl⟩
  | succ n ih =>
  obtain ⟨hsize, hget⟩ := ih (by omega)
  have hrun : exec feed {} (searches (n + 1)) =
      feed (exec feed {} (searches n)) (searchStarted (numbered n)) := by
    unfold searches
    rw [range_succ, map_append, exec_append]
    rfl
  have hnew : (exec feed {} (searches n)).tracker.get? (numbered n) = none := by
    rw [hget, if_neg]
    rintro ⟨i, hi, heq⟩
    have := numbered_inj heq
    omega
  have hafter : (exec feed {} (searches (n + 1))).tracker =
      (exec feed {} (searches n)).tracker.insert (numbered n)
        { published := some .webSearch, current := some .webSearch } := by
    rw [hrun]
    exact observe_searchStarted hnew (by omega)
  rw [hafter]
  refine ⟨by rw [size_insert_of_none _ hnew, hsize], fun threadId => ?_⟩
  rw [get?_insert, hget]
  by_cases hid : threadId = numbered n
  · rw [if_pos hid, if_pos ⟨n, by omega, hid⟩]
  rw [if_neg hid]
  refine if_congr ⟨?_, ?_⟩ rfl rfl
  · rintro ⟨i, hi, heq⟩
    exact ⟨i, by omega, heq⟩
  · rintro ⟨i, hi, heq⟩
    have hne : i ≠ n := fun h => hid (heq.trans (congrArg numbered h))
    exact ⟨i, by omega, heq⟩

/-- One search more than the table has places for: the devices go on showing the others. -/
theorem full_table_forgets : ¬ Complete (searches (maxTrackedThreads + 1)) := by
  intro hcomp
  have hsplit : searches (maxTrackedThreads + 1) =
      searches maxTrackedThreads ++ [searchStarted (numbered maxTrackedThreads)] := by
    unfold searches
    rw [range_succ, map_append]
    rfl
  obtain ⟨hsize, hget⟩ := tracker_searches (le_refl maxTrackedThreads)
  have hbef := (hcomp _ _ hsplit).1
  have hafter := (hcomp _ [] (append_nil _).symm).1
  rw [hsplit, exec_append] at hafter
  have hkeeps := (agrees_feed (tidy_run _) hbef).mp hafter
  obtain ⟨params, htgt, hitem⟩ := target?_searchStarted (numbered maxTrackedThreads)
  have hstart : startsTracking .itemStarted params = true := by
    dsimp only [startsTracking]
    rw [hitem]
    decide
  have hnew : (exec feed {} (searches maxTrackedThreads)).tracker.contains
      (numbered maxTrackedThreads) = false := by
    rw [Table.contains, hget, if_neg]
    · rfl
    · rintro ⟨i, hi, heq⟩
      have := numbered_inj heq
      omega
  have hnone := hkeeps ⟨.itemStarted, params, numbered maxTrackedThreads, htgt, hnew, hstart,
    by omega⟩ (numbered 0)
  rw [activityOf, hget, if_pos ⟨0, by decide, rfl⟩] at hnone
  cases hnone

end CodeWide.Activity
