import CodeWide.Index.ScanRun

/-!
# Pages of turns, cold and indexed

The page scans of `scan.rs` feed a visitor of their own to the reverse scan.
-/

namespace CodeWide.Index

open Lib Lib.Saturating List

/-- A session file, and after which of its records a batch was full when it was indexed.
Offsets are 64-bit. -/
structure SessionFile where
  records : List (Record × Bool)
  fits : durableBytes (records.map Prod.fst) ≤ max64

namespace SessionFile

def durable (f : SessionFile) : Nat := durableBytes (f.records.map Prod.fst)

def newestFirst (f : SessionFile) : List Placed := (placed (f.records.map Prod.fst)).2

def index (f : SessionFile) : IndexStore := indexFile f.records

def visited (f : SessionFile) (fileEnd : FileEnd) : List TurnRef :=
  Index.visited fileEnd f.durable f.newestFirst

def scanTailTurns (f : SessionFile) (fileEnd : FileEnd) (beforeOffset : Option Nat)
    (limit : Nat) : List TurnRef :=
  let searchEnd := min (beforeOffset.getD f.durable) f.durable
  if limit = 0 ∨ searchEnd = 0 then []
  else
    visitLogicalTurnsReverse
      (fun turns turn =>
        let turns := if turn.startOffset < searchEnd then turns ++ [turn] else turns
        (turns, decide (turns.length < limit)))
      fileEnd f.durable f.newestFirst []

/-- The visitor of `scan_turns_after`; the queue holds the newest turns first. -/
def visitAfter (anchorId : String) (limit : Nat) (acc : Bool × List TurnRef) (turn : TurnRef) :
    (Bool × List TurnRef) × Bool :=
  let (found, newer) := acc
  if turn.id = anchorId then ((decide (turn.endOffset ≠ 0), newer), false)
  else if turn.endOffset ≠ 0 ∧ 0 < limit then
    ((found, (if newer.length = limit then newer.tail else newer) ++ [turn]), true)
  else ((found, newer), true)

def scanTurnsAfter (f : SessionFile) (anchorId : String) (limit : Nat) : Option (List TurnRef) :=
  let (found, newer) :=
    visitLogicalTurnsReverse (visitAfter anchorId limit) .live f.durable f.newestFirst (false, [])
  if found then some newer.reverse else none

def visitBefore (anchorId : String) (limit : Nat) (acc : Bool × List TurnRef) (turn : TurnRef) :
    (Bool × List TurnRef) × Bool :=
  let (found, turns) := acc
  if turn.id = anchorId then
    let found := decide (turn.endOffset ≠ 0)
    ((found, turns), found && decide (0 < limit))
  else
    let turns := if found = true ∧ turn.endOffset ≠ 0 then turns ++ [turn] else turns
    ((found, turns), !found || decide (turns.length < limit))

def scanTurnsBefore (f : SessionFile) (fileEnd : FileEnd) (anchorId : String) (limit : Nat) :
    Option (List TurnRef) :=
  let (found, turns) :=
    visitLogicalTurnsReverse (visitBefore anchorId limit) fileEnd f.durable f.newestFirst (false, [])
  if found then some turns else none

end SessionFile

lemma drain_tail {searchEnd limit : Nat} (turns acc : List TurnRef) (h : acc.length < limit) :
    (drain (fun turns turn =>
        let turns := if turn.startOffset < searchEnd then turns ++ [turn] else turns
        (turns, decide (turns.length < limit))) turns acc).1 =
      acc ++ (turns.filter fun t => decide (t.startOffset < searchEnd)).take
        (limit - acc.length) := by
  induction turns generalizing acc with
  | nil => simp [drain]
  | cons t turns ih =>
  obtain ⟨k, hk⟩ : ∃ k, limit - acc.length = k + 1 := ⟨limit - acc.length - 1, by omega⟩
  rw [drain]
  by_cases ht : t.startOffset < searchEnd
  · simp only [ht, if_true, filter_cons, decide_true, hk, take_succ_cons]
    by_cases hfull : (acc ++ [t]).length < limit
    · have hrest : limit - (acc ++ [t]).length = k := by
        rw [length_append, length_singleton]
        omega
      simp only [hfull, decide_true, ih _ hfull, hrest, append_assoc, singleton_append]
    have hzero : k = 0 := by
      rw [length_append, length_singleton] at hfull
      omega
    simp only [hfull, decide_false, hzero, take_zero]
  · simp only [ht, if_false, h, decide_true, filter_cons, decide_false, Bool.false_eq_true]
    exact ih acc h

lemma drain_before_miss {anchorId : String} {limit : Nat} {newer : List TurnRef}
    (h : ∀ t ∈ newer, t.id ≠ anchorId) :
    drain (SessionFile.visitBefore anchorId limit) newer (false, []) = ((false, []), true) := by
  induction newer with
  | nil => rfl
  | cons t newer ih =>
    obtain ⟨ht, hrest⟩ := forall_mem_cons.mp h
    simpa [drain, SessionFile.visitBefore, ht] using ih hrest

lemma drain_before_hit {anchorId : String} {limit : Nat} {older acc : List TurnRef}
    (hcl : ∀ t ∈ older, t.endOffset ≠ 0) (h : acc.length < limit) :
    (drain (SessionFile.visitBefore anchorId limit) older (true, acc)).1 =
      (true, acc ++ (older.filter fun t => decide (t.id ≠ anchorId)).take
        (limit - acc.length)) := by
  induction older generalizing acc with
  | nil => simp [drain]
  | cons t older ih =>
  obtain ⟨ht, hrest⟩ := forall_mem_cons.mp hcl
  obtain ⟨k, hk⟩ : ∃ k, limit - acc.length = k + 1 := ⟨limit - acc.length - 1, by omega⟩
  have hlim : 0 < limit := by omega
  rw [drain]
  by_cases hid : t.id = anchorId
  · simp only [SessionFile.visitBefore, hid, if_true, ht, ne_eq, not_false_eq_true, decide_true,
      hlim, Bool.and_self, filter_cons, not_true_eq_false, decide_false, Bool.false_eq_true,
      if_false]
    simpa only [ne_eq] using ih hrest h
  simp only [SessionFile.visitBefore, hid, if_false, ht, ne_eq, not_false_eq_true, and_self,
    if_true, Bool.not_true, Bool.false_or, filter_cons, decide_true, hk,
    take_succ_cons]
  by_cases hfull : (acc ++ [t]).length < limit
  · have hleft : limit - (acc ++ [t]).length = k := by
      rw [length_append, length_singleton]
      omega
    have hnext := ih hrest hfull
    simp only [hleft, append_assoc, singleton_append, ne_eq] at hnext
    simpa only [hfull, decide_true] using hnext
  have hzero : k = 0 := by
    rw [length_append, length_singleton] at hfull
    omega
  simp only [hfull, decide_false, hzero, take_zero]

lemma drain_after_miss {anchorId : String} {limit : Nat} {newer queue : List TurnRef}
    (h : ∀ t ∈ newer, t.id ≠ anchorId) (hq : queue.length ≤ limit) :
    drain (SessionFile.visitAfter anchorId limit) newer (false, queue) =
      ((false, (queue ++ newer.filter fun t => decide (t.endOffset ≠ 0)).drop
        (queue.length + (newer.filter fun t => decide (t.endOffset ≠ 0)).length - limit)), true) := by
  induction newer generalizing queue with
  | nil =>
    have hzero : queue.length - limit = 0 := by omega
    simp [drain, hzero]
  | cons t newer ih =>
  obtain ⟨ht, hrest⟩ := forall_mem_cons.mp h
  rw [drain]
  simp only [SessionFile.visitAfter, ht, if_false]
  by_cases hc : t.endOffset = 0
  · simp only [hc, ne_eq, not_true_eq_false, false_and, if_false, filter_cons, decide_false,
      Bool.false_eq_true]
    simpa only [ne_eq] using ih hrest hq
  simp only [hc, ne_eq, not_false_eq_true, true_and, filter_cons, decide_true, if_true]
  rcases Nat.eq_zero_or_pos limit with rfl | hlim
  · have hempty : queue = [] := length_eq_zero_iff.mp (by omega)
    subst hempty
    simp only [Nat.lt_irrefl, if_false]
    rw [ih hrest (Nat.le_refl _)]
    simp
  simp only [hlim, if_true]
  by_cases hfull : queue.length = limit
  · cases queue with
    | nil =>
      simp only [length_nil] at hfull
      omega
    | cons q queue =>
    rw [length_cons] at hfull
    simp only [length_cons, hfull, if_true, tail_cons]
    rw [ih hrest (by rw [length_append, length_singleton]; omega)]
    generalize newer.filter _ = rest
    have hl : (queue ++ [t]).length + rest.length - limit = rest.length := by
      rw [length_append, length_singleton]
      omega
    have hr : limit + (rest.length + 1) - limit = rest.length + 1 := by omega
    rw [hl, hr, cons_append, drop_succ_cons, append_assoc, singleton_append]
  simp only [hfull, if_false]
  rw [ih hrest (by rw [length_append, length_singleton]; omega)]
  generalize newer.filter _ = rest
  have hl : (queue ++ [t]).length + rest.length - limit =
      queue.length + (t :: rest).length - limit := by
    rw [length_append, length_singleton, length_cons]
    omega
  rw [hl, append_assoc, singleton_append]

namespace SessionFile

variable {f : SessionFile}

lemma scanTailTurns_eq (fileEnd : FileEnd) (beforeOffset : Option Nat) (limit : Nat) :
    f.scanTailTurns fileEnd beforeOffset limit = ((f.visited fileEnd).filter fun t =>
        decide (t.startOffset < min (beforeOffset.getD f.durable) f.durable)).take limit := by
  rw [scanTailTurns]
  by_cases hlim : limit = 0
  · simp [hlim]
  by_cases hend : min (beforeOffset.getD f.durable) f.durable = 0
  · simp [hend]
  · rw [if_neg (by simp [hlim, hend]), visitLogicalTurnsReverse_eq]
    exact drain_tail _ [] (Nat.pos_of_ne_zero hlim)

lemma scanTurnsBefore_eq {newer older : List TurnRef} {anchor : TurnRef} (limit : Nat)
    (hsplit : f.visited .live = newer ++ anchor :: older)
    (hnew : ∀ t ∈ newer, t.id ≠ anchor.id) (hanch : anchor.endOffset ≠ 0)
    (hcl : ∀ t ∈ older, t.endOffset ≠ 0) :
    f.scanTurnsBefore .live anchor.id limit =
      some ((older.filter fun t => decide (t.id ≠ anchor.id)).take limit) := by
  have hscan : visitLogicalTurnsReverse (visitBefore anchor.id limit) .live f.durable f.newestFirst
      (false, []) = (true, (older.filter fun t => decide (t.id ≠ anchor.id)).take limit) := by
    rw [visitLogicalTurnsReverse_eq]
    change (drain _ (f.visited .live) _).1 = _
    rw [hsplit, drain_append, drain_before_miss hnew, if_pos rfl, drain]
    rcases Nat.eq_zero_or_pos limit with rfl | hlim
    · simp [visitBefore, hanch]
    · have hhit := @drain_before_hit anchor.id limit older [] hcl hlim
      simpa [visitBefore, hanch, hlim] using hhit
  simp [scanTurnsBefore, hscan]

lemma scanTurnsAfter_eq {newer older : List TurnRef} {anchor : TurnRef} (limit : Nat)
    (hsplit : f.visited .live = newer ++ anchor :: older)
    (hnew : ∀ t ∈ newer, t.id ≠ anchor.id) (hanch : anchor.endOffset ≠ 0) :
    f.scanTurnsAfter anchor.id limit =
      some ((newer.filter fun t => decide (t.endOffset ≠ 0)).reverse.take limit) := by
  have hscan : visitLogicalTurnsReverse (visitAfter anchor.id limit) .live f.durable f.newestFirst
      (false, []) = (true, (newer.filter fun t => decide (t.endOffset ≠ 0)).drop
        ((newer.filter fun t => decide (t.endOffset ≠ 0)).length - limit)) := by
    rw [visitLogicalTurnsReverse_eq]
    change (drain _ (f.visited .live) _).1 = _
    rw [hsplit, drain_append, drain_after_miss hnew (Nat.zero_le _), if_pos rfl, drain]
    simp [visitAfter, hanch]
  simp [scanTurnsAfter, hscan, take_reverse]

lemma start_of_mem_index {t : TurnRef} (ht : t ∈ f.index.newestFirst) :
    t.startOffset < f.durable := by
  rw [index, newestFirst_indexFile f.records f.fits] at ht
  obtain ⟨a, r, b, hsplit, hview⟩ := mem_timeline.mp ht
  rw [rowView_keyed _ _ _ _ hview]
  exact (placed_ordered f.fits).2.1 r (by rw [hsplit]; simp)

lemma scan_eq_filter (p : Nat → Bool) : (f.index.turns.scan p).map Prod.snd =
      (f.index.newestFirst.filter fun t => p t.startOffset).reverse := by
  have hkey : ∀ e ∈ f.index.turns.entries, p e.1 = p e.2.startOffset := fun e he => by
    have hget := (indexFile_get? f.records f.fits e.1 e.2).mp (Table.mem_entries_iff.mp he)
    rw [hget.1]
  rw [Table.scan, IndexStore.newestFirst, filter_reverse, reverse_reverse, filter_map]
  congr 1
  exact filter_congr hkey

lemma turnsDesc_eq (beforeOffset : Option Nat) (limit : Nat) :
    f.index.turnsDesc beforeOffset limit = (f.index.newestFirst.filter fun t =>
        decide (t.startOffset < min (beforeOffset.getD f.durable) f.durable)).take limit := by
  by_cases hlim : limit = 0
  · simp [IndexStore.turnsDesc, hlim]
  cases beforeOffset with
  | none =>
    rw [IndexStore.turnsDesc, if_neg (by simp [hlim])]
    dsimp only
    rw [scan_eq_filter, reverse_reverse]
    congr 1
    refine filter_congr fun t ht => ?_
    have hlt := start_of_mem_index ht
    have hfits : f.durable ≤ max64 := f.fits
    simp only [Option.getD_none, Nat.min_self, decide_eq_decide]
    omega
  | some b =>
  by_cases hb : b = 0
  · simp [IndexStore.turnsDesc, hb]
  rw [IndexStore.turnsDesc, if_neg (by simp [hlim, hb])]
  dsimp only
  rw [scan_eq_filter, reverse_reverse]
  congr 1
  refine filter_congr fun t ht => ?_
  have hlt := start_of_mem_index ht
  simp only [Option.getD_some, decide_eq_decide]
  omega

variable {newer older : List TurnRef} {anchor : TurnRef}

lemma starts_of_split (hsplit : f.index.newestFirst = newer ++ anchor :: older) :
    (∀ t ∈ newer, anchor.startOffset < t.startOffset) ∧
      ∀ t ∈ older, t.startOffset < anchor.startOffset := by
  have hsort := @sorted_newestFirst f.index fun o t ht =>
    ((indexFile_get? f.records f.fits o t).mp ht).1
  rw [hsplit] at hsort
  obtain ⟨-, hright, hcross⟩ := pairwise_append.mp hsort
  exact ⟨fun t ht => hcross t ht anchor mem_cons_self, (pairwise_cons.mp hright).1⟩

lemma turnsDesc_anchor (hsplit : f.index.newestFirst = newer ++ anchor :: older) (limit : Nat) :
    f.index.turnsDesc (some anchor.startOffset) limit = older.take limit := by
  obtain ⟨hnew, hold⟩ := starts_of_split hsplit
  have hanch := @start_of_mem_index f anchor (by rw [hsplit]; simp)
  have hmin : min anchor.startOffset f.durable = anchor.startOffset := by omega
  rw [turnsDesc_eq, Option.getD_some, hmin, hsplit, filter_append, filter_cons_of_neg (by simp)]
  have hnone : newer.filter (fun t => decide (t.startOffset < anchor.startOffset)) = [] :=
    filter_eq_nil_iff.mpr fun t ht => by
      have hlt := hnew t ht
      simp only [decide_eq_true_eq]
      omega
  have hall : older.filter (fun t => decide (t.startOffset < anchor.startOffset)) = older :=
    filter_eq_self.mpr fun t ht => decide_eq_true (hold t ht)
  rw [hnone, hall, nil_append]

lemma turnsAscAfter_anchor (hsplit : f.index.newestFirst = newer ++ anchor :: older)
    (limit : Nat) : f.index.turnsAscAfter anchor.startOffset limit = newer.reverse.take limit := by
  obtain ⟨hnew, hold⟩ := starts_of_split hsplit
  have hanch := @start_of_mem_index f anchor (by rw [hsplit]; simp)
  have hfits : f.durable ≤ max64 := f.fits
  have hadd : add64 anchor.startOffset 1 = anchor.startOffset + 1 := add64_of_le (by omega)
  by_cases hlim : limit = 0
  · simp [IndexStore.turnsAscAfter, hlim]
  rw [IndexStore.turnsAscAfter, if_neg (by simp only [not_or]; exact ⟨hlim, by omega⟩),
    scan_eq_filter, hadd, hsplit, filter_append, filter_cons_of_neg (by simp)]
  have hall : newer.filter (fun t => decide (anchor.startOffset + 1 ≤ t.startOffset)) = newer :=
    filter_eq_self.mpr fun t ht => decide_eq_true (hnew t ht)
  have hnone : older.filter (fun t => decide (anchor.startOffset + 1 ≤ t.startOffset)) = [] :=
    filter_eq_nil_iff.mpr fun t ht => by
      have hlt := hold t ht
      simp only [decide_eq_true_eq]
      omega
  rw [hall, hnone, append_nil]

/-- However the records were batched, the index holds the rows of `rowView`, and its pages go on
to both sides of any of them. -/
theorem index_of_any_batches (f : SessionFile) :
    f.index.newestFirst = timeline rowView f.newestFirst [] ∧
      (∀ g : SessionFile, g.records.map Prod.fst = f.records.map Prod.fst →
        g.index.newestFirst = f.index.newestFirst) ∧
      ∀ newer anchor older, f.index.newestFirst = newer ++ anchor :: older → ∀ limit,
        f.index.turnsDesc (some anchor.startOffset) limit = older.take limit ∧
        f.index.turnsAscAfter anchor.startOffset limit = newer.reverse.take limit := by
  have hrows (f : SessionFile) : f.index.newestFirst = timeline rowView f.newestFirst [] :=
    newestFirst_indexFile f.records f.fits
  refine ⟨hrows f, fun g hsame => ?_, fun newer anchor older hsplit limit =>
    ⟨turnsDesc_anchor hsplit limit, turnsAscAfter_anchor hsplit limit⟩⟩
  rw [hrows, hrows, newestFirst, hsame]
  rfl

end SessionFile

end CodeWide.Index
