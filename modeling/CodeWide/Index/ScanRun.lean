import CodeWide.Index.IndexRows
import Mathlib.Data.List.Induction
import Mathlib.Data.List.Nodup
import Mathlib.Data.List.Sort

/-!
# A forward scan in batches

After any records, in any batches, a read of the committed rows with the pending batch applied gives
the rows of `rowView` (`Scan.Rows`).
-/

namespace CodeWide.Index

open Lib Lib.Saturating List Table Scan IndexStore

/-- The row at `o` once one more row is written. -/
def putAt (o : Nat) (held : Option TurnRef) (t : TurnRef) : Option TurnRef :=
  if t.startOffset = o then some t else held

def Scan.removed (s : Scan) : List Nat := s.store.removedTurns ++ s.pending.removedTurns

def Scan.look (s : Scan) (o : Nat) : Option TurnRef :=
  if o ∈ s.removed then none else s.pending.turns.foldl (putAt o) (s.store.turns.get? o)

lemma foldl_putAt_of_ne {o : Nat} {turns : List TurnRef} {held : Option TurnRef}
    (h : ∀ t ∈ turns, t.startOffset ≠ o) : turns.foldl (putAt o) held = held := by
  induction turns generalizing held with
  | nil => rfl
  | cons t turns ih =>
    obtain ⟨ht, hrest⟩ := forall_mem_cons.mp h
    rw [foldl_cons, putAt, if_neg ht, ih hrest]

lemma foldl_removeTurn (store : IndexStore) (removed : List Nat) :
    (removed.foldl IndexStore.removeTurn store).removedTurns = store.removedTurns ++ removed ∧
      ∀ o, (removed.foldl IndexStore.removeTurn store).turns.get? o =
        if o ∈ removed then none else store.turns.get? o := by
  induction removed generalizing store with
  | nil => simp
  | cons r removed ih =>
  obtain ⟨hr, hget⟩ := ih (store.removeTurn r)
  refine ⟨by rw [foldl_cons, hr]; simp [removeTurn], fun o => ?_⟩
  rw [foldl_cons, hget]
  by_cases ho : o ∈ removed
  · simp [ho]
  · by_cases hor : o = r
    · simp [removeTurn, hor]
    · simp [removeTurn, ho, hor, get?_erase_of_ne]

lemma foldl_putTurn (store : IndexStore) (turns : List TurnRef) :
    (turns.foldl IndexStore.putTurn store).removedTurns = store.removedTurns ∧
      ∀ o, (turns.foldl IndexStore.putTurn store).turns.get? o =
        if o ∈ store.removedTurns then store.turns.get? o
        else turns.foldl (putAt o) (store.turns.get? o) := by
  induction turns generalizing store with
  | nil => simp
  | cons t turns ih =>
  obtain ⟨hr, hget⟩ := ih (store.putTurn t)
  have hrem : (store.putTurn t).removedTurns = store.removedTurns := by
    unfold putTurn
    split <;> rfl
  refine ⟨by rw [foldl_cons, hr, hrem], fun o => ?_⟩
  rw [foldl_cons, hget, hrem, foldl_cons]
  by_cases ht : t.startOffset ∈ store.removedTurns
  · have hsame : store.putTurn t = store := if_pos ht
    rw [hsame]
    by_cases ho : o ∈ store.removedTurns
    · simp [ho]
    · have hne : t.startOffset ≠ o := fun he => ho (he ▸ ht)
      simp [ho, putAt, hne]
  have hput : (store.putTurn t).turns = store.turns.insert t.startOffset t := by
    simp [putTurn, ht]
  rw [hput]
  by_cases ho : t.startOffset = o
  · subst ho
    simp [ht, putAt]
  · simp [putAt, ho, get?_insert_of_ne _ _ (Ne.symm ho)]

variable {s : Scan}

lemma Scan.look_commit
    (hclean : ∀ o ∈ s.store.removedTurns, s.store.turns.get? o = none) (o : Nat) :
    (s.store.commit s.pending).turns.get? o = s.look o ∧
      (s.store.commit s.pending).removedTurns = s.removed := by
  obtain ⟨hr, hget⟩ := foldl_removeTurn s.store s.pending.removedTurns
  obtain ⟨hr', hget'⟩ :=
    foldl_putTurn (s.pending.removedTurns.foldl IndexStore.removeTurn s.store) s.pending.turns
  refine ⟨?_, by rw [IndexStore.commit, hr', hr]; rfl⟩
  rw [IndexStore.commit, hget', hr, hget, look, removed]
  by_cases ho : o ∈ s.pending.removedTurns
  · simp [ho]
  · by_cases ho' : o ∈ s.store.removedTurns
    · simp [ho, ho', hclean o ho']
    · simp [ho, ho']

/-- The records read stand in the file one after the other. -/
def Ordered (seen : List Placed) (offset : Nat) : Prop :=
  seen.Pairwise (fun x y => y.start < x.start) ∧
    (∀ r ∈ seen, r.start < offset) ∧ seen.length ≤ offset

structure Scan.Rows (s : Scan) : Prop where
  ordered : Ordered s.seen s.offset
  active : s.activeTurn = activeAfter s.seen
  clean : ∀ o ∈ s.store.removedTurns, s.store.turns.get? o = none
  old : ∀ o ∈ s.removed, o < s.offset
  row : ∀ a r b, s.seen = a ++ r :: b → s.look r.start = rowView b a.reverse r
  absent : ∀ o, (∀ r ∈ s.seen, r.start ≠ o) → s.look o = none

lemma Scan.Rows.init : Scan.Rows {} where
  ordered := ⟨List.Pairwise.nil, fun r h => absurd h (not_mem_nil), Nat.le_refl _⟩
  active := rfl
  clean := fun _ _ => rfl
  old := fun o h => absurd h (not_mem_nil)
  row := fun a r b h => by simp at h
  absent := fun _ _ => rfl

lemma Scan.Rows.commit (h : s.Rows) : s.commit.Rows := by
  have hlook : ∀ o, s.commit.look o = s.look o := fun o => by
    obtain ⟨hget, hrem⟩ := Scan.look_commit h.clean o
    have hsame : s.commit.look o = if o ∈ s.removed then none else s.look o := by
      simp only [Scan.look, Scan.removed, Scan.commit, append_nil, foldl_nil, hget, hrem]
      rfl
    rw [hsame, Scan.look]
    split <;> rfl
  exact {
    ordered := h.ordered
    active := h.active
    clean := fun o ho => by
      obtain ⟨hget, hrem⟩ := Scan.look_commit h.clean o
      change o ∈ (s.store.commit s.pending).removedTurns at ho
      rw [hrem] at ho
      exact hget.trans (if_pos ho)
    old := fun o ho => h.old o (by
      obtain ⟨-, hrem⟩ := Scan.look_commit h.clean o
      simpa only [Scan.removed, Scan.commit, append_nil, hrem] using ho)
    row := fun a r b hsplit => (hlook r.start).trans (h.row a r b hsplit)
    absent := fun o ho => (hlook o).trans (h.absent o ho) }

/-- The rows that a record writes: those of the active turn and its own. -/
def written (active : Option TurnRef) (x : Placed) : List TurnRef :=
  match x.line with
  | .boundary (.started id) =>
    (active.map fun t => { t with endOffset := x.start }).toList ++
      [{ id := id, startOffset := x.start, endOffset := 0, completed := false }]
  | .boundary (.terminal turnId completed) =>
    ((active.filter fun t => decide (t.id = turnId)).map fun t =>
      { t with endOffset := x.stop, completed := completed }).toList
  | .standalone id =>
    if active.isNone then
      [{ id := id, startOffset := x.start, endOffset := x.stop, completed := true }]
    else []
  | _ => []

lemma Scan.read_eq (hacti : s.activeTurn = activeAfter s.seen) (r : Record) :
    (s.read r).activeTurn = activeAfter (r.placeAt s.offset :: s.seen) ∧ (s.read r).pending.turns =
        s.pending.turns ++ written s.activeTurn (r.placeAt s.offset) := by
  simp only [read, hacti]
  obtain ⟨line, length, durable⟩ := r
  rcases line with (⟨id⟩ | ⟨id, completed⟩ | count) | id | _ <;>
    rcases hact : activeAfter s.seen with _ | t
  · simp [updateTurnIndex, indexStandaloneTurn, Line.boundary?, Record.placeAt, activeAfter, written]
  · simp [updateTurnIndex, indexStandaloneTurn, Line.boundary?, Record.placeAt, activeAfter, written]
  · simp [updateTurnIndex, indexStandaloneTurn, Line.boundary?, Line.standalone?, Record.placeAt,
      activeAfter, written, hact]
  · by_cases hid : t.id = id <;>
      simp [updateTurnIndex, indexStandaloneTurn, Line.boundary?, Line.standalone?, Record.placeAt,
        activeAfter, written, hact, hid, Option.filter]
  · by_cases hc : 0 < count <;>
      simp [updateTurnIndex, indexStandaloneTurn, Line.boundary?, Line.standalone?, Record.placeAt,
        activeAfter, written, hact, hc]
  · by_cases hc : 0 < count <;>
      simp [updateTurnIndex, indexStandaloneTurn, Line.boundary?, Line.standalone?, Record.placeAt,
        activeAfter, written, hact, hc]
  all_goals
    simp [updateTurnIndex, indexStandaloneTurn, Line.boundary?, Line.standalone?, Record.placeAt,
      activeAfter, written, hact]

lemma Scan.look_read (hacti : s.activeTurn = activeAfter s.seen) (r : Record) (o : Nat) :
    (s.read r).look o = if o ∈ collectRollbackRemovals s.seen r.line.boundary? then none
      else if o ∈ s.removed then none
      else (written s.activeTurn (r.placeAt s.offset)).foldl (putAt o) (s.look o) := by
  have hrem : (s.read r).removed =
      s.removed ++ collectRollbackRemovals s.seen r.line.boundary? := by
    simp [removed, read]
  rw [look, hrem, (read_eq hacti r).2, foldl_append]
  by_cases hnew : o ∈ collectRollbackRemovals s.seen r.line.boundary?
  · simp [hnew]
  by_cases hold : o ∈ s.removed
  · simp [hold]
  · have hlook : s.look o = s.pending.turns.foldl (putAt o) (s.store.turns.get? o) := if_neg hold
    rw [hlook, if_neg hnew, if_neg hold, if_neg (by simp [hnew, hold])]
    rfl

lemma start_of_written {active : Option TurnRef} {x : Placed} {t : TurnRef}
    (ht : t ∈ written active x) :
    t.startOffset = x.start ∨ ∃ u, active = some u ∧ t.startOffset = u.startOffset := by
  unfold written at ht
  split at ht
  · rcases mem_append.mp ht with h | h
    · obtain ⟨u, hu, rfl⟩ := Option.map_eq_some_iff.mp (Option.mem_toList.mp h)
      exact .inr ⟨u, hu, rfl⟩
    · exact .inl (by rw [mem_singleton.mp h])
  · obtain ⟨u, hu, rfl⟩ := Option.map_eq_some_iff.mp (Option.mem_toList.mp ht)
    exact .inr ⟨u, (Option.filter_eq_some_iff.mp hu).1, rfl⟩
  · split at ht
    · exact .inl (by rw [mem_singleton.mp ht])
    · exact absurd ht not_mem_nil
  · exact absurd ht not_mem_nil

lemma written_new {seen : List Placed} {x : Placed} (hseen : ∀ r ∈ seen, r.start < x.start) :
    (written (activeAfter seen) x).foldl (putAt x.start) none = rowView seen [] x := by
  have hne : ∀ t, activeAfter seen = some t → t.startOffset ≠ x.start := fun t ht => by
    obtain ⟨r, hr, -, he⟩ := activeAfter_mem ht
    have hlt := hseen r hr
    omega
  rcases hl : x.line with (⟨id⟩ | ⟨id, completed⟩ | count) | id | _ <;>
    rcases hact : activeAfter seen with _ | t
  · simp [written, rowView, hl, putAt, survives, turnEnd]
  · simp [written, rowView, hl, putAt, survives, turnEnd]
  · simp [written, rowView, hl]
  · have ht := hne t hact
    by_cases hid : t.id = id <;> simp [written, rowView, hl, putAt, hid, ht, Option.filter]
  all_goals simp [written, rowView, hl, putAt, hact]

section Old

variable {a b : List Placed} {r x : Placed}

lemma eq_of_start_eq {records : List Placed} {y z : Placed}
    (hord : records.Pairwise fun u v => v.start < u.start) (hy : y ∈ records) (hz : z ∈ records)
    (h : y.start = z.start) : y = z := by
  have hnodup : (records.map Placed.start).Nodup :=
    pairwise_map.mpr (hord.imp fun hlt => (Nat.ne_of_lt hlt).symm)
  exact inj_on_of_nodup_map hnodup hy hz h

section

variable (hord : (a ++ r :: b).Pairwise fun y z => z.start < y.start)
include hord

lemma open_of_active {t : TurnRef}
    (ht : activeAfter (a ++ r :: b) = some t) (hstart : t.startOffset = r.start) :
    r.line = .boundary (.started t.id) ∧ ∀ y ∈ a, y.closes t.id = false := by
  obtain ⟨-, -, hab⟩ := pairwise_append.mp hord
  have hr : r.line = .boundary (.started t.id) := by
    obtain ⟨y, hy, hline, he⟩ := activeAfter_mem ht
    rwa [← eq_of_start_eq hord hy (by simp) (he.trans hstart)]
  refine ⟨hr, fun y hy => ?_⟩
  by_contra hc
  obtain ⟨z, hz, he⟩ := activeAfter_of_closed hr ⟨y, hy, by simpa using hc⟩ ht
  have hlt := hab z hz r mem_cons_self
  omega

lemma rowView_ne_none_of_active
    (h : ∃ t, activeAfter (a ++ r :: b) = some t ∧ t.startOffset = r.start) :
    rowView b a.reverse r ≠ none := by
  obtain ⟨t, ht, hstart⟩ := h
  obtain ⟨hr, hopen⟩ := open_of_active hord ht hstart
  rw [rowView_of_open hr hopen]
  exact Option.some_ne_none _

lemma written_old
    (hx : ∀ y ∈ a ++ r :: b, y.start < x.start) (hroll : ∀ count, x.line ≠ .boundary (.rollback count)) :
    (written (activeAfter (a ++ r :: b)) x).foldl (putAt r.start) (rowView b a.reverse r) =
      rowView b (a.reverse ++ [x]) r := by
  have hrx : r.start < x.start := hx r (by simp)
  by_cases hact : ∃ t, activeAfter (a ++ r :: b) = some t ∧ t.startOffset = r.start
  · obtain ⟨t, ht, hstart⟩ := hact
    obtain ⟨hr, hopen⟩ := open_of_active hord ht hstart
    rw [rowView_concat_of_open hr hopen hroll, rowView_of_open hr hopen]
    rw [activeAfter_of_open hr hopen]
    have hne : x.start ≠ r.start := by omega
    rcases hl : x.line with (⟨id⟩ | ⟨id, completed⟩ | count) | id | _
    · simp [written, hl, putAt, turnEnd, hne]
    · by_cases hid : t.id = id
      · simp [written, hl, putAt, turnEnd, hid, Option.filter]
      · simp [written, hl, turnEnd, hid, Ne.symm hid, Option.filter]
    · exact absurd hl (hroll count)
    all_goals simp [written, hl, turnEnd]
  have hne : ∀ t, activeAfter (a ++ r :: b) = some t → t.startOffset ≠ r.start :=
    fun t ht he => hact ⟨t, ht, he⟩
  rw [rowView_concat_of_inactive hroll hne]
  refine foldl_putAt_of_ne fun t ht => ?_
  rcases start_of_written ht with h | ⟨u, hu, h⟩
  · omega
  · rw [h]
    exact hne u hu

end

end Old

lemma Scan.Rows.row_new (h : s.Rows) (r : Record) :
    (s.read r).look s.offset = rowView s.seen [] (r.placeAt s.offset) := by
  have hseen : ∀ y ∈ s.seen, y.start < s.offset := h.ordered.2.1
  rw [look_read h.active, if_neg fun hm => ?_, if_neg fun hm => ?_,
    h.absent s.offset fun y hy => Nat.ne_of_lt (hseen y hy), h.active]
  · exact @written_new _ (r.placeAt s.offset) hseen
  · have hlt := h.old _ hm
    omega
  · obtain ⟨y, hy, -, he⟩ := mem_collectRollbackRemovals hm
    have hlt := hseen y hy
    omega

lemma Scan.Rows.row_old (h : s.Rows) (r : Record) (hlen : s.offset < max64)
    {a b : List Placed} {y : Placed} (hsplit : s.seen = a ++ y :: b) :
    (s.read r).look y.start = rowView b (a.reverse ++ [r.placeAt s.offset]) y := by
  have hord : (a ++ y :: b).Pairwise fun u v => v.start < u.start := hsplit ▸ h.ordered.1
  have hnew : ∀ z ∈ a ++ y :: b, z.start < s.offset := hsplit ▸ h.ordered.2.1
  have hcount : (a ++ y :: b).length < max64 := by
    have hle := h.ordered.2.2
    rw [hsplit] at hle
    omega
  have hrow := h.row a y b hsplit
  rw [look_read h.active, hrow]
  -- a removed row stays away
  have hgone : y.start ∈ s.removed → rowView b a.reverse y = none := fun hm =>
    hrow.symm.trans (if_pos hm)
  by_cases hroll : ∃ count, r.line = .boundary (.rollback count)
  · obtain ⟨count, hl⟩ := hroll
    have hx : (r.placeAt s.offset).line = .boundary (.rollback count) := hl
    have hwr : written s.activeTurn (r.placeAt s.offset) = [] := by simp [written, hx]
    have hb : r.line.boundary? = some (.rollback count) := by rw [hl]; rfl
    rw [rowView_concat_rollback hx, hwr, hb, foldl_nil]
    have hmem : y.start ∈ collectRollbackRemovals s.seen (some (.rollback count)) ↔
        y.isStart = true ∧ survives 0 a.reverse = true ∧ height 0 a.reverse < count := by
      rcases hy : y.line with (⟨id⟩ | ⟨id, completed⟩ | n) | id | _
      · rw [hsplit, mem_removals_iff hy hord hcount]
        simp [Placed.isStart, hy]
      all_goals
        simp only [Placed.isStart, hy, Bool.false_eq_true, false_and, iff_false]
        intro hm
        obtain ⟨z, hz, hstart, he⟩ := mem_collectRollbackRemovals hm
        have hzy : z = y := by
          rw [hsplit] at hz
          exact eq_of_start_eq hord hz (by simp) he
        simp [hzy, Placed.isStart, hy] at hstart
    simp only [hmem]
    split
    · rfl
    · split
      · exact (hgone ‹_›).symm
      · rfl
  have hroll' : ∀ count, (r.placeAt s.offset).line ≠ .boundary (.rollback count) :=
    fun count hl => hroll ⟨count, hl⟩
  have hnone : ¬ y.start ∈ collectRollbackRemovals s.seen r.line.boundary? := by
    rcases hl : r.line with (⟨id⟩ | ⟨id, completed⟩ | n) | id | _
    · simp [Line.boundary?, collectRollbackRemovals]
    · simp [Line.boundary?, collectRollbackRemovals]
    · exact absurd ⟨n, hl⟩ hroll
    all_goals simp [Line.boundary?, collectRollbackRemovals]
  rw [if_neg hnone, h.active, hsplit]
  split
  · have hw := written_old hord hnew hroll'
    rw [hgone ‹_›] at hw
    by_cases hact : ∃ t, activeAfter (a ++ y :: b) = some t ∧ t.startOffset = y.start
    · exact absurd (hgone ‹_›) (rowView_ne_none_of_active hord hact)
    · rw [rowView_concat_of_inactive hroll' fun t ht he => hact ⟨t, ht, he⟩]
      exact (hgone ‹_›).symm
  · exact written_old hord hnew hroll'

lemma Scan.Rows.read (h : s.Rows) (r : Record) (hlen : s.offset < max64) : (s.read r).Rows where
  ordered := by
    obtain ⟨hpair, hlt, hle⟩ := h.ordered
    have hpos := r.durable
    refine ⟨pairwise_cons.mpr ⟨hlt, hpair⟩, fun y hy => ?_, ?_⟩
    · change y.start < s.offset + r.length
      rcases mem_cons.mp hy with rfl | hy
      · change s.offset < s.offset + r.length
        omega
      · have hlt' := hlt y hy
        omega
    · change (_ :: s.seen).length ≤ s.offset + r.length
      rw [length_cons]
      omega
  active := (Scan.read_eq h.active r).1
  clean := h.clean
  old := fun o ho => by
    have hpos := r.durable
    change o < s.offset + r.length
    have hrem : (s.read r).removed =
        s.removed ++ collectRollbackRemovals s.seen r.line.boundary? := by
      simp [Scan.removed, Scan.read]
    rw [hrem] at ho
    rcases mem_append.mp ho with ho | ho
    · have hlt := h.old o ho
      omega
    · obtain ⟨y, hy, -, rfl⟩ := mem_collectRollbackRemovals ho
      have hlt := h.ordered.2.1 y hy
      omega
  row := fun a y b hsplit => by
    change r.placeAt s.offset :: s.seen = a ++ y :: b at hsplit
    cases a with
    | nil =>
      obtain ⟨rfl, rfl⟩ := cons.inj hsplit
      exact h.row_new r
    | cons z a =>
    obtain ⟨rfl, hrest⟩ := cons.inj hsplit
    rw [reverse_cons]
    exact h.row_old r hlen hrest
  absent := fun o ho => by
    have ho' : ∀ y ∈ s.seen, y.start ≠ o := fun y hy => ho y (mem_cons_of_mem _ hy)
    rw [Scan.look_read h.active, h.absent o ho', foldl_putAt_of_ne fun t ht => ?_, ite_self, ite_self]
    rcases start_of_written ht with he | ⟨u, hu, he⟩
    · rw [he]
      exact ho _ mem_cons_self
    · obtain ⟨y, hy, -, hstart⟩ := activeAfter_mem (h.active ▸ hu)
      rw [he, ← hstart]
      exact ho' y hy

lemma placed_concat (records : List Record) (r : Record) : placed (records ++ [r]) =
      ((placed records).1 + r.length, r.placeAt (placed records).1 :: (placed records).2) := by
  simp [placed, foldl_append]

lemma placed_fst (records : List Record) : (placed records).1 = durableBytes records := by
  induction records using reverseRecOn with
  | nil => rfl
  | append_singleton records r ih => simp [placed_concat, ih, durableBytes]

variable (records : List (Record × Bool))

lemma rows_of_run (hfits : durableBytes (records.map Prod.fst) ≤ max64) :
    (records.foldl Scan.step {}).Rows ∧
      ((records.foldl Scan.step {}).offset, (records.foldl Scan.step {}).seen) =
        placed (records.map Prod.fst) := by
  induction records using reverseRecOn with
  | nil => exact ⟨Scan.Rows.init, rfl⟩
  | append_singleton records e ih =>
  have hsum : durableBytes ((records ++ [e]).map Prod.fst) =
      durableBytes (records.map Prod.fst) + e.1.length := by simp [durableBytes]
  have hpos := e.1.durable
  rw [hsum] at hfits
  obtain ⟨hrows, hplace⟩ := ih (by omega)
  have hoff : (records.foldl step {}).offset = durableBytes (records.map Prod.fst) := by
    rw [← placed_fst, ← hplace]
  have hread := hrows.read e.1 (by omega)
  have hstep : (((records ++ [e]).foldl step {}).offset, ((records ++ [e]).foldl step {}).seen) =
        (((records.foldl step {}).read e.1).offset, ((records.foldl step {}).read e.1).seen) := by
    rw [foldl_append, foldl_cons, foldl_nil, step]
    split <;> rfl
  constructor
  · rw [foldl_append, foldl_cons, foldl_nil, step]
    split
    · exact hread.commit
    · exact hread
  · rw [hstep, map_append, map_singleton, placed_concat, ← hplace]
    rfl

lemma rowView_keyed : Keyed Placed.start TurnRef.startOffset rowView := by
  intro older newer r t ht
  unfold rowView at ht
  split at ht
  · split at ht
    · obtain rfl := Option.some.inj ht
      rfl
    · exact absurd ht (Option.some_ne_none _).symm
  · split at ht
    · obtain rfl := Option.some.inj ht
      rfl
    · exact absurd ht (Option.some_ne_none _).symm
  · exact absurd ht (Option.some_ne_none _).symm

lemma placed_ordered {records : List Record} (hfits : durableBytes records ≤ max64) :
    Ordered (placed records).2 (durableBytes records) := by
  have hid : (records.map fun r => (r, false)).map Prod.fst = records := by
    simp only [map_map, Function.comp_def, map_id']
  obtain ⟨hrows, hplace⟩ := rows_of_run (records.map fun r => (r, false)) (by rw [hid]; exact hfits)
  rw [hid] at hplace
  have hord := hrows.ordered
  rw [← placed_fst, ← hplace]
  exact hord

lemma indexFile_get? (hfits : durableBytes (records.map Prod.fst) ≤ max64) (o : Nat) (t : TurnRef) :
    (indexFile records).turns.get? o = some t ↔
      t.startOffset = o ∧ t ∈ timeline rowView (placed (records.map Prod.fst)).2 [] := by
  obtain ⟨hrows, hplace⟩ := rows_of_run records hfits
  have hget : (indexFile records).turns.get? o = (records.foldl step {}).look o :=
    (look_commit hrows.clean o).1
  rw [hget, ← hplace, mem_timeline]
  constructor
  · intro hsome
    by_cases hin : ∃ r ∈ (records.foldl step {}).seen, r.start = o
    · obtain ⟨r, hr, rfl⟩ := hin
      obtain ⟨a, b, hsplit⟩ := append_of_mem hr
      rw [hrows.row a r b hsplit] at hsome
      exact ⟨rowView_keyed _ _ _ _ hsome, a, r, b, hsplit, by simpa using hsome⟩
    · rw [hrows.absent o fun r hr he => hin ⟨r, hr, he⟩] at hsome
      exact absurd hsome (Option.some_ne_none _).symm
  · rintro ⟨rfl, a, r, b, hsplit, hview⟩
    rw [append_nil] at hview
    rw [rowView_keyed _ _ _ _ hview, hrows.row a r b hsplit, hview]

lemma sorted_newestFirst {store : IndexStore}
    (hkey : ∀ o t, store.turns.get? o = some t → t.startOffset = o) :
    store.newestFirst.Pairwise fun t u => u.startOffset < t.startOffset := by
  rw [newestFirst, pairwise_reverse, pairwise_map]
  refine store.turns.sorted.imp_of_mem fun {e f} he hf hlt => ?_
  rw [hkey e.1 e.2 (mem_entries_iff.mp he), hkey f.1 f.2 (mem_entries_iff.mp hf)]
  exact hlt

lemma mem_newestFirst {store : IndexStore} {t : TurnRef} :
    t ∈ store.newestFirst ↔ ∃ o, store.turns.get? o = some t := by
  simp only [newestFirst, mem_reverse, mem_map]
  constructor
  · rintro ⟨⟨o, u⟩, he, rfl⟩
    exact ⟨o, mem_entries_iff.mp he⟩
  · rintro ⟨o, ho⟩
    exact ⟨(o, t), mem_entries_iff.mpr ho, rfl⟩

lemma newestFirst_indexFile (hfits : durableBytes (records.map Prod.fst) ≤ max64) :
    (indexFile records).newestFirst = timeline rowView (placed (records.map Prod.fst)).2 [] := by
  have hget := indexFile_get? records hfits
  have hirrefl : Std.Irrefl fun t u : TurnRef => u.startOffset < t.startOffset :=
    ⟨fun t => Nat.lt_irrefl _⟩
  have hleft := sorted_newestFirst fun o t ht => ((hget o t).mp ht).1
  have hright := @timeline_pairwise _ _ _ _ _ _ [] rowView_keyed (placed_ordered hfits).1
  have hanti : Std.Antisymm fun t u : TurnRef => u.startOffset < t.startOffset :=
    ⟨fun t u h h' => absurd h' (Nat.lt_asymm h)⟩
  refine List.Pairwise.eq_of_mem_iff hleft hright fun t => ?_
  rw [mem_newestFirst]
  exact ⟨fun ⟨o, ho⟩ => ((hget o t).mp ho).2, fun h => ⟨t.startOffset, (hget _ t).mpr ⟨rfl, h⟩⟩⟩

end CodeWide.Index
