import CodeWide.Sync.QueueReplay

/-!
# Moves executed twice

A placement is idempotent: a command that stands where it was to go is not written
(`outboxPlace_unchanged_iff`).
-/

namespace CodeWide.Sync

open Lib Store List Option Idempotent

/-- The rows are under their ids with distinct orders, and the order counter is not used up. -/
structure WellOrdered (table : Outbox) : Prop where
  keyed : Keyed table
  distinct : DistinctOrders table
  below : CounterBelowMax table

section Placing

variable {table table' : Outbox} {now now' : Nat} {c : String} {before : Option String}
  {changed : Bool} {selected x y : OutboxCommand} {front back : List OutboxCommand}

lemma filter_others (hnodup : ((front ++ selected :: back).map (·.commandId)).Nodup) :
    (front ++ selected :: back).filter
      (fun row => decide (row.commandId ≠ selected.commandId)) = front ++ back := by
  rw [map_append, map_cons] at hnodup
  obtain ⟨-, hback, hdisjoint⟩ := nodup_append.mp hnodup
  have hfront : front.filter (fun row => decide (row.commandId ≠ selected.commandId)) = front := by
    refine filter_eq_self.mpr (fun row hrow => decide_eq_true ?_)
    exact hdisjoint _ (mem_map_of_mem hrow) _ mem_cons_self
  have hrest : back.filter (fun row => decide (row.commandId ≠ selected.commandId)) = back := by
    refine filter_eq_self.mpr (fun row hrow => decide_eq_true (fun heq => ?_))
    exact (nodup_cons.mp hback).1 (heq ▸ mem_map_of_mem hrow)
  rw [filter_append, filter_cons_of_neg (by simp), hfront, hrest]

lemma placeIndex_head (hnodup : ((front ++ back).map (·.commandId)).Nodup) :
    placeIndex (front ++ back) (back.map (·.commandId)).head? = .ok front.length := by
  cases back with
  | nil =>
    rw [append_nil]
    rfl
  | cons row rest =>
  have hindex := findIdx?_split rfl hnodup
  unfold placeIndex
  rw [map_cons, head?_cons]
  dsimp only
  rw [hindex]

lemma foldl_placeSlot_own (l : List OutboxCommand) (acc : Outbox × Bool) :
    (l.zip (l.map (·.order))).foldl (placeSlot now) acc = acc := by
  induction l with
  | nil => rfl
  | cons row rest ih =>
  rw [map_cons, zip_cons_cons, foldl_cons]
  have hsame : placeSlot now acc (row, row.order) = acc := if_neg (not_not.mpr rfl)
  rw [hsame, ih]

lemma outboxPlace_inPlace (hkeyed : Keyed table)
    (hget : table.get? selected.commandId = some selected) (hstate : selected.state = .queued)
    (hqueue : placeSiblings table selected = front ++ selected :: back) :
    outboxPlace table now selected.commandId (back.map (·.commandId)).head? =
      .ok (table, false) := by
  have hids := nodup_placeSiblings hkeyed selected
  rw [hqueue] at hids
  have hoth := filter_others hids
  have hrest : ((front ++ back).map (·.commandId)).Nodup := by
    rw [← hoth]
    exact hids.sublist (filter_sublist.map _)
  unfold outboxPlace
  rw [find?_rows hkeyed, hget]
  have hedit : ensureOutboxEditable selected = .ok () := if_neg (not_not.mpr hstate)
  dsimp only [Bind.bind, Except.bind]
  rw [hedit, hqueue]
  dsimp only
  rw [hoth, placeIndex_head hrest]
  dsimp only
  rw [insertIdx_length_append, foldl_placeSlot_own]

lemma exists_row_of_ids {l : List OutboxCommand} {f b : List String}
    (h : l.map (·.commandId) = f ++ c :: b) : ∃ front row back, l = front ++ row :: back ∧
      front.map (·.commandId) = f ∧ row.commandId = c ∧ back.map (·.commandId) = b := by
  obtain ⟨front, tail, rfl, hfront, htail⟩ := map_eq_append_iff.mp h
  obtain ⟨row, back, rfl, hrow, hback⟩ := map_eq_cons_iff.mp htail
  exact ⟨front, row, back, rfl, hfront, hrow, hback⟩

section

variable (hstore : WellOrdered table)
include hstore

lemma outboxPlace_stands (h : outboxPlace table now c before = .ok (table', changed)) :
    ∃ row front back, table'.get? c = some row ∧ row.state = .queued ∧ row.commandId = c ∧
      placeSiblings table' row = front ++ row :: back ∧
      (back.map (·.commandId)).head? = before := by
  have hkeyed' : Keyed table' := hstore.keyed.of_rowChange (fun d => place_row hstore.keyed h)
  obtain ⟨selected, hget, -, hpl⟩ :=
    outboxPlace_placed hstore.keyed hstore.distinct hstore.below h
  obtain ⟨f, b, -, hids, hhead⟩ := hpl.queue
  obtain ⟨front, row, back, hqueue, -, hid, hback⟩ := exists_row_of_ids hids
  have hmem : row ∈ placeSiblings table' selected := by
    rw [hqueue]
    simp
  obtain ⟨hrow, hstate, hthr, howner⟩ := (mem_placeSiblings_iff hkeyed').mp hmem
  have hsame : placeSiblings table' row = placeSiblings table' selected := by
    unfold placeSiblings
    rw [hthr, howner]
  have hrow' : row.commandId = c := hid.trans (hstore.keyed c selected hget)
  exact ⟨row, front, back, hrow' ▸ hrow, hstate, hrow', hsame.trans hqueue, by rw [hback, hhead]⟩

lemma outboxPlace_again (h : outboxPlace table now c before = .ok (table', changed)) :
    outboxPlace table' now' c before = .ok (table', false) := by
  have hkeyed' : Keyed table' := hstore.keyed.of_rowChange (fun d => place_row hstore.keyed h)
  obtain ⟨row, front, back, hget, hstate, hid, hqueue, hhead⟩ := outboxPlace_stands hstore h
  rw [← hid] at hget ⊢
  rw [← hhead]
  exact outboxPlace_inPlace hkeyed' hget hstate hqueue

lemma outboxPlace_same (hget : table.get? selected.commandId = some selected)
    (h : outboxPlace table now selected.commandId before = .ok (table, changed)) :
    ∃ front back, placeSiblings table selected = front ++ selected :: back ∧
      (back.map (·.commandId)).head? = before := by
  obtain ⟨row, front, back, hrow, -, -, hqueue, hhead⟩ := outboxPlace_stands hstore h
  obtain rfl := some.inj (hget.symm.trans hrow)
  exact ⟨front, back, hqueue, hhead⟩

lemma order_lt_of_next (hqueue : placeSiblings table selected = front ++ selected :: back)
    (hx : table.get? x.commandId = some x)
    (hhead : (back.map (·.commandId)).head? = some x.commandId) :
    selected.order < x.order ∧ ∃ rest, back = x :: rest := by
  have hstr := placeSiblings_strict hstore.distinct hstore.below selected
  rw [hqueue] at hstr
  cases back with
  | nil => cases hhead
  | cons row rest =>
  have hid : row.commandId = x.commandId := some.inj hhead
  have hrow : row ∈ placeSiblings table selected := by
    rw [hqueue]
    simp
  have hget := ((mem_placeSiblings_iff hstore.keyed).mp hrow).1
  rw [hid, hx] at hget
  obtain rfl := some.inj hget
  exact ⟨rel_of_pairwise_cons (pairwise_append.mp hstr).2.1 mem_cons_self, rest, rfl⟩

end

/-- Two neighbours of a queue with their orders exchanged. -/
structure Swapped (table table' : Outbox) (now : Nat) (x y : OutboxCommand) : Prop where
  first : table'.get? y.commandId = some { y with order := x.order, updatedAt := now }
  second : table'.get? x.commandId = some { x with order := y.order, updatedAt := now }
  frame : ∀ d, d ≠ x.commandId → d ≠ y.commandId → table'.get? d = table.get? d

lemma SlotsGiven.swapped (hstore : WellOrdered table)
    (hqueue : placeSiblings table selected = front ++ x :: y :: back)
    (hgiven : SlotsGiven table table' now selected (front ++ y :: x :: back)) :
    Swapped table table' now x y := by
  have hstr := placeSiblings_strict hstore.distinct hstore.below selected
  rw [hqueue] at hstr
  have hlt : x.order < y.order :=
    rel_of_pairwise_cons (pairwise_append.mp hstr).2.1 mem_cons_self
  have hslots : (front ++ y :: x :: back).zip ((placeSiblings table selected).map (·.order)) =
      front.zip (front.map (·.order)) ++
        (y, x.order) :: (x, y.order) :: back.zip (back.map (·.order)) := by
    rw [hqueue, map_append, map_cons, map_cons,
      zip_append (by rw [length_map]), zip_cons_cons, zip_cons_cons]
  have hown : ∀ {l : List OutboxCommand} {row : OutboxCommand}, row ∈ l →
      (row, row.order) ∈ l.zip (l.map (·.order)) := by
    intro l row hrow
    induction l with
    | nil => cases hrow
    | cons first rest ih =>
    rw [map_cons, zip_cons_cons, mem_cons]
    rcases mem_cons.mp hrow with rfl | hrow
    · exact .inl rfl
    · exact .inr (ih hrow)
  refine ⟨?_, ?_, fun d hx hy => ?_⟩
  · have hrow := hgiven.given (y, x.order) (by rw [hslots]; simp)
    rwa [slotRow, if_pos (show y.order ≠ x.order by omega)] at hrow
  · have hrow := hgiven.given (x, y.order) (by rw [hslots]; simp)
    rwa [slotRow, if_pos (show x.order ≠ y.order by omega)] at hrow
  by_cases hd : d ∈ queueIds table selected
  · obtain ⟨row, hrow, rfl⟩ := mem_map.mp hd
    have hget := ((mem_placeSiblings_iff hstore.keyed).mp hrow).1
    rw [hqueue, mem_append, mem_cons, mem_cons] at hrow
    have hslot : (row, row.order) ∈
        (front ++ y :: x :: back).zip ((placeSiblings table selected).map (·.order)) := by
      rw [hslots, mem_append, mem_cons, mem_cons]
      rcases hrow with hrow | rfl | rfl | hrow
      · exact .inl (hown hrow)
      · exact absurd rfl hx
      · exact absurd rfl hy
      · exact .inr (.inr (.inr (hown hrow)))
    have hsame := hgiven.given _ hslot
    rw [hget, hsame]
    exact congrArg some (if_neg (not_not.mpr rfl))
  · exact hgiven.frame d hd

/-- Placing the second of two neighbours before the first, or the first behind the second,
exchanges them. -/
lemma outboxPlace_swap (hstore : WellOrdered table) (hget : table.get? c = some selected)
    (hqueue : placeSiblings table selected = front ++ x :: y :: back)
    (hup : selected = y ∧ before = some x.commandId ∨
      selected = x ∧ before = (back.map (·.commandId)).head?)
    (h : outboxPlace table now c before = .ok (table', changed)) :
    Swapped table table' now x y := by
  obtain ⟨selected', f, b, hget', -, hoth, hhead, hgiven⟩ := outboxPlace_slots hstore.keyed h
  rw [hget] at hget'
  cases hget'
  have hids := nodup_placeSiblings hstore.keyed selected
  have hid := hstore.keyed c selected hget
  rw [hqueue, ← hid] at hoth
  rw [hqueue] at hids
  have hnodup : ((f ++ b).map (·.commandId)).Nodup := by
    rw [← hoth]
    exact hids.sublist (filter_sublist.map _)
  -- The others have one split in front of the target.
  have hsplit : ∀ {front' back' : List OutboxCommand}, f ++ b = front' ++ back' →
      (back'.map (·.commandId)).head? = before → f = front' ∧ b = back' := by
    intro front' back' heq hbef
    have hmapped : (f ++ b).map (·.commandId) =
        front'.map (·.commandId) ++ back'.map (·.commandId) := by
      rw [heq, map_append]
    have hlen := congrArg length (split_unique hnodup map_append hmapped (hhead.trans hbef.symm)).1
    rw [length_map, length_map] at hlen
    exact append_inj heq hlen
  rcases hup with ⟨rfl, hbef⟩ | ⟨rfl, hbef⟩
  · have hrest : f ++ b = front ++ x :: back := by
      rw [← hoth]
      have hqueue' : front ++ x :: selected :: back = (front ++ [x]) ++ selected :: back := by simp
      rw [hqueue'] at hids ⊢
      rw [filter_others hids]
      simp
    obtain ⟨rfl, rfl⟩ := hsplit hrest (by rw [hbef]; rfl)
    exact SlotsGiven.swapped hstore hqueue hgiven
  have hrest : f ++ b = (front ++ [y]) ++ back := by
    rw [← hoth, filter_others hids]
    simp
  obtain ⟨rfl, rfl⟩ := hsplit hrest hbef.symm
  rw [append_assoc] at hgiven
  exact SlotsGiven.swapped hstore hqueue hgiven

end Placing

lemma WellOrdered.place {table table' : Outbox} {now : Nat} {c : String} {before : Option String}
    {changed : Bool} (hstore : WellOrdered table)
    (h : outboxPlace table now c before = .ok (table', changed)) : WellOrdered table' := by
  obtain ⟨selected, front, back, -, -, -, -, hgiven⟩ := outboxPlace_slots hstore.keyed h
  exact ⟨hstore.keyed.of_rowChange (fun d => place_row hstore.keyed h),
    hgiven.distinctOrders hstore.keyed hstore.distinct,
    hgiven.counterBelowMax hstore.keyed hstore.below⟩

/-! ## The queue a direction is read from -/

section Listed

variable {table table' : Outbox} {now now' : Nat} {object : Json}
  {selected row x y : OutboxCommand} {front back : List OutboxCommand}

lemma mem_queuedOfThread (hkeyed : Keyed table) :
    row ∈ queuedOfThread (outboxList table none) selected ↔
      table.get? row.commandId = some row ∧ row.remoteThreadId = selected.remoteThreadId ∧
        row.state = .queued := by
  rw [queuedOfThread, mem_filter, mem_outboxList]
  simp only [Bool.and_eq_true, decide_eq_true_eq]
  refine and_congr_left (fun _ => ⟨?_, fun h => ⟨_, h⟩⟩)
  rintro ⟨d, hrow⟩
  exact (hkeyed d row hrow).symm ▸ hrow

lemma queuedOfThread_strict (hstore : WellOrdered table) :
    (queuedOfThread (outboxList table none) selected).Pairwise (fun a b => a.order < b.order) :=
  (outboxList_strict hstore.distinct hstore.below).sublist filter_sublist

lemma placeSiblings_eq_filter (hstore : WellOrdered table) :
    placeSiblings table selected = (queuedOfThread (outboxList table none) selected).filter
      (fun row => decide (row.ownerContext = selected.ownerContext)) := by
  refine eq_of_strict (placeSiblings_strict hstore.distinct hstore.below selected)
    ((queuedOfThread_strict hstore).sublist filter_sublist) (fun row => ?_)
  rw [mem_placeSiblings_iff hstore.keyed, mem_filter, mem_queuedOfThread hstore.keyed,
    decide_eq_true_eq]
  tauto

lemma placeSiblings_neighbours (hstore : WellOrdered table)
    (hqueue : queuedOfThread (outboxList table none) selected = front ++ x :: y :: back)
    (hx : x.ownerContext = selected.ownerContext) (hy : y.ownerContext = selected.ownerContext) :
    placeSiblings table selected =
      front.filter (fun row => decide (row.ownerContext = selected.ownerContext)) ++
        x :: y :: back.filter (fun row => decide (row.ownerContext = selected.ownerContext)) := by
  rw [placeSiblings_eq_filter hstore, hqueue, filter_append]
  simp [hx, hy]

lemma Swapped.queued (hstore : WellOrdered table) (hstore' : WellOrdered table')
    (h : Swapped table table' now x y)
    (hqueue : queuedOfThread (outboxList table none) selected = front ++ x :: y :: back) :
    queuedOfThread (outboxList table' none) selected =
      front ++ { y with order := x.order, updatedAt := now } ::
        { x with order := y.order, updatedAt := now } :: back := by
  have hstr : (queuedOfThread (outboxList table none) selected).Pairwise
      (fun a b => a.order < b.order) := queuedOfThread_strict hstore
  rw [hqueue] at hstr
  have hmem : ∀ {r}, r ∈ front ++ x :: y :: back ↔ table.get? r.commandId = some r ∧
      r.remoteThreadId = selected.remoteThreadId ∧ r.state = .queued := by
    intro r
    rw [← hqueue, mem_queuedOfThread hstore.keyed]
  obtain ⟨hxget, hxthread, hxstate⟩ := hmem.mp (show x ∈ front ++ x :: y :: back by simp)
  obtain ⟨hyget, hythread, hystate⟩ := hmem.mp (show y ∈ front ++ x :: y :: back by simp)
  -- The rows around the two have other orders, so other ids.
  have hother : ∀ {r}, r ∈ front ∨ r ∈ back → table'.get? r.commandId = some r ∧
      r.remoteThreadId = selected.remoteThreadId ∧ r.state = .queued := by
    intro r hr
    have hne : r.order ≠ x.order ∧ r.order ≠ y.order := by
      obtain ⟨-, htail, hcross⟩ := pairwise_append.mp hstr
      obtain ⟨hxlt, hrest⟩ := pairwise_cons.mp htail
      rcases hr with hr | hr
      · exact ⟨(hcross r hr x (by simp)).ne, (hcross r hr y (by simp)).ne⟩
      · exact ⟨(hxlt r (mem_cons_of_mem _ hr)).ne', (rel_of_pairwise_cons hrest hr).ne'⟩
    have hin : r ∈ front ++ x :: y :: back := by
      rcases hr with hr | hr <;> simp [hr]
    obtain ⟨hget, hqueu⟩ := hmem.mp hin
    refine ⟨?_, hqueu⟩
    rw [h.frame, hget]
    · intro hid
      rw [hid, hxget] at hget
      exact hne.1 (congrArg OutboxCommand.order (some.inj hget)).symm
    · intro hid
      rw [hid, hyget] at hget
      exact hne.2 (congrArg OutboxCommand.order (some.inj hget)).symm
  refine eq_of_strict (queuedOfThread_strict hstore') ?_ (fun r => ?_)
  · have horders : (front ++ { y with order := x.order, updatedAt := now } ::
        { x with order := y.order, updatedAt := now } :: back).map (·.order) =
          (front ++ x :: y :: back).map (·.order) := by simp
    rw [← pairwise_map (f := fun row : OutboxCommand => row.order) (R := (· < ·))] at hstr ⊢
    rwa [horders]
  rw [mem_queuedOfThread hstore'.keyed]
  constructor
  · rintro ⟨hget, hthr, hstate⟩
    by_cases hrx : r.commandId = x.commandId
    · rw [hrx, h.second] at hget
      cases hget
      simp
    by_cases hry : r.commandId = y.commandId
    · rw [hry, h.first] at hget
      cases hget
      simp
    rw [h.frame _ hrx hry] at hget
    have hin := hmem.mpr ⟨hget, hthr, hstate⟩
    rw [mem_append, mem_cons, mem_cons] at hin ⊢
    rcases hin with hin | rfl | rfl | hin
    · exact .inl hin
    · exact absurd rfl hrx
    · exact absurd rfl hry
    · exact .inr (.inr (.inr hin))
  intro hin
  rw [mem_append, mem_cons, mem_cons] at hin
  rcases hin with hin | rfl | rfl | hin
  · exact hother (.inl hin)
  · exact ⟨h.first, hythread, hystate⟩
  · exact ⟨h.second, hxthread, hxstate⟩
  · exact hother (.inr hin)

/-! ## By one place -/

section

variable (hkeyed : Keyed table)
include hkeyed

lemma queueMove_at_top (hget : table.get? selected.commandId = some selected)
    (hqueue : queuedOfThread (outboxList table none) selected = selected :: back)
    (hmove : MovesBy object selected (-1)) :
    queueMoveAlone object table now = .ok (table, false) := by
  have hlisted := @queueMove_listed table now selected object hkeyed hget [] back hqueue (-1) hmove
  exact hlisted.trans (if_pos (.inl (by simp)))

lemma queueMove_past_previous (hget : table.get? selected.commandId = some selected)
    (hqueue : queuedOfThread (outboxList table none) selected = front ++ x :: selected :: back)
    (hmove : MovesBy object selected (-1)) :
    queueMoveAlone object table now =
      outboxPlace table now selected.commandId (some x.commandId) := by
  have hqueue' : queuedOfThread (outboxList table none) selected =
      (front ++ [x]) ++ selected :: back := by simpa using hqueue
  refine (queueMove_listed hkeyed hget hqueue' hmove).trans ?_
  rw [if_neg (by simp; omega), if_pos (by omega)]
  have hindex : (((front ++ [x]).length : Int) + -1).toNat = front.length := by
    rw [length_append, length_singleton]
    omega
  rw [hindex, append_assoc, getElem?_append_right (le_refl _), Nat.sub_self]
  rfl

lemma queueMove_at_bottom (hget : table.get? selected.commandId = some selected)
    (hqueue : queuedOfThread (outboxList table none) selected = front ++ [selected])
    (hmove : MovesBy object selected 1) : queueMoveAlone object table now = .ok (table, false) := by
  refine (queueMove_listed hkeyed hget hqueue hmove).trans (if_pos (.inr ?_))
  simp

lemma queueMove_past_next (hget : table.get? selected.commandId = some selected)
    (hqueue : queuedOfThread (outboxList table none) selected = front ++ selected :: y :: back)
    (hmove : MovesBy object selected 1) :
    queueMoveAlone object table now =
      outboxPlace table now selected.commandId (back.map (·.commandId)).head? := by
  refine (queueMove_listed hkeyed hget hqueue hmove).trans ?_
  rw [if_neg (by simp; omega), if_neg (by omega)]
  have hindex : ((front.length : Int) + 1).toNat + 1 = front.length + 2 := by omega
  rw [hindex, getElem?_append_right (by omega), Nat.add_sub_cancel_left,
    getElem?_cons_succ, getElem?_cons_succ, ← head?_eq_getElem?, head?_map]

end

/-- A move by one place that passes a command of the same owner. -/
def MovesOn (table : Outbox) (object : Json) : Prop :=
  ∃ selected front back, table.get? selected.commandId = some selected ∧
    queuedOfThread (outboxList table none) selected = front ++ selected :: back ∧
    ((MovesBy object selected (-1) ∧ ∃ f p x, front = f ++ [p, x] ∧
        x.ownerContext = selected.ownerContext) ∨
      (MovesBy object selected 1 ∧ ∃ y n b, back = y :: n :: b ∧
        y.ownerContext = selected.ownerContext ∧ n.ownerContext = selected.ownerContext))

lemma MovesBy.of_swapped {direction : Int} (h : MovesBy object selected direction)
    (order time : Nat) :
    MovesBy object { selected with order := order, updatedAt := time } direction :=
  ⟨h.names, h.relative, h.directed, h.unit⟩

variable {t t' : Nat}

lemma outboxPlace_sibling (t : Nat) (hstore : WellOrdered table)
    (hget : table.get? selected.commandId = some selected)
    (hmem : selected ∈ queuedOfThread (outboxList table none) selected)
    (hsib : placeSiblings table selected = front ++ x :: back)
    (hother : selected ∈ front ∨ selected ∈ back) :
    ∃ r, outboxPlace table t selected.commandId (some x.commandId) = .ok r := by
  have hids := nodup_placeSiblings hstore.keyed selected
  rw [hsib, map_append, map_cons, nodup_middle, nodup_cons, ← map_append] at hids
  refine (outboxPlace_isOk hstore.keyed).mpr ⟨selected, hget,
    ((mem_queuedOfThread hstore.keyed).mp hmem).2.2, fun target heq => some.inj heq ▸ ⟨?_, ?_⟩⟩
  · exact fun heq => hids.1 (heq ▸ mem_map_of_mem (mem_append.mpr hother))
  · rw [queueIds, hsib]
    simp

/-- A move past the command before it is refused or goes on, unless it comes to the top. -/
lemma not_idempotent_up {p : OutboxCommand} (hstore : WellOrdered table)
    (hget : table.get? selected.commandId = some selected)
    (hqueue : queuedOfThread (outboxList table none) selected =
      (front ++ [p]) ++ x :: selected :: back)
    (hmove : MovesBy object selected (-1)) (hx : x.ownerContext = selected.ownerContext) :
    ¬ Idempotent (queueMoveAlone object) table t t' := by
  have hsib := placeSiblings_neighbours hstore hqueue hx rfl
  obtain ⟨⟨table₁, changed⟩, hplace⟩ :=
    outboxPlace_sibling t hstore hget (by rw [hqueue]; simp) hsib (.inr mem_cons_self)
  have hstore₁ := hstore.place hplace
  have hswap := outboxPlace_swap hstore hget hsib (.inl ⟨rfl, rfl⟩) hplace
  have hqueue₁ := hswap.queued hstore hstore₁ hqueue
  have hstr : (queuedOfThread (outboxList table₁ none) selected).Pairwise
      (fun a b => a.order < b.order) := queuedOfThread_strict hstore₁
  have hp : p ∈ queuedOfThread (outboxList table₁ none) selected := by
    rw [hqueue₁]
    simp
  rw [iff_of_ok ((queueMove_past_previous hstore.keyed hget hqueue hmove).trans hplace)]
  rintro ⟨again, hagain⟩
  -- The second execution asks for the place before `p`, which is before the command.
  have hqueue₂ : queuedOfThread (outboxList table₁ none) selected =
      front ++ p :: { selected with order := x.order, updatedAt := t } ::
        { x with order := selected.order, updatedAt := t } :: back := by
    rw [hqueue₁, append_assoc]
    rfl
  rw [hqueue₂] at hstr
  have hlt := rel_of_pairwise_cons (pairwise_append.mp hstr).2.1 mem_cons_self
  have hmove₁ := hmove.of_swapped x.order t
  rw [queueMove_past_previous hstore₁.keyed hswap.first hqueue₂ hmove₁] at hagain
  obtain ⟨f, b, hstands, hhead⟩ := outboxPlace_same hstore₁ hswap.first hagain
  have hafter := (order_lt_of_next hstore₁ hstands
    ((mem_queuedOfThread hstore₁.keyed).mp hp).1 hhead).1
  dsimp only at hafter hlt
  omega

/-- A move past the command behind it is refused or goes on, unless it comes to the end. -/
lemma not_idempotent_down {n : OutboxCommand} (hstore : WellOrdered table)
    (hget : table.get? selected.commandId = some selected)
    (hqueue : queuedOfThread (outboxList table none) selected = front ++ selected :: y :: n :: back)
    (hmove : MovesBy object selected 1) (hy : y.ownerContext = selected.ownerContext)
    (hn : n.ownerContext = selected.ownerContext) :
    ¬ Idempotent (queueMoveAlone object) table t t' := by
  have hsib := placeSiblings_neighbours hstore hqueue rfl hy
  rw [filter_cons_of_pos (by simpa using hn)] at hsib
  obtain ⟨⟨table₁, changed⟩, hplace⟩ := outboxPlace_sibling t hstore hget (by rw [hqueue]; simp)
    (by rwa [append_cons, append_cons] at hsib) (.inl (by simp))
  have hstore₁ := hstore.place hplace
  have hswap := outboxPlace_swap hstore hget hsib (.inr ⟨rfl, rfl⟩) hplace
  have hqueue₁ := hswap.queued hstore hstore₁ hqueue
  have hstr : (queuedOfThread (outboxList table₁ none) selected).Pairwise
      (fun a b => a.order < b.order) := queuedOfThread_strict hstore₁
  have hin : ∀ {r}, r ∈ n :: back → r ∈ queuedOfThread (outboxList table₁ none) selected := by
    intro r hr
    rw [hqueue₁]
    simp only [mem_append, mem_cons]
    exact .inr (.inr (.inr (mem_cons.mp hr)))
  rw [hqueue₁] at hstr
  obtain ⟨hxlt, hback⟩ := pairwise_cons.mp (pairwise_cons.mp (pairwise_append.mp hstr).2.1).2
  have hlt : y.order < n.order := hxlt n mem_cons_self
  rw [iff_of_ok ((queueMove_past_next hstore.keyed hget hqueue hmove).trans hplace)]
  rintro ⟨again, hagain⟩
  -- The second execution asks for the place behind `n`, which is behind the command.
  have hqueue₂ : queuedOfThread (outboxList table₁ none) selected =
      (front ++ [{ y with order := selected.order, updatedAt := t }]) ++
        { selected with order := y.order, updatedAt := t } :: n :: back := by
    rw [hqueue₁, append_assoc]
    rfl
  have hmove₁ := hmove.of_swapped y.order t
  rw [queueMove_past_next hstore₁.keyed hswap.second hqueue₂ hmove₁] at hagain
  obtain ⟨f, b, hstands, hhead⟩ := outboxPlace_same hstore₁ hswap.second hagain
  have hstr₁ := placeSiblings_strict hstore₁.distinct hstore₁.below
    { selected with order := y.order, updatedAt := t }
  have hnmem : n ∈ placeSiblings table₁ { selected with order := y.order, updatedAt := t } := by
    obtain ⟨hget', hthr, hstate'⟩ := (mem_queuedOfThread hstore₁.keyed).mp (hin mem_cons_self)
    exact (mem_placeSiblings_iff hstore₁.keyed).mpr ⟨hget', hstate', hthr, hn⟩
  rw [hstands] at hstr₁ hnmem
  obtain ⟨-, htail, hcross⟩ := pairwise_append.mp hstr₁
  rcases mem_append.mp hnmem with hbef | hafter
  · have := hcross n hbef _ mem_cons_self
    dsimp only at this
    omega
  rcases mem_cons.mp hafter with rfl | hafter
  · exact absurd hlt (lt_irrefl _)
  cases back with
  | nil =>
    cases b with
    | nil => cases hafter
    | cons q rest => cases hhead
  | cons q rest =>
  have hq := ((mem_queuedOfThread hstore₁.keyed).mp (hin (mem_cons_of_mem _ mem_cons_self))).1
  obtain ⟨-, rest', rfl⟩ := order_lt_of_next hstore₁ hstands hq hhead
  have hnq : n.order < q.order := rel_of_pairwise_cons hback mem_cons_self
  rcases mem_cons.mp hafter with rfl | hafter
  · exact absurd hnq (lt_irrefl _)
  · have := rel_of_pairwise_cons (pairwise_cons.mp htail).2 hafter
    omega

lemma MovesOn.not_idempotent (hstore : WellOrdered table)
    (h : MovesOn table object) : ¬ Idempotent (queueMoveAlone object) table t t' := by
  obtain ⟨selected, front, back, hget, hqueue, h⟩ := h
  rcases h with ⟨hmove, f, p, x, rfl, hx⟩ | ⟨hmove, y, n, b, rfl, hy, hn⟩
  · exact not_idempotent_up hstore hget (by simpa using hqueue) hmove hx
  · exact not_idempotent_down hstore hget hqueue hmove hy hn

/-! ## Other moves -/

variable {r : Outbox × Bool}

lemma outboxPlace_other_time {c : String} {before : Option String}
    (hkeyed : Keyed table) (h : outboxPlace table now' c before = .ok r) :
    ∃ r, outboxPlace table now c before = .ok r :=
  (outboxPlace_isOk hkeyed).mpr ((outboxPlace_isOk hkeyed).mp ⟨r, h⟩)

lemma queueMoveAlone_ok (hkeyed : Keyed table) (h : queueMoveAlone object table now = .ok r) :
    (∃ c before, ∀ t s, queueMoveAlone object s t = outboxPlace s t c before) ∨
      ∃ selected front back direction, table.get? selected.commandId = some selected ∧
        queuedOfThread (outboxList table none) selected = front ++ selected :: back ∧
        MovesBy object selected direction := by
  unfold queueMoveAlone queueMove at h
  obtain ⟨c, hc, h⟩ := bind_ok h
  cases hbef : object.get? "beforeCommandId" with
  | some value =>
    left
    rw [hbef] at h
    unfold queueMoveAlone queueMove
    rw [hc, hbef]
    cases value with
    | null => exact ⟨c, none, fun t s => rfl⟩
    | _ =>
    obtain ⟨before, hread, -⟩ := bind_ok h
    refine ⟨c, some before, fun t s => ?_⟩
    dsimp only [bind, Except.bind]
    rw [hread]
  | none =>
  right
  rw [hbef] at h
  obtain ⟨target, htgt, -⟩ := bind_ok h
  unfold queueMoveTarget at htgt
  split at htgt
  · cases htgt
  rename_i selected hfind
  dsimp only at htgt
  split at htgt
  · cases htgt
  rename_i index hindex
  split at htgt
  · cases htgt
  rename_i direction hdir
  have hid : selected.commandId = c := by simpa using find?_some hfind
  obtain ⟨d, hd⟩ := mem_outboxList.mp (mem_of_find?_eq_some hfind)
  have hget : table.get? selected.commandId = some selected :=
    (hkeyed d selected hd).symm ▸ hd
  obtain ⟨hlt, hrow, -⟩ := findIdx?_eq_some_iff_getElem.mp hindex
  have hsplit := take_append_drop index (queuedOfThread (outboxList table none) selected)
  rw [drop_eq_getElem_cons hlt] at hsplit
  have hsame : (queuedOfThread (outboxList table none) selected)[index] = selected := by
    have hmem := ((mem_queuedOfThread hkeyed).mp (getElem_mem hlt)).1
    rw [of_decide_eq_true hrow, ← hid, hget] at hmem
    exact (some.inj hmem).symm
  rw [hsame] at hsplit
  obtain ⟨hread, hunit⟩ := filter_eq_some_iff.mp hdir
  refine ⟨selected, _, _, direction, hget, hsplit.symm, ?_, hbef, hread, ?_⟩
  · rw [hid]
    exact requiredString_ok.mp hc
  · simpa using hunit

lemma queueMoveAlone_relative {direction : Int} (hkeyed : Keyed table)
    (hget : table.get? selected.commandId = some selected)
    (hqueue : queuedOfThread (outboxList table none) selected = front ++ selected :: back)
    (hmove : MovesBy object selected direction) :
    (∀ s, queueMoveAlone object table s = .ok (table, false)) ∨
      ∃ before, ∀ s, queueMoveAlone object table s =
        outboxPlace table s selected.commandId before := by
  by_cases hend : (front.length : Int) + direction < 0 ∨
      ((front ++ selected :: back).length : Int) ≤ front.length + direction
  · exact .inl (fun s => (queueMove_listed hkeyed hget hqueue hmove).trans (if_pos hend))
  right
  by_cases hup : direction < 0
  · exact ⟨_, fun s => (queueMove_listed hkeyed hget hqueue hmove).trans
      ((if_neg hend).trans (if_pos hup))⟩
  · exact ⟨_, fun s => (queueMove_listed hkeyed hget hqueue hmove).trans
      ((if_neg hend).trans (if_neg hup))⟩

lemma queueMoveAlone_other_time {r : Outbox × Bool} (hkeyed : Keyed table)
    (h : queueMoveAlone object table now' = .ok r) :
    ∃ r, queueMoveAlone object table now = .ok r := by
  rcases queueMoveAlone_ok hkeyed h with ⟨c, before, hplace⟩ |
      ⟨selected, front, back, direction, hget, hqueue, hmove⟩
  · rw [hplace] at h ⊢
    exact outboxPlace_other_time hkeyed h
  rcases queueMoveAlone_relative hkeyed hget hqueue hmove with hstay | ⟨before, hplace⟩
  · exact ⟨_, hstay now⟩
  · rw [hplace] at h ⊢
    exact outboxPlace_other_time hkeyed h

lemma owner_of_target (hstore : WellOrdered table)
    (hget : table.get? selected.commandId = some selected)
    (hx : x ∈ queuedOfThread (outboxList table none) selected)
    (h : outboxPlace table now selected.commandId (some x.commandId) = .ok r) :
    x.ownerContext = selected.ownerContext := by
  obtain ⟨selected', hget', -, htgt⟩ := (outboxPlace_isOk hstore.keyed).mp ⟨r, h⟩
  obtain rfl := some.inj (hget.symm.trans hget')
  obtain ⟨row, hrow, hid⟩ := mem_map.mp (htgt _ rfl).2
  obtain ⟨hrowget, -, -, howner⟩ := (mem_placeSiblings_iff hstore.keyed).mp hrow
  rw [hid, ((mem_queuedOfThread hstore.keyed).mp hx).1] at hrowget
  exact some.inj hrowget ▸ howner

lemma idempotent_of_stay (hstay : ∀ s, queueMoveAlone object table s = .ok (table, false)) :
    Idempotent (queueMoveAlone object) table t t' :=
  (iff_of_ok (hstay t)).mpr ⟨false, hstay t'⟩

lemma queueMove_idempotent_up (hstore : WellOrdered table)
    (hnot : ¬ MovesOn table object) (hget : table.get? selected.commandId = some selected)
    (hqueue : queuedOfThread (outboxList table none) selected = front ++ selected :: back)
    (hmove : MovesBy object selected (-1))
    (h : queueMoveAlone object table t = .ok r) :
    Idempotent (queueMoveAlone object) table t t' := by
  rcases eq_nil_or_concat front with rfl | ⟨f, x, rfl⟩
  · exact idempotent_of_stay (fun s => queueMove_at_top hstore.keyed hget hqueue hmove)
  rw [concat_eq_append] at hqueue
  have hpast : queuedOfThread (outboxList table none) selected = f ++ x :: selected :: back := by
    simpa using hqueue
  have hx : x.ownerContext = selected.ownerContext := by
    rw [queueMove_past_previous hstore.keyed hget hpast hmove] at h
    exact owner_of_target hstore hget (by rw [hpast]; simp) h
  rcases eq_nil_or_concat f with rfl | ⟨g, p, rfl⟩
  · obtain ⟨table₁, changed⟩ := r
    have hplace := h
    rw [queueMove_past_previous hstore.keyed hget hpast hmove] at hplace
    have hstore₁ := hstore.place hplace
    have hswap := outboxPlace_swap hstore hget (placeSiblings_neighbours hstore hpast hx rfl)
      (.inl ⟨rfl, rfl⟩) hplace
    exact (iff_of_ok h).mpr ⟨false, queueMove_at_top hstore₁.keyed hswap.first
      (hswap.queued hstore hstore₁ hpast) (hmove.of_swapped x.order t)⟩
  · refine absurd ⟨selected, _, back, hget, hqueue, .inl ⟨hmove, g, p, x, ?_, hx⟩⟩ hnot
    simp

lemma queueMove_idempotent_down (hstore : WellOrdered table)
    (hnot : ¬ MovesOn table object) (hget : table.get? selected.commandId = some selected)
    (hqueue : queuedOfThread (outboxList table none) selected = front ++ selected :: back)
    (hmove : MovesBy object selected 1)
    (h : queueMoveAlone object table t = .ok r) :
    Idempotent (queueMoveAlone object) table t t' := by
  cases back with
  | nil => exact idempotent_of_stay (fun s => queueMove_at_bottom hstore.keyed hget hqueue hmove)
  | cons y back =>
  have hmoves : ∀ s, queueMoveAlone object table s =
      outboxPlace table s selected.commandId (back.map (·.commandId)).head? :=
    fun s => queueMove_past_next hstore.keyed hget hqueue hmove
  have hplace := (hmoves t).symm.trans h
  have htgt : ∀ n b, back = n :: b → n.ownerContext = selected.ownerContext := by
    rintro n b rfl
    exact owner_of_target hstore hget (by rw [hqueue]; simp) hplace
  by_cases hy : y.ownerContext = selected.ownerContext
  · cases back with
    | nil =>
      obtain ⟨table₁, changed⟩ := r
      have hstore₁ := hstore.place hplace
      have hswap := outboxPlace_swap hstore hget (placeSiblings_neighbours hstore hqueue rfl hy)
        (.inr ⟨rfl, rfl⟩) hplace
      have hqueue₁ : queuedOfThread (outboxList table₁ none) selected =
          (front ++ [{ y with order := selected.order, updatedAt := t }]) ++
            [{ selected with order := y.order, updatedAt := t }] := by
        rw [hswap.queued hstore hstore₁ hqueue, append_assoc]
        rfl
      exact (iff_of_ok h).mpr ⟨false, queueMove_at_bottom hstore₁.keyed hswap.second
        hqueue₁ (hmove.of_swapped y.order t)⟩
    | cons n b =>
      exact absurd ⟨selected, front, _, hget, hqueue, .inr ⟨hmove, y, n, b, rfl, hy,
        htgt n b rfl⟩⟩ hnot
  -- The command behind has another owner: the command stands in its place already.
  have hmem : selected ∈ queuedOfThread (outboxList table none) selected := by
    rw [hqueue]
    simp
  have hstate := ((mem_queuedOfThread hstore.keyed).mp hmem).2.2
  have hsib := @placeSiblings_eq_filter table selected hstore
  rw [hqueue, filter_append, filter_cons_of_pos (by simp),
    filter_cons_of_neg (by simpa using hy)] at hsib
  have hhead : ((back.filter (fun row => decide (row.ownerContext = selected.ownerContext))).map
      (·.commandId)).head? = (back.map (·.commandId)).head? := by
    cases back with
    | nil => rfl
    | cons n b => simp [htgt n b rfl]
  refine idempotent_of_stay (fun s => (hmoves s).trans ?_)
  rw [← hhead]
  exact outboxPlace_inPlace hstore.keyed hget hstate hsib

lemma queueMove_idempotent_iff (hstore : WellOrdered table) :
    Idempotent (queueMoveAlone object) table t t' ↔ ¬ MovesOn table object := by
  refine ⟨fun h hmoves => hmoves.not_idempotent hstore h, fun hnot => ?_⟩
  cases h : queueMoveAlone object table t with
  | error e =>
    refine (iff_of_error h).mpr ?_
    rintro table'' ⟨b, hlater⟩
    obtain ⟨r, hnow⟩ := @queueMoveAlone_other_time table t t' object _ hstore.keyed hlater
    exact absurd (hnow.symm.trans h) (by simp)
  | ok r =>
  rcases queueMoveAlone_ok hstore.keyed h with ⟨c, before, hplace⟩ |
      ⟨selected, front, back, direction, hget, hqueue, hmove⟩
  · obtain ⟨table₁, changed⟩ := r
    refine (iff_of_ok h).mpr ⟨false, ?_⟩
    rw [hplace] at h ⊢
    exact outboxPlace_again hstore h
  · rcases hmove.unit with rfl | rfl
    · exact queueMove_idempotent_up hstore hnot hget hqueue hmove h
    · exact queueMove_idempotent_down hstore hnot hget hqueue hmove h

end Listed

/-! ## Every replayed mutation -/

def ReplaySafe (enc : Encoding) (table : Outbox) (t t' : Nat) (method : String) (params : Json) :
    Prop :=
  (method = "companion/queue/edit" → NamesEdit enc table t params → t = t') ∧
    (method = "companion/queue/retry" → ¬ NamesFailed table params) ∧
    (method = "companion/queue/move" → ¬ MovesOn table params)

section QueueRpc

variable {enc : Encoding} {table : Outbox} {t t' : Nat} {method : String} {params : Json}

lemma queueRpc_of_not_obj (h : params.isObj = false) : queueRpc enc method params table t =
      .error (.corruptedIndex "queue params must be an object") := by
  unfold queueRpc
  simp [h]

lemma get?_of_not_obj (h : params.isObj = false) (k : String) : params.get? k = none := by
  cases params <;> first | rfl | simp [Json.isObj] at h

lemma replaySafe_of_not_obj (h : params.isObj = false) :
    ReplaySafe enc table t t' method params := by
  refine ⟨fun _ hedit => ?_, fun _ hfailed => ?_, fun _ hmoves => ?_⟩
  · obtain ⟨c, input, replacement, items, command, hc, -⟩ := hedit
    simp [get?_of_not_obj h] at hc
  · obtain ⟨c, row, hc, -⟩ := hfailed
    simp [get?_of_not_obj h] at hc
  · obtain ⟨selected, front, back, -, -, ⟨hmove, -⟩ | ⟨hmove, -⟩⟩ := hmoves <;>
      exact absurd hmove.names (by simp [get?_of_not_obj h])

lemma queueRpc_of_obj (h : params.isObj = true) {f : Transaction QueueReply}
    (hmethod : ∀ table now, queueRpc enc method params table now = if params.isObj then f table now
      else .error (.corruptedIndex "queue params must be an object")) :
    queueRpc enc method params = f := by
  funext table now
  rw [hmethod, if_pos h]

/-- A replayed mutation is idempotent exactly when it is safe to repeat. -/
theorem queueRpc_idempotent_iff (enc : Encoding) (table : Outbox) (hstore : WellOrdered table)
    (hfit : BytesFit enc table) (t t' : Nat) (htimes : SameLength enc t t') (method : String)
    (hmethod : method ∈ replayedMutations) (params : Json) :
    Idempotent (queueRpc enc method params) table t t' ↔
      ReplaySafe enc table t t' method params := by
  cases hobj : params.isObj with
  | false =>
    refine iff_of_true ((iff_of_error (queueRpc_of_not_obj hobj)).mpr ?_)
      (replaySafe_of_not_obj hobj)
    rintro table'' ⟨b, hlater⟩
    exact absurd ((queueRpc_of_not_obj hobj).symm.trans hlater) (by simp)
  | true =>
  simp only [replayedMutations, mem_cons, not_mem_nil, or_false] at hmethod
  rcases hmethod with rfl | rfl | rfl | rfl | rfl
  · rw [queueRpc_of_obj (f := (queuePut enc params).replying .command) hobj (fun _ _ => rfl),
      replying]
    exact iff_of_true (queuePut_idempotent htimes) (by simp [ReplaySafe])
  · rw [queueRpc_of_obj (f := (queueEdit enc params).replying .command) hobj (fun _ _ => rfl),
      replying, queueEdit_idempotent_iff htimes hfit]
    simp [ReplaySafe]
  · rw [queueRpc_of_obj (f := (queueCancel params).replying .cancelled) hobj (fun _ _ => rfl),
      replying]
    exact iff_of_true queueCancel_idempotent (by simp [ReplaySafe])
  · rw [queueRpc_of_obj (f := (queueRetry params).replying .command) hobj (fun _ _ => rfl),
      replying, queueRetry_idempotent_iff]
    simp [ReplaySafe]
  · rw [queueRpc_of_obj (f := (queueMoveAlone params).replying .moved) hobj (fun _ _ => rfl),
      replying, queueMove_idempotent_iff hstore]
    simp [ReplaySafe]

end QueueRpc

/-- The last of three prompts is moved up, and the request is executed again. -/
def moveUp (commandId : String) : Json :=
  .obj [("commandId", .str commandId), ("direction", .int (-1))]

lemma wellOrdered_threePrompts :
    WellOrdered (exec (outboxStep ⟨fun _ => 0, fun _ => 0⟩) ∅ threePrompts) where
  keyed := (exec_ordered keyed_empty distinctOrders_empty threePrompts).1
  distinct := (exec_ordered keyed_empty distinctOrders_empty threePrompts).2
  below := counterBelowMax_iff.mpr (by decide)

theorem queueRpc_idempotent_cancel :
    Idempotent (queueRpc ⟨fun _ => 0, fun _ => 0⟩ "companion/queue/cancel"
      (.obj [("commandId", .str "b")]))
      (exec (outboxStep ⟨fun _ => 0, fun _ => 0⟩) ∅ threePrompts) 4 5 :=
  (queueRpc_idempotent_iff ⟨fun _ => 0, fun _ => 0⟩ _ wellOrdered_threePrompts
    (by unfold BytesFit; decide) 4 5 ⟨fun _ => rfl, fun _ => rfl⟩ "companion/queue/cancel"
    (by decide) _).mpr (by simp [ReplaySafe])

theorem replayed_move_moves_on :
    ¬ ∀ (enc : Encoding) (steps : List (Nat × OutboxOp)) (t t' : Nat) (method : String)
      (params : Json), method ∈ replayedMutations →
      Idempotent (queueRpc enc method params) (exec (outboxStep enc) ∅ steps) t t' := by
  intro h
  have hagain := (h ⟨fun _ => 0, fun _ => 0⟩ threePrompts 4 5 "companion/queue/move"
    (moveUp "c") (by decide)).1
  revert hagain
  decide

end CodeWide.Sync
