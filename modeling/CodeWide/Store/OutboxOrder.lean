import CodeWide.Store.Ownership
import Mathlib.Data.List.Nodup

/-!
# The dispatch order of the outbox

An order number is given by `put` as one more than the greatest and moved by `place` only.
-/

namespace CodeWide.Store

open Lib List Saturating Table

/-- Two rows share an order at most where the counter saturates. -/
def DistinctOrders (table : Outbox) : Prop :=
  ∀ c d row row', table.get? c = some row → table.get? d = some row' →
    row.order = row'.order → row.order < max64 → c = d

def CounterBelowMax (table : Outbox) : Prop :=
  ∀ c row, table.get? c = some row → row.order < max64

def outboxStep (enc : Encoding) (table : Outbox) (i : Nat × OutboxOp) : Outbox :=
  (i.2.run enc table i.1).1

lemma counterBelowMax_iff {table : Outbox} :
    CounterBelowMax table ↔ ∀ e ∈ table.entries, e.2.order < max64 := by
  refine ⟨fun h e he => h e.1 e.2 (mem_entries_iff.mp he), fun h c row hrow => ?_⟩
  exact h (c, row) (mem_entries_iff.mpr hrow)

lemma distinctOrders_empty : DistinctOrders ∅ := by
  intro c d row row' h
  simp at h

/-! ## Sorted rows -/

section Sorted

lemma keyLe_total (a b : Nat × Nat) : keyLe a b ∨ keyLe b a := by
  unfold keyLe
  omega

lemma keyLe_trans {a b c : Nat × Nat} (hab : keyLe a b) (hbc : keyLe b c) : keyLe a c := by
  unfold keyLe at *
  omega

variable (l : List OutboxCommand)

lemma outboxSort_pairwise :
    (outboxSort l).Pairwise (fun a b => keyLe (a.order, a.createdAt) (b.order, b.createdAt)) := by
  have htotal : Std.Total
      (fun a b : OutboxCommand => keyLe (a.order, a.createdAt) (b.order, b.createdAt)) :=
    ⟨fun a b => keyLe_total _ _⟩
  have htrans : IsTrans OutboxCommand
      (fun a b => keyLe (a.order, a.createdAt) (b.order, b.createdAt)) :=
    ⟨fun a b c => keyLe_trans⟩
  exact pairwise_insertionSort _ l

lemma outboxSort_perm : (outboxSort l).Perm l :=
  perm_insertionSort _ l

lemma outboxSort_strict {l : List OutboxCommand} (h : (l.map (·.order)).Nodup) :
    (outboxSort l).Pairwise (fun a b => a.order < b.order) := by
  have hnodup : (outboxSort l).Pairwise (fun a b => a.order ≠ b.order) := by
    rw [← pairwise_map]
    exact ((outboxSort_perm l).map _).nodup_iff.mpr h
  refine (outboxSort_pairwise l).imp₂ (fun a b hle hne => ?_) hnodup
  unfold keyLe at hle
  dsimp only at hle
  omega

lemma eq_of_strict {l m : List OutboxCommand} (hl : l.Pairwise (fun a b => a.order < b.order))
    (hm : m.Pairwise (fun a b => a.order < b.order)) (h : ∀ a, a ∈ l ↔ a ∈ m) : l = m := by
  have hirrefl : Std.Irrefl (fun a b : OutboxCommand => a.order < b.order) :=
    ⟨fun a => lt_irrefl a.order⟩
  have hantisymm : Std.Antisymm (fun a b : OutboxCommand => a.order < b.order) :=
    ⟨fun a b hab hba => absurd hab (Nat.lt_asymm hba)⟩
  exact List.Pairwise.eq_of_mem_iff hl hm h

end Sorted

/-! ## The rows of a table -/

section Rows

variable {table : Outbox}

lemma mem_rows_iff (hkeyed : Keyed table) {row : OutboxCommand} :
    row ∈ table.entries.map Prod.snd ↔ table.get? row.commandId = some row := by
  refine ⟨mem_rows hkeyed, fun h => ?_⟩
  exact mem_map.mpr ⟨(row.commandId, row), mem_entries_iff.mpr h, rfl⟩

lemma find?_rows (hkeyed : Keyed table) (c : String) :
    (table.entries.map Prod.snd).find? (fun row => decide (row.commandId = c)) = table.get? c := by
  cases hfind : (table.entries.map Prod.snd).find? (fun row => decide (row.commandId = c)) with
  | some row =>
    have hid : row.commandId = c := by simpa using find?_some hfind
    rw [← hid]
    exact (mem_rows hkeyed (mem_of_find?_eq_some hfind)).symm
  | none =>
  cases hrow : table.get? c with
  | none => rfl
  | some row =>
  have hid := hkeyed c row hrow
  have hmem := (mem_rows_iff hkeyed).mpr (hid.symm ▸ hrow)
  exact absurd hid (by simpa using find?_eq_none.mp hfind row hmem)

lemma nodup_commandIds (hkeyed : Keyed table) :
    ((table.entries.map Prod.snd).map (·.commandId)).Nodup := by
  have heq : (table.entries.map Prod.snd).map (·.commandId) = table.entries.map Prod.fst := by
    rw [map_map]
    refine map_congr_left (fun e he => ?_)
    exact hkeyed e.1 e.2 (mem_entries_iff.mp he)
  rw [heq]
  exact table.keys_nodup

lemma nodup_orders (hdistinct : DistinctOrders table) (hbelow : CounterBelowMax table) :
    ((table.entries.map Prod.snd).map (·.order)).Nodup := by
  rw [map_map]
  refine List.Nodup.map_on (fun e he f hf heq => ?_) table.nodup_entries
  have hrow := mem_entries_iff.mp he
  have hrow' := mem_entries_iff.mp hf
  have hkey : e.1 = f.1 := hdistinct _ _ _ _ hrow hrow' heq (hbelow _ _ hrow)
  refine Prod.ext hkey ?_
  rw [← hkey, hrow] at hrow'
  exact Option.some.inj hrow'

lemma mem_placeSiblings_iff (hkeyed : Keyed table) {row selected : OutboxCommand} :
    row ∈ placeSiblings table selected ↔ table.get? row.commandId = some row ∧
      row.state = .queued ∧ row.remoteThreadId = selected.remoteThreadId ∧
      row.ownerContext = selected.ownerContext := by
  rw [placeSiblings, outboxSort, mem_insertionSort, mem_filter, mem_rows_iff hkeyed]
  simp

lemma nodup_placeSiblings (hkeyed : Keyed table) (selected : OutboxCommand) :
    ((placeSiblings table selected).map (·.commandId)).Nodup := by
  refine ((outboxSort_perm _).map _).nodup_iff.mpr ?_
  exact (nodup_commandIds hkeyed).sublist (filter_sublist.map _)

lemma placeSiblings_strict (hdistinct : DistinctOrders table) (hbelow : CounterBelowMax table)
    (selected : OutboxCommand) :
    (placeSiblings table selected).Pairwise (fun a b => a.order < b.order) :=
  outboxSort_strict ((nodup_orders hdistinct hbelow).sublist (filter_sublist.map _))

lemma outboxList_none (table : Outbox) :
    outboxList table none = outboxSort (table.entries.map Prod.snd) := by
  unfold outboxList
  refine congrArg outboxSort (filter_eq_self.mpr (fun row _ => rfl))

lemma outboxList_strict (hdistinct : DistinctOrders table) (hbelow : CounterBelowMax table) :
    (outboxList table none).Pairwise (fun a b => a.order < b.order) := by
  rw [outboxList_none]
  exact outboxSort_strict (nodup_orders hdistinct hbelow)

lemma mem_outboxList {row : OutboxCommand} :
    row ∈ outboxList table none ↔ ∃ c, table.get? c = some row := by
  rw [outboxList_none, (outboxSort_perm _).mem_iff, mem_map]
  constructor
  · rintro ⟨e, he, rfl⟩
    exact ⟨e.1, mem_entries_iff.mp he⟩
  · rintro ⟨c, hc⟩
    exact ⟨(c, row), mem_entries_iff.mpr hc, rfl⟩

end Rows

/-! ## Placement -/

def queueIds (table : Outbox) (selected : OutboxCommand) : List String :=
  (placeSiblings table selected).map (·.commandId)

def slotRow (now : Nat) (slot : OutboxCommand × Nat) : OutboxCommand :=
  if slot.1.order ≠ slot.2 then { slot.1 with order := slot.2, updatedAt := now } else slot.1

/-- The command stands right before its target, or last without one; the others keep their places.
-/
structure IsPlaced (table table' : Outbox) (now : Nat) (selected : OutboxCommand)
    (before : Option String) : Prop where
  queue : ∃ front back, (queueIds table selected).erase selected.commandId = front ++ back ∧
    queueIds table' selected = front ++ selected.commandId :: back ∧ back.head? = before
  slots : (placeSiblings table' selected).map (·.order) =
    (placeSiblings table selected).map (·.order)
  moved : ∀ row ∈ placeSiblings table selected,
    ∃ order, table'.get? row.commandId = some (slotRow now (row, order))
  frame : ∀ d, d ∉ queueIds table selected → table'.get? d = table.get? d

@[simp] lemma slotRow_commandId (now : Nat) (slot : OutboxCommand × Nat) :
    (slotRow now slot).commandId = slot.1.commandId := by
  unfold slotRow
  split <;> rfl

@[simp] lemma slotRow_order (now : Nat) (slot : OutboxCommand × Nat) :
    (slotRow now slot).order = slot.2 := by
  unfold slotRow
  split
  · rfl
  · rename_i h
    exact not_not.mp h

lemma slotRow_queue (now : Nat) (slot : OutboxCommand × Nat) :
    (slotRow now slot).state = slot.1.state ∧
      (slotRow now slot).remoteThreadId = slot.1.remoteThreadId ∧
      (slotRow now slot).ownerContext = slot.1.ownerContext := by
  unfold slotRow
  split <;> exact ⟨rfl, rfl, rfl⟩

section Placement

variable {table table' : Outbox} {now : Nat} {c : String} {before : Option String} {changed : Bool}

lemma placeSlot_get? (acc : Outbox × Bool) (slot : OutboxCommand × Nat)
    (hrow : acc.1.get? slot.1.commandId = some slot.1) (d : String) :
    (placeSlot now acc slot).1.get? d =
      if d = slot.1.commandId then some (slotRow now slot) else acc.1.get? d := by
  unfold placeSlot slotRow
  split
  · exact get?_insert _ _ _ _
  split
  · rename_i hd
    rw [hd, hrow]
  · rfl

lemma foldl_placeSlot_get? {slots : List (OutboxCommand × Nat)} {acc : Outbox × Bool}
    (hnodup : (slots.map (·.1.commandId)).Nodup)
    (hrows : ∀ slot ∈ slots, acc.1.get? slot.1.commandId = some slot.1) :
    (∀ slot ∈ slots, (slots.foldl (placeSlot now) acc).1.get? slot.1.commandId =
      some (slotRow now slot)) ∧
    ∀ d, d ∉ slots.map (·.1.commandId) →
      (slots.foldl (placeSlot now) acc).1.get? d = acc.1.get? d := by
  induction slots generalizing acc with
  | nil => exact ⟨by simp, fun d _ => rfl⟩
  | cons slot rest ih =>
  obtain ⟨hfirst, hrest⟩ := nodup_cons.mp hnodup
  have hstep := fun d => @placeSlot_get? now acc slot (hrows slot mem_cons_self) d
  have hkept : ∀ s ∈ rest, (placeSlot now acc slot).1.get? s.1.commandId = some s.1 := by
    intro s hs
    have hne : s.1.commandId ≠ slot.1.commandId := by
      intro heq
      exact hfirst (mem_map.mpr ⟨s, hs, heq⟩)
    rw [hstep, if_neg hne]
    exact hrows s (mem_cons_of_mem _ hs)
  obtain ⟨hin, hout⟩ := ih hrest hkept
  refine ⟨fun s hs => ?_, fun d hd => ?_⟩
  · rcases mem_cons.mp hs with rfl | hs
    · rw [foldl_cons, hout _ hfirst, hstep, if_pos rfl]
    · exact hin s hs
  · rw [map_cons, mem_cons, not_or] at hd
    rw [foldl_cons, hout d hd.2, hstep, if_neg hd.1]

lemma insertIdx_length_append (front back : List OutboxCommand) (row : OutboxCommand) :
    (front ++ back).insertIdx front.length row = front ++ row :: back := by
  induction front with
  | nil => rfl
  | cons a front ih =>
    rw [cons_append, length_cons, insertIdx_succ_cons, ih]
    rfl

variable {others : List OutboxCommand}

lemma placeIndex_split {k : Nat} (h : placeIndex others before = .ok k) (selected : OutboxCommand) :
    ∃ front back, others = front ++ back ∧ others.insertIdx k selected = front ++ selected :: back ∧
      (back.map (·.commandId)).head? = before := by
  cases before with
  | none =>
    cases h
    exact ⟨others, [], by simp, insertIdx_length_self, rfl⟩
  | some target =>
  unfold placeIndex at h
  dsimp only at h
  split at h
  · cases h
  rename_i i hi
  cases h
  obtain ⟨hlt, htgt, -⟩ := findIdx?_eq_some_iff_getElem.mp hi
  have hsplit := take_append_drop k others
  have hlen : (others.take k).length = k := length_take_of_le hlt.le
  refine ⟨others.take k, others.drop k, hsplit.symm, ?_, ?_⟩
  · have hinsert := insertIdx_length_append (others.take k) (others.drop k) selected
    rwa [hsplit, hlen] at hinsert
  · rw [drop_eq_getElem_cons hlt, map_cons, head?_cons]
    exact congrArg some (of_decide_eq_true htgt)

lemma outboxPlace_ok (hkeyed : Keyed table)
    (h : outboxPlace table now c before = .ok (table', changed)) :
    ∃ selected front back, table.get? c = some selected ∧ selected.state = .queued ∧
      (placeSiblings table selected).filter (fun row => decide (row.commandId ≠ c)) =
        front ++ back ∧
      (back.map (·.commandId)).head? = before ∧
      table' = (((front ++ selected :: back).zip
        ((placeSiblings table selected).map (·.order))).foldl (placeSlot now) (table, false)).1 := by
  unfold outboxPlace at h
  rw [find?_rows hkeyed] at h
  split at h
  · cases h
  rename_i selected hsel
  obtain ⟨_, hedit, h⟩ := bind_ok h
  obtain ⟨insertAt, hat, h⟩ := bind_ok h
  obtain ⟨front, back, hoth, hpl, hbef⟩ := placeIndex_split hat selected
  rw [hpl] at h
  exact ⟨selected, front, back, hsel, ensureOutboxEditable_ok hedit, hoth, hbef,
    congrArg Prod.fst (Except.ok.inj h).symm⟩

lemma placed_perm (hkeyed : Keyed table) {selected : OutboxCommand}
    {front back : List OutboxCommand} (hsel : selected ∈ placeSiblings table selected)
    (hoth : (placeSiblings table selected).filter
      (fun row => decide (row.commandId ≠ selected.commandId)) = front ++ back) :
    (front ++ selected :: back).Perm (placeSiblings table selected) := by
  have hids := nodup_placeSiblings hkeyed selected
  have hfilter : (placeSiblings table selected).filter
      (fun row => decide (row.commandId ≠ selected.commandId)) =
      (placeSiblings table selected).erase selected := by
    rw [hids.of_map.erase_eq_filter]
    refine filter_congr (fun row hrow => ?_)
    have hinj : row.commandId = selected.commandId ↔ row = selected :=
      ⟨fun heq => inj_on_of_nodup_map hids hrow hsel heq, fun heq => heq ▸ rfl⟩
    simp [hinj, bne, BEq.beq]
  rw [hfilter] at hoth
  refine perm_middle.trans ?_
  rw [← hoth]
  exact (perm_cons_erase hsel).symm

lemma placed_slots (hkeyed : Keyed table) {selected : OutboxCommand}
    {placed : List OutboxCommand} (hperm : placed.Perm (placeSiblings table selected)) :
    let slots := placed.zip ((placeSiblings table selected).map (·.order))
    slots.map Prod.fst = placed ∧ slots.map Prod.snd = (placeSiblings table selected).map (·.order) ∧
      (slots.map (·.1.commandId)).Nodup ∧
      ∀ slot ∈ slots, slot.1 ∈ placeSiblings table selected ∧
        table.get? slot.1.commandId = some slot.1 := by
  intro slots
  have hlen : placed.length = ((placeSiblings table selected).map (·.order)).length := by
    rw [length_map]
    exact hperm.length_eq
  have hfst : slots.map Prod.fst = placed := map_fst_zip hlen.le
  refine ⟨hfst, map_snd_zip hlen.ge, ?_, fun slot hslot => ?_⟩
  · have hids : slots.map (·.1.commandId) = placed.map (·.commandId) := by
      rw [← hfst, map_map]
      rfl
    rw [hids]
    exact (hperm.map _).nodup_iff.mpr (nodup_placeSiblings hkeyed selected)
  · have hmem := hperm.mem_iff.mp (of_mem_zip hslot).1
    exact ⟨hmem, ((mem_placeSiblings_iff hkeyed).mp hmem).1⟩

/-- The table after a placement: `placed` is the queue, each row with the slot of its new position.
-/
structure SlotsGiven (table table' : Outbox) (now : Nat) (selected : OutboxCommand)
    (placed : List OutboxCommand) : Prop where
  perm : placed.Perm (placeSiblings table selected)
  given : ∀ slot ∈ placed.zip ((placeSiblings table selected).map (·.order)),
    table'.get? slot.1.commandId = some (slotRow now slot)
  frame : ∀ d, d ∉ queueIds table selected → table'.get? d = table.get? d

lemma outboxPlace_slots (hkeyed : Keyed table)
    (h : outboxPlace table now c before = .ok (table', changed)) :
    ∃ selected front back, table.get? c = some selected ∧ selected.state = .queued ∧
      (placeSiblings table selected).filter (fun row => decide (row.commandId ≠ c)) =
        front ++ back ∧
      (back.map (·.commandId)).head? = before ∧
      SlotsGiven table table' now selected (front ++ selected :: back) := by
  obtain ⟨selected, front, back, hsel, hstate, hoth, hbef, htable⟩ := outboxPlace_ok hkeyed h
  refine ⟨selected, front, back, hsel, hstate, hoth, hbef, ?_⟩
  have hid := hkeyed c selected hsel
  have hmem : selected ∈ placeSiblings table selected :=
    (mem_placeSiblings_iff hkeyed).mpr ⟨hid.symm ▸ hsel, hstate, rfl, rfl⟩
  rw [← hid] at hoth
  have hperm := placed_perm hkeyed hmem hoth
  obtain ⟨hfst, -, hnodup, hrows⟩ := placed_slots hkeyed hperm
  obtain ⟨hgiven, hframe⟩ := @foldl_placeSlot_get? now _ (table, false) hnodup
    (fun slot hslot => (hrows slot hslot).2)
  refine ⟨hperm, fun slot hslot => htable ▸ hgiven slot hslot, fun d hd => ?_⟩
  rw [htable]
  refine hframe d (fun hmem => hd ?_)
  obtain ⟨slot, hslot, rfl⟩ := mem_map.mp hmem
  exact mem_map.mpr ⟨slot.1, (hrows slot hslot).1, rfl⟩

namespace SlotsGiven

variable {selected : OutboxCommand} {placed : List OutboxCommand}

lemma mem_queue (hgiven : SlotsGiven table table' now selected placed) (hkeyed : Keyed table)
    {d : String} {row : OutboxCommand} (hrow : table'.get? d = some row)
    (hd : d ∈ queueIds table selected) :
    ∃ slot ∈ placed.zip ((placeSiblings table selected).map (·.order)),
      slot.1.commandId = d ∧ row = slotRow now slot := by
  obtain ⟨hfst, -, -, -⟩ := placed_slots hkeyed hgiven.perm
  obtain ⟨old, hold, hid⟩ := mem_map.mp hd
  rw [← hgiven.perm.mem_iff, ← hfst] at hold
  obtain ⟨slot, hslot, rfl⟩ := mem_map.mp hold
  refine ⟨slot, hslot, hid, ?_⟩
  have hnew := hgiven.given slot hslot
  rw [hid, hrow] at hnew
  exact Option.some.inj hnew

/-- Slots are handed out once: two rows of the queue that get one order below the maximum
are the same row. -/
lemma slot_unique (hkeyed : Keyed table) (hdistinct : DistinctOrders table)
    {s t : OutboxCommand × Nat}
    (hs : s ∈ placed.zip ((placeSiblings table selected).map (·.order)))
    (ht : t ∈ placed.zip ((placeSiblings table selected).map (·.order)))
    (heq : s.2 = t.2) (hlt : s.2 < max64) : s = t := by
  obtain ⟨i, hi, rfl⟩ := mem_iff_getElem.mp hs
  obtain ⟨j, hj, rfl⟩ := mem_iff_getElem.mp ht
  rw [getElem_zip, getElem_zip] at heq
  rw [getElem_zip] at hlt
  simp only [getElem_map] at heq hlt
  rw [length_zip, length_map] at hi hj
  have hrow : ∀ k (hk : k < (placeSiblings table selected).length),
      table.get? (placeSiblings table selected)[k].commandId =
        some (placeSiblings table selected)[k] :=
    fun k hk => ((mem_placeSiblings_iff hkeyed).mp (getElem_mem hk)).1
  have hid := hdistinct _ _ _ _ (hrow i (by omega)) (hrow j (by omega)) heq hlt
  have hij : i = j := by
    refine (getElem?_inj ?_ (nodup_placeSiblings hkeyed selected)).mp ?_
    · rw [length_map]
      omega
    · rw [getElem?_map, getElem?_map, getElem?_eq_getElem (by omega),
        getElem?_eq_getElem (by omega)]
      exact congrArg some hid
  subst hij
  rfl

section

variable (hgiven : SlotsGiven table table' now selected placed)
include hgiven

lemma distinctOrders
    (hkeyed : Keyed table) (hdistinct : DistinctOrders table) : DistinctOrders table' := by
  -- A row of the queue and one outside it: the slot belonged to a row of the old queue.
  have hmixed : ∀ c d row row', table'.get? c = some row → table'.get? d = some row' →
      row.order = row'.order → row.order < max64 →
      c ∈ queueIds table selected → d ∉ queueIds table selected → False := by
    intro c d row row' hrow hrow' heq hlt hc hd
    obtain ⟨slot, hslot, -, rfl⟩ := hgiven.mem_queue hkeyed hrow hc
    obtain ⟨old, hold, horder⟩ := mem_map.mp (of_mem_zip hslot).2
    rw [slotRow_order] at heq hlt
    rw [hgiven.frame d hd] at hrow'
    have hget := ((mem_placeSiblings_iff hkeyed).mp hold).1
    have hid := hdistinct _ _ _ _ hget hrow' (horder.trans heq) (horder ▸ hlt)
    exact hd (mem_map.mpr ⟨old, hold, hid⟩)
  intro c d row row' hrow hrow' heq hlt
  by_cases hc : c ∈ queueIds table selected
  · by_cases hd : d ∈ queueIds table selected
    · obtain ⟨s, hs, hsid, rfl⟩ := hgiven.mem_queue hkeyed hrow hc
      obtain ⟨t, ht, htid, rfl⟩ := hgiven.mem_queue hkeyed hrow' hd
      rw [slotRow_order, slotRow_order] at heq
      rw [slotRow_order] at hlt
      rw [← hsid, ← htid, slot_unique hkeyed hdistinct hs ht heq hlt]
    · exact (hmixed c d row row' hrow hrow' heq hlt hc hd).elim
  by_cases hd : d ∈ queueIds table selected
  · exact (hmixed d c row' row hrow' hrow heq.symm (heq ▸ hlt) hd hc).elim
  · rw [hgiven.frame c hc] at hrow
    rw [hgiven.frame d hd] at hrow'
    exact hdistinct c d row row' hrow hrow' heq hlt

lemma counterBelowMax
    (hkeyed : Keyed table) (hbelow : CounterBelowMax table) : CounterBelowMax table' := by
  intro d row hrow
  by_cases hd : d ∈ queueIds table selected
  · obtain ⟨slot, hslot, -, rfl⟩ := hgiven.mem_queue hkeyed hrow hd
    obtain ⟨old, hold, horder⟩ := mem_map.mp (of_mem_zip hslot).2
    rw [slotRow_order, ← horder]
    exact hbelow _ _ ((mem_placeSiblings_iff hkeyed).mp hold).1
  · exact hbelow d row (hgiven.frame d hd ▸ hrow)

lemma placeSiblings_eq
    (hkeyed : Keyed table) (hkeyed' : Keyed table') (hdistinct : DistinctOrders table)
    (hbelow : CounterBelowMax table) :
    placeSiblings table' selected =
      (placed.zip ((placeSiblings table selected).map (·.order))).map (slotRow now) := by
  obtain ⟨hfst, hsnd, -, hrows⟩ := placed_slots hkeyed hgiven.perm
  have hbelow' : CounterBelowMax table' := hgiven.counterBelowMax hkeyed hbelow
  refine eq_of_strict
    (placeSiblings_strict (hgiven.distinctOrders hkeyed hdistinct) hbelow' selected) ?_ ?_
  · have hslots := placeSiblings_strict hdistinct hbelow selected
    rw [← pairwise_map (f := fun row : OutboxCommand => row.order) (R := (· < ·)), ← hsnd,
      pairwise_map] at hslots
    refine pairwise_map.mpr (hslots.imp (fun h => ?_))
    rw [slotRow_order, slotRow_order]
    exact h
  intro row
  rw [mem_placeSiblings_iff hkeyed', mem_map]
  constructor
  · rintro ⟨hrow, hqueue⟩
    by_cases hd : row.commandId ∈ queueIds table selected
    · obtain ⟨slot, hslot, -, heq⟩ := hgiven.mem_queue hkeyed hrow hd
      exact ⟨slot, hslot, heq.symm⟩
    · rw [hgiven.frame _ hd] at hrow
      exact absurd (mem_map.mpr ⟨row, (mem_placeSiblings_iff hkeyed).mpr ⟨hrow, hqueue⟩, rfl⟩) hd
  rintro ⟨slot, hslot, rfl⟩
  obtain ⟨-, hqueue⟩ := (mem_placeSiblings_iff hkeyed).mp (hrows slot hslot).1
  obtain ⟨hstate, hthr, howner⟩ := slotRow_queue now slot
  rw [slotRow_commandId, hstate, hthr, howner]
  exact ⟨hgiven.given slot hslot, hqueue⟩

end

end SlotsGiven

lemma outboxPlace_placed (hkeyed : Keyed table) (hdistinct : DistinctOrders table)
    (hbelow : CounterBelowMax table)
    (h : outboxPlace table now c before = .ok (table', changed)) :
    ∃ selected, table.get? c = some selected ∧ selected.state = .queued ∧
      IsPlaced table table' now selected before := by
  have hkeyed' : Keyed table' := hkeyed.of_rowChange (fun d => place_row hkeyed h)
  obtain ⟨selected, front, back, hsel, hstate, hoth, hbef, hgiven⟩ :=
    outboxPlace_slots hkeyed h
  refine ⟨selected, hsel, hstate, ?_⟩
  have hid := hkeyed c selected hsel
  have hqueue := hgiven.placeSiblings_eq hkeyed hkeyed' hdistinct hbelow
  obtain ⟨hfst, hsnd, -, -⟩ := placed_slots hkeyed hgiven.perm
  have hids : queueIds table' selected = (front ++ selected :: back).map (·.commandId) := by
    rw [queueIds, hqueue, map_map]
    refine Eq.trans ?_ (congrArg (map (fun row : OutboxCommand => row.commandId)) hfst)
    rw [map_map]
    exact map_congr_left (fun slot _ => slotRow_commandId now slot)
  refine ⟨⟨front.map (·.commandId), back.map (·.commandId), ?_, ?_, hbef⟩, ?_, ?_, ?_⟩
  · rw [← map_append, ← hoth, queueIds,
      (nodup_placeSiblings hkeyed selected).erase_eq_filter, filter_map, hid]
    refine congrArg _ (filter_congr (fun row _ => ?_))
    simp [bne, BEq.beq]
  · rw [hids, map_append, map_cons]
  · rw [hqueue, map_map]
    refine Eq.trans ?_ hsnd
    exact map_congr_left (fun slot _ => slotRow_order now slot)
  · intro row hrow
    rw [← hgiven.perm.mem_iff, ← hfst] at hrow
    obtain ⟨slot, hslot, rfl⟩ := mem_map.mp hrow
    exact ⟨slot.2, hgiven.given slot hslot⟩
  · exact hgiven.frame

lemma placeIndex_isOk : (∃ k, placeIndex others before = .ok k) ↔
      ∀ target, before = some target → ∃ row ∈ others, row.commandId = target := by
  cases before with
  | none => exact ⟨fun _ _ h => (nomatch h), fun _ => ⟨_, rfl⟩⟩
  | some target =>
  unfold placeIndex
  dsimp only
  cases hfind : others.findIdx? (fun row => decide (row.commandId = target)) with
  | none =>
    rw [findIdx?_eq_none_iff] at hfind
    refine ⟨fun ⟨_, h⟩ => (nomatch h), fun h => ?_⟩
    obtain ⟨row, hrow, hid⟩ := h target rfl
    exact absurd hid (by simpa using hfind row hrow)
  | some i =>
  obtain ⟨hlt, htgt, -⟩ := findIdx?_eq_some_iff_getElem.mp hfind
  refine ⟨fun _ target' h => ?_, fun _ => ⟨i, rfl⟩⟩
  cases h
  exact ⟨_, getElem_mem hlt, of_decide_eq_true htgt⟩

/-- A placement goes through exactly for queued commands of one thread and owner. -/
lemma outboxPlace_isOk (hkeyed : Keyed table) : (∃ r, outboxPlace table now c before = .ok r) ↔
      ∃ selected, table.get? c = some selected ∧ selected.state = .queued ∧
        ∀ target, before = some target → target ≠ c ∧ target ∈ queueIds table selected := by
  have htgt : ∀ selected : OutboxCommand, (∃ k, placeIndex ((placeSiblings table selected).filter
        (fun row => decide (row.commandId ≠ c))) before = .ok k) ↔
      ∀ target, before = some target → target ≠ c ∧ target ∈ queueIds table selected := by
    intro selected
    rw [placeIndex_isOk]
    refine forall_congr' (fun target => imp_congr_right (fun _ => ?_))
    constructor
    · rintro ⟨row, hrow, rfl⟩
      obtain ⟨hmem, hne⟩ := mem_filter.mp hrow
      exact ⟨of_decide_eq_true hne, mem_map_of_mem hmem⟩
    · rintro ⟨hne, hmem⟩
      obtain ⟨row, hrow, rfl⟩ := mem_map.mp hmem
      exact ⟨row, mem_filter.mpr ⟨hrow, decide_eq_true hne⟩, rfl⟩
  unfold outboxPlace
  rw [find?_rows hkeyed]
  cases hsel : table.get? c with
  | none => exact ⟨fun ⟨_, h⟩ => (nomatch h), fun ⟨_, h, _⟩ => nomatch h⟩
  | some selected =>
  dsimp only
  constructor
  · rintro ⟨r, h⟩
    obtain ⟨_, hedit, h⟩ := bind_ok h
    obtain ⟨k, hk, -⟩ := bind_ok h
    exact ⟨selected, rfl, ensureOutboxEditable_ok hedit, (htgt selected).mp ⟨k, hk⟩⟩
  rintro ⟨selected', heq, hstate, hbef⟩
  cases heq
  obtain ⟨k, hk⟩ := (htgt selected).mpr hbef
  have hedit : ensureOutboxEditable selected = .ok () := if_neg (not_not.mpr hstate)
  rw [hedit, hk]
  exact ⟨_, rfl⟩

end Placement

/-! ## Admission -/

section Admission

variable {enc : Encoding} {table table' : Outbox} {now : Nat}

lemma le_foldl_max (l : List (String × OutboxCommand)) (m : Nat) :
    m ≤ l.foldl (fun m e => max m e.2.order) m ∧
      ∀ e ∈ l, e.2.order ≤ l.foldl (fun m e => max m e.2.order) m := by
  induction l generalizing m with
  | nil => exact ⟨le_refl m, by simp⟩
  | cons e rest ih =>
  obtain ⟨hstart, hrest⟩ := ih (max m e.2.order)
  rw [foldl_cons]
  refine ⟨le_trans (le_max_left _ _) hstart, fun e' he' => ?_⟩
  rcases mem_cons.mp he' with rfl | he'
  · exact le_trans (le_max_right _ _) hstart
  · exact hrest e' he'

lemma foldl_max_lt {l : List (String × OutboxCommand)} {m k : Nat} (hm : m < k)
    (h : ∀ e ∈ l, e.2.order < k) : l.foldl (fun m e => max m e.2.order) m < k := by
  induction l generalizing m with
  | nil => exact hm
  | cons e rest ih =>
    rw [foldl_cons]
    exact ih (max_lt hm (h e mem_cons_self)) (fun e' he' => h e' (mem_cons_of_mem _ he'))

variable {metadata : OutboxPutMetadata}

variable {command : OutboxCommand}

lemma outboxPut_ok {c thread : String} {params : Json} (hnew : table.get? c = none)
    (h : outboxPutTurnStart enc table now c thread params metadata = .ok (table', command)) :
    table' = (pruneDeliveredOutboxReceipts table).1.insert c command ∧
      command.order = add64 (table.entries.foldl (fun m e => max m e.2.order) 0) 1 := by
  unfold outboxPutTurnStart at h
  rw [hnew] at h
  obtain ⟨_, -, h⟩ := bind_ok h
  obtain ⟨_, -, h⟩ := bind_ok h
  obtain ⟨_, -, h⟩ := bind_ok h
  obtain ⟨_, -, h⟩ := bind_ok h
  split at h
  · cases h
  · obtain ⟨_, -, h⟩ := bind_ok h
    cases h
    exact ⟨rfl, rfl⟩

lemma outboxPut_order (hbelow : CounterBelowMax table) {c thread : String} {params : Json}
    (hnew : table.get? c = none)
    (h : outboxPutTurnStart enc table now c thread params metadata = .ok (table', command)) :
    table'.get? c = some command ∧
      ∀ d row, table.get? d = some row → row.order < command.order := by
  obtain ⟨rfl, horder⟩ := outboxPut_ok hnew h
  refine ⟨get?_insert_self _ _ _, fun d row hrow => ?_⟩
  have hle := (le_foldl_max table.entries 0).2 (d, row) (mem_entries_iff.mpr hrow)
  have hlt : table.entries.foldl (fun m e => max m e.2.order) 0 < max64 :=
    foldl_max_lt (by decide) (counterBelowMax_iff.mp hbelow)
  rw [add64_of_le (by omega)] at horder
  dsimp only at hle
  omega

section

variable (hdistinct : DistinctOrders table)
include hdistinct

lemma DistinctOrders.of_kept (hkept : ∀ c row, table'.get? c = some row →
      ∃ old, table.get? c = some old ∧ old.order = row.order) : DistinctOrders table' := by
  intro c d row row' hrow hrow' heq hlt
  obtain ⟨old, hold, horder⟩ := hkept c row hrow
  obtain ⟨old', hold', horder'⟩ := hkept d row' hrow'
  exact hdistinct c d old old' hold hold' (by omega) (by omega)

lemma prune_distinctOrders : DistinctOrders (pruneDeliveredOutboxReceipts table).1 := by
  refine hdistinct.of_kept (fun c row hrow => ⟨row, ?_, rfl⟩)
  rcases pruneDelivered_row table c with h | ⟨h, -⟩
  · rw [← h, hrow]
  · rw [h] at hrow
    cases hrow

variable {command : OutboxCommand}

lemma DistinctOrders.insert {c : String}
    (hfresh : ∀ d row, table.get? d = some row → row.order = command.order →
      command.order < max64 → d = c) : DistinctOrders (table.insert c command) := by
  intro d d' row row' hrow hrow' heq hlt
  rw [get?_insert] at hrow hrow'
  split at hrow
  · rename_i hd
    cases hrow
    split at hrow'
    · rename_i hd'
      rw [hd, hd']
    · rw [hd]
      exact (hfresh d' row' hrow' heq.symm hlt).symm
  split at hrow'
  · rename_i hd'
    cases hrow'
    rw [hd']
    exact hfresh d row hrow heq (heq ▸ hlt)
  · exact hdistinct d d' row row' hrow hrow' heq hlt

lemma put_distinctOrders {c thread : String} {params : Json} (hnew : table.get? c = none)
    (h : outboxPutTurnStart enc table now c thread params metadata = .ok (table', command)) :
    DistinctOrders table' := by
  obtain ⟨rfl, horder⟩ := outboxPut_ok hnew h
  refine (prune_distinctOrders hdistinct).insert (fun d row hrow heq hlt => ?_)
  -- The saturated sum is the maximum; any other one is above every row.
  have hrow' : table.get? d = some row := by
    rcases pruneDelivered_row table d with h | ⟨h, -⟩
    · rw [← h, hrow]
    · rw [h] at hrow
      cases hrow
  have hle := (le_foldl_max table.entries 0).2 (d, row) (mem_entries_iff.mpr hrow')
  unfold add64 at horder
  dsimp only at hle
  omega

end

end Admission

/-! ## Every run -/

section Runs

variable {enc : Encoding} {table : Outbox} {now : Nat}

@[simp] lemma markClaimResolved_order (row : OutboxCommand) :
    (markClaimResolved row).order = row.order := rfl

@[simp] lemma applyResolution_order (row : OutboxCommand) (resolution : OutboxClaimResolution) :
    (applyResolution row now resolution).order = row.order := by
  cases resolution <;> rfl

@[simp] lemma settleClaim_order (state : OutboxState) (row : OutboxCommand) :
    (settleClaim state row).order = row.order := by
  unfold settleClaim
  split <;> rfl

lemma RowChange.order {op : OutboxOp} {c : String} {row row' : OutboxCommand}
    (h : RowChange op now c (some row) (some row')) (hop : ∀ d before, op ≠ .place d before) :
    row'.order = row.order := by
  cases h with
  | same | claim | fail | recover | retry | edit => rfl
  | resolve => simp [resolvedRow]
  | setState => simp [setStateUpdate]
  | defer => simp [deferUpdate]
  | wait => simp [waitUpdate]
  | place h => exact absurd h (hop _ _)

lemma run_distinctOrders (hkeyed : Keyed table) (hdistinct : DistinctOrders table)
    (op : OutboxOp) : DistinctOrders (op.run enc table now).1 := by
  -- Any operation but a new put and a placement keeps the orders of its rows.
  have hkept : (∀ d before, op ≠ .place d before) →
      (∀ c thread params metadata, op = .put c thread params metadata →
        (table.get? c).isSome = true) → DistinctOrders (op.run enc table now).1 := by
    intro hplace hput
    refine hdistinct.of_kept (fun c row hrow => ?_)
    have hchg := @run_row enc table now hkeyed op c
    rw [hrow] at hchg
    cases hold : table.get? c with
    | none =>
      rw [hold] at hchg
      cases hchg with
      | put hop =>
      have hsome := hput _ _ _ _ hop
      rw [hold] at hsome
      cases hsome
    | some old =>
      rw [hold] at hchg
      exact ⟨old, rfl, (hchg.order hplace).symm⟩
  by_cases hop : (∃ d before, op = .place d before) ∨
      ∃ c thread params metadata, op = .put c thread params metadata ∧ table.get? c = none
  · cases hrun : op.transact enc table now with
    | error e =>
      rw [OutboxOp.run, hrun]
      exact hdistinct
    | ok r =>
    obtain ⟨table', a⟩ := r
    rw [OutboxOp.run, hrun]
    change DistinctOrders table'
    rcases hop with ⟨d, before, rfl⟩ | ⟨c, thread, params, metadata, rfl, hnew⟩
    · obtain ⟨selected, front, back, -, -, -, -, hgiven⟩ := outboxPlace_slots hkeyed hrun
      exact hgiven.distinctOrders hkeyed hdistinct
    · exact put_distinctOrders hdistinct hnew hrun
  · push Not at hop
    refine hkept hop.1 (fun c thread params metadata heq => ?_)
    exact Option.isSome_iff_ne_none.mpr (hop.2 c thread params metadata heq)

lemma exec_ordered {start : Outbox} (hkeyed : Keyed start) (hdistinct : DistinctOrders start)
    (steps : List (Nat × OutboxOp)) :
    Keyed (exec (outboxStep enc) start steps) ∧
      DistinctOrders (exec (outboxStep enc) start steps) :=
  exec_invariant (P := fun table => Keyed table ∧ DistinctOrders table)
    (fun _ i h => ⟨run_keyed h.1 i.2, run_distinctOrders h.1 h.2 i.2⟩) ⟨hkeyed, hdistinct⟩ steps

end Runs

/-! ## Heads -/

section Heads

variable {table : Outbox} {now : Nat} {command : OutboxCommand}

/-- The least-order unfinished command of a thread. -/
structure IsHead (table : Outbox) (thread : String) (head : OutboxCommand) : Prop where
  stored : ∃ c, table.get? c = some head
  ofThread : head.remoteThreadId = thread
  unfinished : isTerminal head = false
  least : ∀ c row, table.get? c = some row → row.remoteThreadId = thread →
    isTerminal row = false → head.order ≤ row.order

variable {heads : List OutboxCommand}

lemma pushHead_threads (h : heads.Pairwise (fun a b => a.remoteThreadId ≠ b.remoteThreadId)) :
    (pushHead heads command).Pairwise (fun a b => a.remoteThreadId ≠ b.remoteThreadId) := by
  unfold pushHead
  split
  · exact h
  split
  · exact h
  rename_i hnone
  refine pairwise_append.mpr ⟨h, pairwise_singleton _ _, ?_⟩
  intro head hhead row hrow
  rw [mem_singleton.mp hrow]
  exact fun heq => hnone (any_eq_true.mpr ⟨head, hhead, decide_eq_true heq⟩)

lemma foldl_pushHead_threads (l : List OutboxCommand)
    (h : heads.Pairwise (fun a b => a.remoteThreadId ≠ b.remoteThreadId)) :
    (l.foldl pushHead heads).Pairwise (fun a b => a.remoteThreadId ≠ b.remoteThreadId) := by
  induction l generalizing heads with
  | nil => exact h
  | cons row rest ih => exact ih (pushHead_threads h)

lemma mem_pushHead {row : OutboxCommand} :
    command ∈ pushHead heads row ↔ command ∈ heads ∨ command = row ∧ isTerminal row = false ∧
      ∀ head ∈ heads, head.remoteThreadId ≠ row.remoteThreadId := by
  unfold pushHead
  cases hterminal : isTerminal row with
  | true => simp
  | false =>
  rw [if_neg Bool.false_ne_true]
  split
  · rename_i hany
    obtain ⟨head, hhead, hthr⟩ := any_eq_true.mp hany
    refine ⟨.inl, ?_⟩
    rintro (h | ⟨-, -, hfree⟩)
    · exact h
    · exact absurd (of_decide_eq_true hthr) (hfree head hhead)
  rename_i hany
  rw [mem_append, mem_singleton]
  refine or_congr_right ⟨fun h => ⟨h, rfl, fun head hhead heq => hany ?_⟩, And.left⟩
  exact any_eq_true.mpr ⟨head, hhead, decide_eq_true heq⟩

lemma mem_foldl_pushHead {l heads : List OutboxCommand} :
    command ∈ l.foldl pushHead heads ↔ command ∈ heads ∨
      ∃ front back, l = front ++ command :: back ∧ isTerminal command = false ∧
        (∀ head ∈ heads, head.remoteThreadId ≠ command.remoteThreadId) ∧
        ∀ row ∈ front, isTerminal row = false → row.remoteThreadId ≠ command.remoteThreadId := by
  induction l generalizing heads with
  | nil => simp
  | cons row rest ih =>
  rw [foldl_cons, ih]
  constructor
  · rintro (h | ⟨front, back, hrest, hlive, hheads, hfront⟩)
    · rcases mem_pushHead.mp h with h | ⟨rfl, hlive, hfree⟩
      · exact .inl h
      · exact .inr ⟨[], rest, rfl, hlive, hfree, by simp⟩
    refine .inr ⟨row :: front, back, by rw [hrest]; rfl, hlive, ?_, ?_⟩
    · exact fun head hhead => hheads head (mem_pushHead.mpr (.inl hhead))
    intro r hr hrlive
    rcases mem_cons.mp hr with rfl | hr
    · -- The row is a head itself, or its thread has one already.
      by_cases hfree : ∀ head ∈ heads, head.remoteThreadId ≠ r.remoteThreadId
      · exact hheads r (mem_pushHead.mpr (.inr ⟨rfl, hrlive, hfree⟩))
      push Not at hfree
      obtain ⟨head, hhead, heq⟩ := hfree
      rw [← heq]
      exact hheads head (mem_pushHead.mpr (.inl hhead))
    · exact hfront r hr hrlive
  rintro (h | ⟨front, back, hlist, hlive, hheads, hfront⟩)
  · exact .inl (mem_pushHead.mpr (.inl h))
  cases front with
  | nil =>
    obtain ⟨rfl, rfl⟩ := cons.inj hlist
    exact .inl (mem_pushHead.mpr (.inr ⟨rfl, hlive, hheads⟩))
  | cons r front =>
  obtain ⟨rfl, rfl⟩ := cons.inj hlist
  refine .inr ⟨front, back, rfl, hlive, fun head hhead => ?_,
    fun r' hr' => hfront r' (mem_cons_of_mem _ hr')⟩
  rcases mem_pushHead.mp hhead with hhead | ⟨rfl, hrow, -⟩
  · exact hheads head hhead
  · exact hfront head mem_cons_self hrow

lemma mem_outboxHeads (hdistinct : DistinctOrders table) (hbelow : CounterBelowMax table) :
    command ∈ outboxHeads table ↔ IsHead table command.remoteThreadId command := by
  have hstr := outboxList_strict hdistinct hbelow
  rw [outboxHeads, mem_foldl_pushHead]
  constructor
  · rintro (h | ⟨front, back, hlist, hlive, -, hfront⟩)
    · cases h
    rw [hlist] at hstr
    refine ⟨mem_outboxList.mp (by simp [hlist]), rfl, hlive, fun d row hrow hthr hopen => ?_⟩
    have hin := mem_outboxList.mpr ⟨d, hrow⟩
    rw [hlist, mem_append, mem_cons] at hin
    rcases hin with hin | rfl | hin
    · exact absurd hthr (hfront row hin hopen)
    · exact le_refl _
    · exact (rel_of_pairwise_cons (pairwise_append.mp hstr).2.1 hin).le
  intro hhead
  obtain ⟨front, back, hlist⟩ := append_of_mem (mem_outboxList.mpr hhead.stored)
  refine .inr ⟨front, back, hlist, hhead.unfinished, by simp, fun row hin hopen hthr => ?_⟩
  -- A row in front of the head has a smaller order.
  rw [hlist] at hstr
  have hlt := (pairwise_append.mp hstr).2.2 row hin command mem_cons_self
  obtain ⟨d, hrow⟩ := mem_outboxList.mp (show row ∈ outboxList table none by simp [hlist, hin])
  have hle := hhead.least d row hrow hthr hopen
  omega

lemma mem_outboxReadyHeads (hdistinct : DistinctOrders table) (hbelow : CounterBelowMax table) :
    command ∈ outboxReadyHeads table now ↔
      IsHead table command.remoteThreadId command ∧ command.nextAttemptAt ≤ now ∧
        outboxHasInFlightClaim command = false := by
  rw [outboxReadyHeads, mem_filter, mem_outboxHeads hdistinct hbelow]
  simp

lemma outboxReadyHeads_threads :
    (outboxReadyHeads table now).Pairwise (fun a b => a.remoteThreadId ≠ b.remoteThreadId) :=
  (foldl_pushHead_threads _ List.Pairwise.nil).sublist filter_sublist

end Heads

/-! ## The order over whole runs -/

/-- No two rows share an order, a new row comes last, and a placement moves only its command. -/
theorem outbox_order_of_run (enc : Encoding) {start : Outbox} (hkeyed : Keyed start)
    (hdistinct : DistinctOrders start) (steps : List (Nat × OutboxOp))
    (hbelow : CounterBelowMax (exec (outboxStep enc) start steps)) :
    ∀ table, table = exec (outboxStep enc) start steps →
      (table.entries.map (·.2.order)).Nodup ∧
      (∀ now c thread params metadata table' command, table.get? c = none →
        outboxPutTurnStart enc table now c thread params metadata = .ok (table', command) →
        table'.get? c = some command ∧
          ∀ d row, table.get? d = some row → row.order < command.order) ∧
      (∀ now c before, (∃ r, outboxPlace table now c before = .ok r) ↔
        ∃ selected, table.get? c = some selected ∧ selected.state = .queued ∧
          ∀ target, before = some target → target ≠ c ∧ target ∈ queueIds table selected) ∧
      (∀ now c before table' changed, outboxPlace table now c before = .ok (table', changed) →
        ∃ selected, table.get? c = some selected ∧ selected.state = .queued ∧
          IsPlaced table table' now selected before) ∧
      ∀ now, (outboxReadyHeads table now).Pairwise
          (fun a b => a.remoteThreadId ≠ b.remoteThreadId) ∧
        ∀ command, command ∈ outboxReadyHeads table now ↔
          IsHead table command.remoteThreadId command ∧ command.nextAttemptAt ≤ now ∧
            outboxHasInFlightClaim command = false := by
  rintro table rfl
  obtain ⟨hkey, hdist⟩ := @exec_ordered enc start hkeyed hdistinct steps
  refine ⟨?_, ?_, ?_, ?_, ?_⟩
  · have hnodup := nodup_orders hdist hbelow
    rwa [map_map] at hnodup
  · intro now c thread params metadata table' command hnew h
    exact outboxPut_order hbelow hnew h
  · intro now c before
    exact outboxPlace_isOk hkey
  · intro now c before table' changed h
    exact outboxPlace_placed hkey hdist hbelow h
  · intro now
    exact ⟨outboxReadyHeads_threads, fun command => mem_outboxReadyHeads hdist hbelow⟩

def threePrompts : List (Nat × OutboxOp) :=
  [(1, putPrompt "a" "t" "hi"), (2, putPrompt "b" "t" "there"), (3, putPrompt "c" "t" "you")]

/-- The last of three prompts is moved to the front. -/
theorem outbox_order_of_moved_prompt :
    ∃ selected, IsPlaced (exec (outboxStep ⟨fun _ => 0, fun _ => 0⟩) ∅ threePrompts)
      (exec (outboxStep ⟨fun _ => 0, fun _ => 0⟩) ∅ (threePrompts ++ [(4, .place "c" (some "a"))]))
      4 selected (some "a") := by
  have hrun : outboxPlace (exec (outboxStep ⟨fun _ => 0, fun _ => 0⟩) ∅ threePrompts) 4 "c"
      (some "a") = .ok (exec (outboxStep ⟨fun _ => 0, fun _ => 0⟩) ∅
        (threePrompts ++ [(4, .place "c" (some "a"))]), true) := by decide
  have hplace := (outbox_order_of_run ⟨fun _ => 0, fun _ => 0⟩ keyed_empty distinctOrders_empty
    threePrompts (counterBelowMax_iff.mpr (by decide)) _ rfl).2.2.2.1
  obtain ⟨selected, -, -, hpl⟩ := hplace 4 "c" (some "a") _ true hrun
  exact ⟨selected, hpl⟩

/-- A cancelled command's order is given again. -/
theorem cancelled_order_given_again :
    ¬ ∀ (enc : Encoding) (before after : List (Nat × OutboxOp)) (now : Nat) (c thread : String)
      (params : Json) (metadata : OutboxPutMetadata) (table' : Outbox) (command : OutboxCommand)
      (d : String) (row : OutboxCommand),
      (exec (outboxStep enc) ∅ before).get? d = some row →
      CounterBelowMax (exec (outboxStep enc) ∅ (before ++ after)) →
      (exec (outboxStep enc) ∅ (before ++ after)).get? c = none →
      outboxPutTurnStart enc (exec (outboxStep enc) ∅ (before ++ after)) now c thread params
        metadata = .ok (table', command) →
      row.order < command.order := by
  intro h
  have hlt := h ⟨fun _ => 0, fun _ => 0⟩ [(1, putPrompt "a" "t" "hi")] [(2, .cancel "a")] 3 "b" "t"
    (promptParams "b" "t" "hi") ⟨none, .queue, none⟩ (insert ∅ "b" (promptRow "b" "t" "hi" 3))
    (promptRow "b" "t" "hi" 3) "a" (promptRow "a" "t" "hi" 1) (by decide)
    (counterBelowMax_iff.mpr (by decide)) (by decide) (by decide)
  exact absurd hlt (by decide)

end CodeWide.Store
