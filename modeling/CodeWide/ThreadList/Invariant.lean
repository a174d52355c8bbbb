import CodeWide.Lib.Run
import CodeWide.ThreadList.Rows

/-!
# The row store keeps its three collections together

`RowStore.Inv` couples the rows, the eviction index and the tombstones.
-/

namespace CodeWide.ThreadList

open Lib List Table RowStore

namespace RowStore

structure Inv (s : RowStore) : Prop where
  indexed : ∀ c id, s.byCursor.get? (toLex (c, id)) = some () ↔
    ∃ row, s.rows.get? id = some row ∧ row.rowMeta.cursor = c
  disjoint : ∀ id row, s.rows.get? id = some row → s.tombstones.get? id = none
  order : s.tombstoneOrder.Perm (s.tombstones.entries.map Prod.fst)
  rowCap : s.rows.size ≤ maxTrackedRows
  tombstoneCap : s.tombstones.size ≤ maxTombstones

lemma inv_empty : empty.Inv where
  indexed := by simp [empty]
  disjoint := by simp [empty]
  order := List.Perm.refl _
  rowCap := Nat.zero_le _
  tombstoneCap := Nat.zero_le _

/-! ## Dropping a row and its tombstone -/

section Drop

variable {s : RowStore} {id : String}

@[simp] lemma dropRow_tombstones : (s.dropRow id).tombstones = s.tombstones := by
  unfold dropRow
  split <;> rfl

@[simp] lemma dropRow_tombstoneOrder : (s.dropRow id).tombstoneOrder = s.tombstoneOrder := by
  unfold dropRow
  split <;> rfl

lemma dropRow_rows (s : RowStore) (id : String) : (s.dropRow id).rows = s.rows.erase id := by
  unfold dropRow
  split
  · rfl
  · rename_i hnone
    rw [erase_of_none hnone]

lemma Inv.dropRow (h : s.Inv) (id : String) : (s.dropRow id).Inv := by
  refine ⟨?_, ?_, by simpa using h.order, ?_, by simpa using h.tombstoneCap⟩
  · intro c id'
    rw [dropRow_rows]
    unfold RowStore.dropRow
    split
    · rename_i previous hprev
      rw [get?_erase, get?_erase]
      by_cases hid : id' = id
      · subst hid
        simp only [if_true]
        refine iff_of_false ?_ (by simp)
        split
        · simp
        rename_i hne
        rw [h.indexed, hprev]
        rintro ⟨row, hrow, hc⟩
        cases hrow
        exact hne (by rw [hc])
      have hne : toLex (c, id') ≠ toLex (previous.rowMeta.cursor, id) := by
        intro heq
        exact hid (Prod.mk.inj (toLex.injective heq)).2
      rw [if_neg hne, if_neg hid]
      exact h.indexed c id'
    · rename_i hnone
      rw [erase_of_none hnone]
      exact h.indexed c id'
  · intro id' row hrow
    rw [dropRow_rows, get?_erase] at hrow
    split at hrow
    · cases hrow
    · rw [dropRow_tombstones]
      exact h.disjoint id' row hrow
  rw [dropRow_rows]
  cases hrow : s.rows.get? id with
  | none =>
    rw [erase_of_none hrow]
    exact h.rowCap
  | some row =>
  have hsize := size_erase_of_some hrow
  have hcap := h.rowCap
  omega

@[simp] lemma forgetTombstone_rows : (s.forgetTombstone id).rows = s.rows := by
  unfold forgetTombstone
  split <;> rfl

@[simp] lemma forgetTombstone_byCursor : (s.forgetTombstone id).byCursor = s.byCursor := by
  unfold forgetTombstone
  split <;> rfl

lemma forgetTombstone_tombstones (s : RowStore) (id : String) :
    (s.forgetTombstone id).tombstones = s.tombstones.erase id := by
  unfold forgetTombstone
  split
  · rfl
  rename_i hnot
  rw [Table.erase_of_none]
  rw [Table.contains, Bool.not_eq_true, Option.isSome_eq_false_iff, Option.isNone_iff_eq_none]
    at hnot
  exact hnot

lemma Inv.forgetTombstone (h : s.Inv) (id : String) : (s.forgetTombstone id).Inv := by
  refine ⟨?_, ?_, ?_, by simpa using h.rowCap, ?_⟩
  · simpa using h.indexed
  · intro id' row hrow
    rw [forgetTombstone_rows] at hrow
    rw [forgetTombstone_tombstones, get?_erase, h.disjoint id' row hrow]
    split <;> rfl
  · have hkeys : (s.tombstones.erase id).entries.map Prod.fst =
        (s.tombstones.entries.map Prod.fst).filter (fun k => decide (k ≠ id)) := by
      rw [filter_map]
      rfl
    unfold RowStore.forgetTombstone
    split
    · change (s.tombstoneOrder.filter _).Perm ((s.tombstones.erase id).entries.map Prod.fst)
      rw [hkeys]
      exact h.order.filter _
    · exact h.order
  rw [forgetTombstone_tombstones]
  cases htomb : s.tombstones.get? id with
  | none =>
    rw [erase_of_none htomb]
    exact h.tombstoneCap
  | some cursor =>
  have hsize := size_erase_of_some htomb
  have hcap := h.tombstoneCap
  omega

end Drop

/-! ## Eviction -/

section Evict

variable {s : RowStore}

variable (fuel : Nat)

@[simp] lemma evict_tombstones (s : RowStore) : (s.evict fuel).tombstones = s.tombstones := by
  induction fuel generalizing s with
  | zero => rfl
  | succ fuel ih =>
  unfold evict
  split
  · split
    · rfl
    · exact ih _
  · rfl

lemma evict_rows (s : RowStore) (id : String) :
    (s.evict fuel).rows.get? id = s.rows.get? id ∨ (s.evict fuel).rows.get? id = none := by
  induction fuel generalizing s with
  | zero => exact .inl rfl
  | succ fuel ih =>
  unfold evict
  split
  · split
    · exact .inl rfl
    rename_i oldest _ _
    rcases ih { s with
      byCursor := s.byCursor.erase oldest, rows := s.rows.erase (ofLex oldest).2 } with h | h
    · rw [h, get?_erase]
      split
      · exact .inr rfl
      · exact .inl rfl
    · exact .inr h
  · exact .inl rfl

lemma Inv.evictOldest (h : s.Inv) {oldest : Nat ×ₗ String} {u : Unit}
    (hfirst : s.byCursor.first? = some (oldest, u)) :
    Inv { s with byCursor := s.byCursor.erase oldest, rows := s.rows.erase (ofLex oldest).2 } ∧
      (s.rows.erase (ofLex oldest).2).size + 1 = s.rows.size := by
  have hget := first?_eq_some hfirst
  obtain ⟨row, hrow, hcursor⟩ := (h.indexed (ofLex oldest).1 (ofLex oldest).2).mp hget
  have hsize := size_erase_of_some hrow
  refine ⟨⟨?_, ?_, h.order, ?_, h.tombstoneCap⟩, hsize⟩
  · intro c id
    change (s.byCursor.erase oldest).get? (toLex (c, id)) = some () ↔
      ∃ row, (s.rows.erase (ofLex oldest).2).get? id = some row ∧ row.rowMeta.cursor = c
    rw [get?_erase, get?_erase]
    by_cases hid : id = (ofLex oldest).2
    · rw [if_pos hid]
      refine iff_of_false ?_ (by simp)
      split
      · simp
      rename_i hne
      rw [h.indexed, hid, hrow]
      rintro ⟨row', hrow', hc⟩
      cases hrow'
      apply hne
      rw [hid, ← hc, hcursor]
      rfl
    have hne : toLex (c, id) ≠ oldest := by
      intro heq
      apply hid
      rw [← heq]
      rfl
    rw [if_neg hne, if_neg hid]
    exact h.indexed c id
  · intro id row' hrow'
    change (s.rows.erase (ofLex oldest).2).get? id = some row' at hrow'
    exact h.disjoint id row' (of_get?_erase hrow').2
  · have hcap := h.rowCap
    change (s.rows.erase (ofLex oldest).2).size ≤ maxTrackedRows
    omega

lemma Inv.size_eq_zero (h : s.Inv) (hnone : s.byCursor.first? = none) : s.rows.size = 0 := by
  have hrows : ∀ id, s.rows.get? id = none := by
    intro id
    cases hrow : s.rows.get? id with
    | none => rfl
    | some row =>
    have hindex := (h.indexed row.rowMeta.cursor id).mpr ⟨row, hrow, rfl⟩
    rw [first?_eq_none hnone] at hindex
    cases hindex
  have heq : s.rows = ∅ := ext_get? (fun id => by rw [hrows id]; rfl)
  rw [heq]
  rfl

lemma Inv.evict (h : s.Inv) {fuel : Nat} (hfuel : s.byCursor.size ≤ fuel) :
    (s.evict fuel).Inv ∧ (s.evict fuel).rows.size < maxTrackedRows := by
  have hpos : 0 < maxTrackedRows := by decide
  induction fuel generalizing s with
  | zero =>
    have hnone : s.byCursor.first? = none := by
      unfold first?
      rw [head?_eq_none_iff]
      exact length_eq_zero_iff.mp (Nat.le_zero.mp hfuel)
    have hzero := h.size_eq_zero hnone
    refine ⟨h, ?_⟩
    change s.rows.size < maxTrackedRows
    omega
  | succ fuel ih =>
  unfold evict
  split
  · rename_i hfull
    split
    · rename_i hnone
      have hzero := h.size_eq_zero hnone
      omega
    rename_i oldest u hfirst
    obtain ⟨hinv, -⟩ := h.evictOldest hfirst
    have hsize := size_erase_of_some (first?_eq_some hfirst)
    refine ih hinv ?_
    change (s.byCursor.erase oldest).size ≤ fuel
    omega
  · rename_i hroom
    exact ⟨h, not_le.mp hroom⟩

end Evict

/-! ## Insertion and removal -/

section Write

variable {s : RowStore} {id : String}

def without (s : RowStore) (id : String) : RowStore := (s.dropRow id).forgetTombstone id

lemma Inv.without (h : s.Inv) (id : String) : (s.without id).Inv :=
  (h.dropRow id).forgetTombstone id

lemma without_rows (s : RowStore) (id : String) : (s.without id).rows = s.rows.erase id := by
  unfold without
  rw [forgetTombstone_rows, dropRow_rows]

lemma without_tombstones (s : RowStore) (id : String) :
    (s.without id).tombstones = s.tombstones.erase id := by
  unfold without
  rw [forgetTombstone_tombstones, dropRow_tombstones]

lemma Inv.writeRow (h : s.Inv) (hrow : s.rows.get? id = none)
    (htomb : s.tombstones.get? id = none) (hroom : s.rows.size < maxTrackedRows) (row : StoredRow) :
    Inv { s with
      byCursor := s.byCursor.insert (toLex (row.rowMeta.cursor, id)) ()
      rows := s.rows.insert id row } := by
  refine ⟨?_, ?_, h.order, ?_, h.tombstoneCap⟩
  · intro c id'
    change (s.byCursor.insert (toLex (row.rowMeta.cursor, id)) ()).get? (toLex (c, id')) = some () ↔
      ∃ row', (s.rows.insert id row).get? id' = some row' ∧ row'.rowMeta.cursor = c
    rw [get?_insert, get?_insert]
    by_cases hid : id' = id
    · subst hid
      simp only [if_true, Option.some.injEq, exists_eq_left']
      by_cases hc : c = row.rowMeta.cursor
      · simp [hc]
      have hne : toLex (c, id') ≠ toLex (row.rowMeta.cursor, id') := by
        intro heq
        exact hc (Prod.mk.inj (toLex.injective heq)).1
      rw [if_neg hne, h.indexed, hrow]
      simp [eq_comm, hc]
    have hne : toLex (c, id') ≠ toLex (row.rowMeta.cursor, id) := by
      intro heq
      exact hid (Prod.mk.inj (toLex.injective heq)).2
    rw [if_neg hne, if_neg hid]
    exact h.indexed c id'
  · intro id' row' hrow'
    change (s.rows.insert id row).get? id' = some row' at hrow'
    rcases of_get?_insert hrow' with ⟨hid, -⟩ | ⟨-, hrow'⟩
    · rw [hid]
      exact htomb
    · exact h.disjoint id' row' hrow'
  · change (s.rows.insert id row).size ≤ maxTrackedRows
    rw [size_insert_of_none row hrow]
    omega

lemma insert_rows_self (s : RowStore) (id : String) (value : Json) (m : ListRowMeta) :
    (s.insert id value m).rows.get? id = some ⟨value, m⟩ :=
  get?_insert_self _ _ _

lemma insert_rows_of_ne {id' : String} (value : Json) (m : ListRowMeta) (hid : id' ≠ id) :
    (s.insert id value m).rows.get? id' = s.rows.get? id' ∨
      (s.insert id value m).rows.get? id' = none := by
  have heq : (s.insert id value m).rows.get? id' =
      ((s.without id).evict (s.without id).byCursor.size).rows.get? id' :=
    get?_insert_of_ne _ _ hid
  rw [heq]
  have hkeep : (s.without id).rows.get? id' = s.rows.get? id' := by
    rw [without_rows, get?_erase_of_ne _ hid]
  rw [← hkeep]
  exact evict_rows _ _ _

lemma insert_tombstones (s : RowStore) (id : String) (value : Json) (m : ListRowMeta) :
    (s.insert id value m).tombstones = s.tombstones.erase id := by
  change ((s.without id).evict (s.without id).byCursor.size).tombstones = _
  rw [evict_tombstones, without_tombstones]

lemma Inv.insert (h : s.Inv) (id : String) (value : Json) (m : ListRowMeta) :
    (s.insert id value m).Inv := by
  obtain ⟨hinv, hroom⟩ := (h.without id).evict (le_refl (s.without id).byCursor.size)
  refine hinv.writeRow ?_ ?_ hroom ⟨value, m⟩
  · rcases evict_rows (s.without id).byCursor.size (s.without id) id with hrow | hrow
    · rw [hrow, without_rows, get?_erase_self]
    · exact hrow
  · rw [evict_tombstones, without_tombstones, get?_erase_self]

lemma Inv.tombstones_size (h : s.Inv) : s.tombstones.size = s.tombstoneOrder.length := by
  rw [h.order.length_eq, length_map]
  rfl

lemma Inv.dropTombstone (h : s.Inv) {oldest : String} {rest : List String}
    (horder : s.tombstoneOrder = oldest :: rest) :
    Inv { s with tombstones := s.tombstones.erase oldest, tombstoneOrder := rest } := by
  have hperm := h.order
  rw [horder] at hperm
  obtain ⟨⟨_, cursor⟩, hmem, rfl⟩ := mem_map.mp (hperm.subset mem_cons_self)
  have hget := mem_entries_iff.mp hmem
  refine ⟨h.indexed, ?_, ?_, h.rowCap, ?_⟩
  · intro id row hrow
    change (s.tombstones.erase _).get? id = none
    rw [get?_erase, h.disjoint id row hrow]
    split <;> rfl
  · have hkeys := (entries_erase_perm hget).map Prod.fst
    exact (perm_cons _).mp (hperm.trans hkeys)
  have hcap := h.tombstoneCap
  have hsize := size_erase_of_some hget
  dsimp only at hsize ⊢
  omega

@[simp] lemma trimTombstones_rows (s : RowStore) : s.trimTombstones.rows = s.rows := by
  unfold trimTombstones
  split
  · split <;> rfl
  · rfl

lemma trimTombstones_tombstones (s : RowStore) (id : String) :
    s.trimTombstones.tombstones.get? id = s.tombstones.get? id ∨
      s.trimTombstones.tombstones.get? id = none := by
  unfold trimTombstones
  split
  · split
    · rename_i oldest rest _
      change (s.tombstones.erase oldest).get? id = _ ∨ (s.tombstones.erase oldest).get? id = none
      rw [get?_erase]
      split
      · exact .inr rfl
      · exact .inl rfl
    · exact .inl rfl
  · exact .inl rfl

lemma Inv.trimTombstones (h : s.Inv) :
    s.trimTombstones.Inv ∧ s.trimTombstones.tombstones.size < maxTombstones := by
  have hpos : 0 < maxTombstones := by decide
  have hsize := h.tombstones_size
  have hcap := h.tombstoneCap
  unfold RowStore.trimTombstones
  split
  · rename_i hfull
    split
    · rename_i oldest rest horder
      have hinv := h.dropTombstone horder
      refine ⟨hinv, ?_⟩
      have hless := hinv.tombstones_size
      rw [horder, length_cons] at hsize
      dsimp only at hless ⊢
      omega
    · rename_i hnil
      rw [hnil, length_nil] at hfull
      omega
  · exact ⟨h, by omega⟩

lemma Inv.writeTombstone (h : s.Inv) (hrow : s.rows.get? id = none)
    (htomb : s.tombstones.get? id = none) (hroom : s.tombstones.size < maxTombstones)
    (cursor : Nat) :
    Inv { s with
      tombstones := s.tombstones.insert id cursor
      tombstoneOrder := s.tombstoneOrder ++ [id] } := by
  refine ⟨h.indexed, ?_, ?_, h.rowCap, ?_⟩
  · intro id' row hrow'
    change (s.tombstones.insert id cursor).get? id' = none
    rw [get?_insert]
    split
    · rename_i hid
      rw [hid, hrow] at hrow'
      cases hrow'
    · exact h.disjoint id' row hrow'
  · have hkeys := (entries_insert_perm cursor htomb).map Prod.fst
    exact (perm_append_singleton id s.tombstoneOrder).trans ((h.order.cons id).trans hkeys.symm)
  · change (s.tombstones.insert id cursor).size ≤ maxTombstones
    rw [size_insert_of_none cursor htomb]
    omega

@[simp] lemma remove_rows (s : RowStore) (id : String) (cursor : Nat) :
    (s.remove id cursor).rows = s.rows.erase id := by
  change (s.without id).trimTombstones.rows = _
  rw [trimTombstones_rows, without_rows]

lemma remove_tombstones_self (s : RowStore) (id : String) (cursor : Nat) :
    (s.remove id cursor).tombstones.get? id = some cursor :=
  get?_insert_self _ _ _

lemma Inv.remove (h : s.Inv) (id : String) (cursor : Nat) : (s.remove id cursor).Inv := by
  obtain ⟨hinv, hroom⟩ := (h.without id).trimTombstones
  refine hinv.writeTombstone ?_ ?_ hroom cursor
  · rw [trimTombstones_rows, without_rows, get?_erase_self]
  have hgone : (s.without id).tombstones.get? id = none := by
    rw [without_tombstones, get?_erase_self]
  rcases trimTombstones_tombstones (s.without id) id with htomb | htomb
  · rw [htomb, hgone]
  · exact htomb

end Write

/-! ## Updates -/

section Update

variable {s : RowStore} {id : String}

@[simp] lemma reindex_rows (s : RowStore) (id : String) (previous cursor : Nat) :
    (s.reindex id previous cursor).rows = s.rows := by
  unfold reindex
  split <;> rfl

@[simp] lemma reindex_tombstones (s : RowStore) (id : String) (previous cursor : Nat) :
    (s.reindex id previous cursor).tombstones = s.tombstones := by
  unfold reindex
  split <;> rfl

@[simp] lemma reindex_tombstoneOrder (s : RowStore) (id : String) (previous cursor : Nat) :
    (s.reindex id previous cursor).tombstoneOrder = s.tombstoneOrder := by
  unfold reindex
  split <;> rfl

lemma reindex_get? (s : RowStore) (id id' : String) (previous cursor c : Nat) :
    (s.reindex id previous cursor).byCursor.get? (toLex (c, id')) =
      if previous ≠ cursor ∧ id' = id ∧ c = cursor then some ()
      else if previous ≠ cursor ∧ id' = id ∧ c = previous then none
      else s.byCursor.get? (toLex (c, id')) := by
  have hpair : ∀ c', toLex (c, id') = toLex (c', id) ↔ c = c' ∧ id' = id := by
    intro c'
    rw [toLex.injective.eq_iff, Prod.mk.injEq]
  unfold reindex
  by_cases hsame : previous = cursor
  · simp [hsame]
  simp only [ne_eq, hsame, not_false_eq_true, if_true, true_and, get?_insert, get?_erase, hpair]
  by_cases hid : id' = id
  · simp [hid]
  · simp [hid]

lemma Inv.rewriteRow (h : s.Inv) {row : StoredRow} (hrow : s.rows.get? id = some row)
    (row' : StoredRow) :
    (({ s with rows := s.rows.insert id row' } : RowStore).reindex id row.rowMeta.cursor
      row'.rowMeta.cursor).Inv := by
  refine ⟨?_, ?_, by simpa using h.order, ?_, by simpa using h.tombstoneCap⟩
  · intro c id'
    rw [reindex_get?, reindex_rows]
    dsimp only
    rw [get?_insert]
    have hindex := h.indexed c id'
    by_cases hid : id' = id
    · subst hid
      rw [hrow] at hindex
      simp only [Option.some.injEq, exists_eq_left', true_and, if_true] at hindex ⊢
      by_cases hsame : row.rowMeta.cursor = row'.rowMeta.cursor
      · rw [if_neg (by simp [hsame]), if_neg (by simp [hsame]), hindex, hsame]
      by_cases hnew : c = row'.rowMeta.cursor
      · simp [hsame, hnew]
      by_cases hold : c = row.rowMeta.cursor
      · simp [hsame, hold, eq_comm]
      · simp only [hnew, hold, and_false, if_false, hindex]
        exact iff_of_false (fun heq => hold heq.symm) (fun heq => hnew heq.symm)
    · rw [if_neg (fun hc => hid hc.2.1), if_neg (fun hc => hid hc.2.1), if_neg hid]
      exact hindex
  · intro id' row₁ hrow₁
    rw [reindex_rows] at hrow₁
    rw [reindex_tombstones]
    dsimp only at hrow₁ ⊢
    rcases of_get?_insert hrow₁ with ⟨hid, -⟩ | ⟨-, hrow₁⟩
    · rw [hid]
      exact h.disjoint id row hrow
    · exact h.disjoint id' row₁ hrow₁
  rw [reindex_rows]
  dsimp only
  rw [size_insert_of_some row' hrow]
  exact h.rowCap

lemma applyToRow_fst (s : RowStore) (event : RowEvent) (update : RowUpdate) (nowSecs : Int)
    (row : StoredRow) :
    (s.applyToRow event update nowSecs row).1 =
      ({ s with rows := s.rows.insert event.threadId (updatedRow event update nowSecs row).1 } :
        RowStore).reindex event.threadId row.rowMeta.cursor
        (updatedRow event update nowSecs row).1.rowMeta.cursor := by
  unfold applyToRow
  dsimp only
  split <;> rfl

end Update

end RowStore

lemma le_updatedRow_cursor (event : RowEvent) (update : RowUpdate) (nowSecs : Int)
    (row : StoredRow) :
    row.rowMeta.cursor ≤ (updatedRow event update nowSecs row).1.rowMeta.cursor := by
  unfold updatedRow
  dsimp only
  split
  · exact Nat.le_max_left _ _
  · exact le_rfl

/-! ## Steps -/

inductive RowStep where
  | event (event : RowEvent) (nowSecs : Int)
  | pageRow (row : Json) (head : Nat) (archived : Bool)
  | seedRow (threadId : String) (value : Json) (head : Nat)

def RowStep.run (s : RowStore) : RowStep → RowStore
  | event e nowSecs => (s.apply e nowSecs).1
  | pageRow row head archived => (s.observeRow row head archived).1
  | seedRow threadId value head => s.seedRow threadId value head

open RowStore

section Steps

variable {s : RowStore}

lemma RowStore.Inv.apply (h : s.Inv) (e : RowEvent) (nowSecs : Int) :
    (s.apply e nowSecs).1.Inv := by
  unfold RowStore.apply
  split
  · exact h.insert _ _ _
  · exact h.remove _ _
  · exact h.remove _ _
  · exact h
  split
  · exact h
  · rename_i row hrow
    rw [applyToRow_fst]
    exact h.rewriteRow hrow _

lemma RowStore.Inv.observeRow (h : s.Inv) (row : Json) (head : Nat) (archived : Bool) :
    (s.observeRow row head archived).1.Inv := by
  unfold RowStore.observeRow
  split
  · exact h
  dsimp only
  split
  · exact h
  · split
    · exact h
    · exact h.insert _ _ _

lemma RowStore.Inv.seedRow (h : s.Inv) (id : String) (value : Json) (head : Nat) :
    (s.seedRow id value head).Inv := by
  unfold RowStore.seedRow
  split
  · exact h.insert _ _ _
  · split
    · exact h.insert _ _ _
    · exact h

lemma RowStore.Inv.step (h : s.Inv) (i : RowStep) : (i.run s).Inv := by
  cases i with
  | event e nowSecs => exact h.apply e nowSecs
  | pageRow row head archived => exact h.observeRow row head archived
  | seedRow id value head => exact h.seedRow id value head

end Steps

/-! ## Cursors -/

/-- The step lowers the cursor of no row that is tracked before and after it. -/
def NeverLowers (s : RowStore) (i : RowStep) : Prop :=
  ∀ id row row', s.rows.get? id = some row → (i.run s).rows.get? id = some row' →
    row.rowMeta.cursor ≤ row'.rowMeta.cursor

/-- The step applies no `thread/started` below the cursor of the row it replaces. -/
def StartedNotStale (s : RowStore) (i : RowStep) : Prop :=
  ∀ e nowSecs thread row, i = .event e nowSecs → e.kind = .started thread →
    s.rows.get? e.threadId = some row → row.rowMeta.cursor ≤ e.cursor

section Cursors

variable {s : RowStore}

lemma insert_neverLowers {id : String} {value : Json} {m : ListRowMeta}
    (hself : ∀ row, s.rows.get? id = some row → row.rowMeta.cursor ≤ m.cursor) :
    ∀ id' row row', s.rows.get? id' = some row → (s.insert id value m).rows.get? id' = some row' →
      row.rowMeta.cursor ≤ row'.rowMeta.cursor := by
  intro id' row row' hrow hrow'
  by_cases hid : id' = id
  · subst hid
    rw [insert_rows_self] at hrow'
    cases hrow'
    exact hself row hrow
  rcases insert_rows_of_ne value m hid with hkeep | hgone
  · rw [hkeep, hrow] at hrow'
    cases hrow'
    exact le_rfl
  · rw [hgone] at hrow'
    cases hrow'

lemma erase_neverLowers {id : String} :
    ∀ id' row row', s.rows.get? id' = some row → (s.rows.erase id).get? id' = some row' →
      row.rowMeta.cursor ≤ row'.rowMeta.cursor := by
  intro id' row row' hrow hrow'
  obtain ⟨-, hrow'⟩ := of_get?_erase hrow'
  rw [hrow] at hrow'
  cases hrow'
  exact le_rfl

lemma neverLowers_of_event {e : RowEvent} {nowSecs : Int}
    (hstart : StartedNotStale s (.event e nowSecs)) : NeverLowers s (.event e nowSecs) := by
  intro id row row' hrow hrow'
  change (s.apply e nowSecs).1.rows.get? id = some row' at hrow'
  unfold apply at hrow'
  split at hrow'
  · rename_i thread hkind
    exact insert_neverLowers (fun r hr => hstart e nowSecs thread r rfl hkind hr) id row row' hrow
      hrow'
  · dsimp only at hrow'
    rw [remove_rows] at hrow'
    exact erase_neverLowers id row row' hrow hrow'
  · dsimp only at hrow'
    rw [remove_rows] at hrow'
    exact erase_neverLowers id row row' hrow hrow'
  · dsimp only at hrow'
    rw [hrow] at hrow'
    cases hrow'
    exact le_rfl
  split at hrow'
  · dsimp only at hrow'
    rw [hrow] at hrow'
    cases hrow'
    exact le_rfl
  rename_i stored hsto
  rw [applyToRow_fst, reindex_rows] at hrow'
  dsimp only at hrow'
  rw [get?_insert] at hrow'
  split at hrow'
  · rename_i hid
    rw [hid, hsto] at hrow
    cases hrow
    cases hrow'
    exact le_updatedRow_cursor e _ nowSecs row
  · rw [hrow] at hrow'
    cases hrow'
    exact le_rfl

lemma neverLowers_of_pageRow (row : Json) (head : Nat) (archived : Bool) :
    NeverLowers s (.pageRow row head archived) := by
  intro id stored stored' hsto hsto'
  change (s.observeRow row head archived).1.rows.get? id = some stored' at hsto'
  have hsame : s.rows.get? id = some stored' → stored.rowMeta.cursor ≤ stored'.rowMeta.cursor := by
    intro h
    rw [hsto] at h
    cases h
    exact le_rfl
  unfold observeRow at hsto'
  split at hsto'
  · exact hsame hsto'
  rename_i threadId _
  dsimp only at hsto'
  split at hsto'
  · exact hsame hsto'
  rename_i hfresh
  split at hsto'
  · exact hsame hsto'
  refine insert_neverLowers ?_ id stored stored' hsto hsto'
  intro r hr
  change r.rowMeta.cursor ≤ head
  rw [hr] at hfresh
  simpa using hfresh

lemma neverLowers_of_seedRow (id : String) (value : Json) (head : Nat) :
    NeverLowers s (.seedRow id value head) := by
  intro id' stored stored' hsto hsto'
  change (s.seedRow id value head).rows.get? id' = some stored' at hsto'
  unfold seedRow at hsto'
  split at hsto'
  · rename_i hnone
    refine insert_neverLowers ?_ id' stored stored' hsto hsto'
    intro r hr
    rw [hnone] at hr
    cases hr
  rename_i previous hprevious
  split at hsto'
  · rename_i hle
    refine insert_neverLowers ?_ id' stored stored' hsto hsto'
    intro r hr
    rw [hprevious] at hr
    cases hr
    exact hle
  · rw [hsto] at hsto'
    cases hsto'
    exact le_rfl

lemma neverLowers_iff (i : RowStep) : NeverLowers s i ↔ StartedNotStale s i := by
  constructor
  · rintro h e nowSecs thread row rfl hkind hrow
    have hafter : ((RowStep.event e nowSecs).run s).rows.get? e.threadId = some
        ⟨rowValue thread, e.cursor, row.rowMeta.archived, row.rowMeta.liveActivity⟩ := by
      change (s.apply e nowSecs).1.rows.get? e.threadId = _
      simp only [apply, hkind, applyStarted, insert_rows_self, hrow, Option.any_some,
        Option.bind_some]
    exact h e.threadId row _ hrow hafter
  intro h
  cases i with
  | event e nowSecs => exact neverLowers_of_event h
  | pageRow row head archived => exact neverLowers_of_pageRow row head archived
  | seedRow id value head => exact neverLowers_of_seedRow id value head

end Cursors

/-! ## Calls -/

inductive RowCall where
  | apply (event : RowEvent) (nowSecs : Int)
  | observePage (rows : List Json) (head : Nat) (archived : Bool)
  | seed (threadId : String) (value : Json) (head : Nat) (buffered : List RowEvent) (nowSecs : Int)

namespace RowCall

def run (s : RowStore) : RowCall → RowStore
  | apply e nowSecs => (s.apply e nowSecs).1
  | observePage rows head archived => (s.observePage rows head archived).1
  | seed id value head buffered nowSecs => (s.seed id value head buffered nowSecs).1

def steps : RowCall → List RowStep
  | apply e nowSecs => [.event e nowSecs]
  | observePage rows head archived => rows.map (fun row => .pageRow row head archived)
  | seed id value head buffered nowSecs =>
    .seedRow id value head :: buffered.map (fun e => .event e nowSecs)

end RowCall

lemma observePage_fst (rows : List Json) (head : Nat) (archived : Bool) (s : RowStore) :
    (s.observePage rows head archived).1 =
      exec RowStep.run s (rows.map (fun row => .pageRow row head archived)) := by
  induction rows generalizing s with
  | nil => rfl
  | cons row rest ih => exact ih _

lemma drain_fst (events : List RowEvent) (nowSecs : Int) (s : RowStore) (flushClass : FlushClass) :
    (events.foldl (drainEvent nowSecs) (s, flushClass)).1 =
      exec RowStep.run s (events.map (fun e => .event e nowSecs)) := by
  induction events generalizing s flushClass with
  | nil => rfl
  | cons e rest ih =>
  have hstep : (drainEvent nowSecs (s, flushClass) e).1 = (RowStep.event e nowSecs).run s := by
    unfold drainEvent
    dsimp only
    split <;> rfl
  rw [map_cons, exec_cons, ← hstep, foldl_cons]
  exact ih _ _

lemma RowCall.run_eq_exec (s : RowStore) (call : RowCall) :
    call.run s = exec RowStep.run s call.steps := by
  cases call with
  | apply e nowSecs => rfl
  | observePage rows head archived => exact observePage_fst rows head archived s
  | seed id value head buffered nowSecs => exact drain_fst buffered nowSecs _ _

lemma exec_calls (s : RowStore) (calls : List RowCall) :
    exec RowCall.run s calls = exec RowStep.run s (calls.flatMap RowCall.steps) := by
  induction calls generalizing s with
  | nil => rfl
  | cons call rest ih => rw [exec_cons, ih, RowCall.run_eq_exec, flatMap_cons, exec_append]

lemma inv_calls (calls : List RowCall) : (exec RowCall.run RowStore.empty calls).Inv := by
  rw [exec_calls]
  exact exec_invariant (fun s i h => h.step i) inv_empty _

lemma always_neverLowers_iff (s : RowStore) (steps : List RowStep) :
    Always RowStep.run NeverLowers s steps ↔ Always RowStep.run StartedNotStale s steps := by
  induction steps generalizing s with
  | nil => exact Iff.rfl
  | cons i rest ih => exact and_congr (neverLowers_iff i) (ih _)

/-- The cursor of a tracked row is never lowered exactly when no `thread/started` comes below it. -/
theorem row_store_invariant (calls : List RowCall) :
    (exec RowCall.run RowStore.empty calls).Inv ∧
    (Always RowStep.run NeverLowers RowStore.empty (calls.flatMap RowCall.steps) ↔
      Always RowStep.run StartedNotStale RowStore.empty (calls.flatMap RowCall.steps)) :=
  ⟨inv_calls calls, always_neverLowers_iff _ _⟩

/-- A `thread/started` of cursor 3 takes the row of a page at head 5 back to 3. -/
theorem started_lowers_cursor :
    ¬ Always RowStep.run NeverLowers RowStore.empty
      ([RowCall.observePage [.obj [("id", .str "t"), ("source", .str "cli")]] 5 false,
        RowCall.apply ⟨"t", 3, .urgent, .started (.obj [("id", .str "t"), ("source", .str "cli")])⟩
          0].flatMap RowCall.steps) := by
  rintro ⟨-, h, -⟩
  have hbef : ((RowStep.pageRow (.obj [("id", .str "t"), ("source", .str "cli")]) 5 false).run
      empty).rows.get? "t" = some ⟨.obj [("id", .str "t"), ("source", .str "cli"),
        ("turns", .arr [])], 5, false, none⟩ := by decide
  have hafter : ((RowStep.event ⟨"t", 3, .urgent, .started (.obj [("id", .str "t"),
      ("source", .str "cli")])⟩ 0).run ((RowStep.pageRow (.obj [("id", .str "t"),
        ("source", .str "cli")]) 5 false).run empty)).rows.get? "t" =
      some ⟨.obj [("id", .str "t"), ("source", .str "cli"), ("turns", .arr [])], 3, false, none⟩ := by
    decide
  have hle := h "t" _ _ hbef hafter
  exact absurd hle (by decide)

end CodeWide.ThreadList
