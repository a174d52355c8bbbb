import CodeWide.Store.OutboxOrder

/-!
# Repeated puts and the pruning of receipts

Rows that passed the checks of a put are told by it from any other payload.
-/

namespace CodeWide.Store

open Lib List Table

/-! ## Pruning -/

def ownedBy (owner : Option String) (e : String × OutboxCommand) : Bool :=
  decide (e.2.ownerContext = owner)

def receiptsOf (table : Outbox) (owner : Option String) : List (String × OutboxCommand) :=
  table.entries.filter fun e => decide (e.2.state = .delivered) && ownedBy owner e

lemma mem_receiptsOf {table : Outbox} {owner : Option String} {e : String × OutboxCommand} :
    e ∈ receiptsOf table owner ↔ table.get? e.1 = some e.2 ∧
      (decide (e.2.state = .delivered) && ownedBy owner e) = true := by
  rw [receiptsOf, mem_filter, mem_entries_iff]

lemma nodup_receiptsOf (table : Outbox) (owner : Option String) :
    (receiptsOf table owner).Nodup := table.nodup_entries.filter _

/-- Of the delivered rows of every owner the greatest by time and order are left. -/
structure Pruned (table table' : Outbox) : Prop where
  sub : ∀ c row, table'.get? c = some row → table.get? c = some row
  live : ∀ c row, table.get? c = some row → row.state ≠ .delivered → table'.get? c = some row
  length : ∀ owner, (receiptsOf table' owner).length =
    min (receiptsOf table owner).length maxRetainedDeliveredCommands
  newest : ∀ owner, ∀ e ∈ receiptsOf table owner, e ∉ receiptsOf table' owner →
    ∀ e' ∈ receiptsOf table' owner,
      keyLe (e.2.updatedAt, e.2.order) (e'.2.updatedAt, e'.2.order)

def surplus (counts : Option String → Nat) :
    List (String × OutboxCommand) → List (String × OutboxCommand)
  | [] => []
  | e :: rest =>
    if counts e.2.ownerContext ≤ maxRetainedDeliveredCommands then surplus counts rest
    else e :: surplus
      (Function.update counts e.2.ownerContext (counts e.2.ownerContext - 1)) rest

variable {counts : Option String → Nat} {receipts : List (String × OutboxCommand)}

lemma foldl_pruneReceipt_get? {table : Outbox} {n : Nat} (hkeys : (receipts.map Prod.fst).Nodup)
    (hsto : ∀ e ∈ receipts, table.get? e.1 = some e.2) (c : String) :
    (receipts.foldl pruneReceipt (table, counts, n)).1.get? c =
      if c ∈ (surplus counts receipts).map Prod.fst then none else table.get? c := by
  induction receipts generalizing table counts n with
  | nil => rfl
  | cons e rest ih =>
  obtain ⟨hnew, hkeys⟩ := nodup_cons.mp hkeys
  have hrest := fun e' he' => hsto e' (mem_cons_of_mem _ he')
  have hcont : table.contains e.1 = true := contains_iff.mpr ⟨_, hsto e mem_cons_self⟩
  rw [foldl_cons, pruneReceipt, if_pos hcont, surplus]
  split
  · exact ih hkeys hrest
  rw [ih hkeys fun e' he' => ?_, map_cons]
  · by_cases hc : c = e.1
    · subst hc
      rw [get?_erase_self, ite_self, if_pos mem_cons_self]
    · rw [get?_erase_of_ne _ hc]
      simp only [mem_cons, hc, false_or]
  · have hne : e'.1 ≠ e.1 := fun heq => hnew (heq ▸ mem_map_of_mem he')
    rw [get?_erase_of_ne _ hne, hrest e' he']

lemma surplus_sublist : (surplus counts receipts).Sublist receipts := by
  induction receipts generalizing counts with
  | nil => exact .slnil
  | cons e rest ih =>
    rw [surplus]
    split
    · exact ih.cons e
    · exact ih.cons_cons e

/-- Of each owner the first receipts are removed, as many as it has too many. -/
lemma filter_surplus (owner : Option String) : (surplus counts receipts).filter (ownedBy owner) =
      (receipts.filter (ownedBy owner)).take (counts owner - maxRetainedDeliveredCommands) := by
  induction receipts generalizing counts with
  | nil => rw [surplus, filter_nil, take_nil]
  | cons e rest ih =>
  rw [surplus]
  by_cases howner : e.2.ownerContext = owner
  · have howned : ownedBy owner e = true := decide_eq_true howner
    rw [filter_cons_of_pos howned]
    subst howner
    split
    · rename_i hle
      rw [ih, Nat.sub_eq_zero_of_le hle, take_zero, take_zero]
    · rename_i hlt
      have hcount : counts e.2.ownerContext - maxRetainedDeliveredCommands =
          counts e.2.ownerContext - 1 - maxRetainedDeliveredCommands + 1 := by omega
      rw [filter_cons_of_pos howned, ih, Function.update_self, hcount, take_succ_cons]
  · have howned : ¬ ownedBy owner e = true := fun h => howner (of_decide_eq_true h)
    rw [filter_cons_of_neg howned]
    split
    · exact ih
    · rw [filter_cons_of_neg howned, ih, Function.update_of_ne (fun heq => howner heq.symm)]

section Receipts

variable (table : Outbox)

lemma deliveredReceipts_pairwise : (deliveredReceipts table).Pairwise fun a b =>
    keyLe (a.2.updatedAt, a.2.order) (b.2.updatedAt, b.2.order) := by
  have htotal : Std.Total (fun a b : String × OutboxCommand =>
      keyLe (a.2.updatedAt, a.2.order) (b.2.updatedAt, b.2.order)) := ⟨fun _ _ => keyLe_total _ _⟩
  have htrans : IsTrans (String × OutboxCommand) (fun a b =>
      keyLe (a.2.updatedAt, a.2.order) (b.2.updatedAt, b.2.order)) := ⟨fun _ _ _ => keyLe_trans⟩
  exact pairwise_insertionSort _ _

lemma deliveredReceipts_perm (owner : Option String) :
    ((deliveredReceipts table).filter (ownedBy owner)).Perm (receiptsOf table owner) := by
  refine ((perm_insertionSort _ _).filter _).trans (Perm.of_eq ?_)
  rw [filter_filter, receiptsOf]
  exact congrArg (table.entries.filter ·) (funext fun e => Bool.and_comm _ _)

lemma deliveredReceipts_keys : ((deliveredReceipts table).map Prod.fst).Nodup :=
  ((perm_insertionSort _ _).map _).nodup_iff.mpr (table.keys_nodup.sublist (filter_sublist.map _))

def deliveredCounts (owner : Option String) : Nat :=
  (deliveredReceipts table).countP (ownedBy owner)

lemma pruneDelivered_get? (c : String) : (pruneDeliveredOutboxReceipts table).1.get? c =
      if c ∈ (surplus (deliveredCounts table) (deliveredReceipts table)).map Prod.fst then none
      else table.get? c :=
  foldl_pruneReceipt_get? (deliveredReceipts_keys table)
    (fun _ he => (mem_deliveredReceipts he).1) c

lemma mem_pruneDelivered {e : String × OutboxCommand} :
    (pruneDeliveredOutboxReceipts table).1.get? e.1 = some e.2 ↔ table.get? e.1 = some e.2 ∧
        e ∉ surplus (deliveredCounts table) (deliveredReceipts table) := by
  have hsub := @surplus_sublist (deliveredCounts table) (deliveredReceipts table)
  rw [pruneDelivered_get?]
  split
  · rename_i hmem
    obtain ⟨e', he', heq⟩ := mem_map.mp hmem
    refine iff_of_false (fun h => by cases h) fun h => h.2 ?_
    have hrow := (mem_deliveredReceipts (hsub.subset he')).1
    rw [heq, h.1] at hrow
    rwa [Prod.ext heq.symm (Option.some.inj hrow)]
  · rename_i hmem
    exact (and_iff_left fun h => hmem (mem_map_of_mem h)).symm

/-- The receipts of an owner that are left are the last ones by time and order. -/
lemma receiptsOf_pruneDelivered (owner : Option String) :
    (receiptsOf (pruneDeliveredOutboxReceipts table).1 owner).Perm
      (((deliveredReceipts table).filter (ownedBy owner)).drop
        (deliveredCounts table owner - maxRetainedDeliveredCommands)) := by
  have hperm := deliveredReceipts_perm table owner
  have hnodup := hperm.nodup_iff.mpr (nodup_receiptsOf table owner)
  refine (perm_ext_iff_of_nodup (nodup_receiptsOf _ owner)
    (hnodup.sublist (drop_sublist _ _))).mpr fun e => ?_
  rw [mem_receiptsOf, mem_pruneDelivered, and_right_comm, ← mem_receiptsOf, ← hperm.mem_iff]
  constructor
  · rintro ⟨hmem, hleft⟩
    have howner := (mem_filter.mp hmem).2
    rw [← take_append_drop (deliveredCounts table owner - maxRetainedDeliveredCommands)
      (filter _ _), mem_append, ← filter_surplus] at hmem
    exact hmem.resolve_left fun h => hleft (mem_filter.mp h).1
  · refine fun hmem => ⟨mem_of_mem_drop hmem, fun hsurplus => ?_⟩
    have howner := (mem_filter.mp (mem_of_mem_drop hmem)).2
    have htake := mem_filter.mpr ⟨hsurplus, howner⟩
    rw [filter_surplus] at htake
    exact disjoint_take_drop hnodup (le_refl _) htake hmem

lemma pruneDelivered_pruned : Pruned table (pruneDeliveredOutboxReceipts table).1 where
  sub c row h := ((mem_pruneDelivered table (e := (c, row))).mp h).1
  live c row h hstate := (mem_pruneDelivered table (e := (c, row))).mpr
    ⟨h, fun hmem => hstate (mem_deliveredReceipts (surplus_sublist.subset hmem)).2⟩
  length owner := by
    have hlen := (deliveredReceipts_perm table owner).length_eq
    rw [(receiptsOf_pruneDelivered table owner).length_eq, length_drop, hlen, deliveredCounts,
      countP_eq_length_filter, hlen]
    omega
  newest owner e he hout e' he' := by
    rw [(receiptsOf_pruneDelivered table owner).mem_iff] at hout he'
    rw [← (deliveredReceipts_perm table owner).mem_iff] at he
    have hsort := (deliveredReceipts_pairwise table).filter (ownedBy owner)
    rw [← take_append_drop (deliveredCounts table owner - maxRetainedDeliveredCommands)
      (filter _ _)] at he hsort
    exact (pairwise_append.mp hsort).2.2 e ((mem_append.mp he).resolve_right hout) e' he'

end Receipts

/-! ## Repeated puts -/

def SamePayload (row : OutboxCommand) (thread : String) (params : Json)
    (metadata : OutboxPutMetadata) : Prop :=
  row.remoteThreadId = thread ∧ row.method = "turn/start" ∧ row.params = params ∧
    row.presentation = metadata.presentation ∧
    row.workspaceRequestId = metadata.workspaceRequestId ∧ row.ownerContext = none ∧
    row.queueInput = none

/-- The row's own payload passes the checks of a put. -/
structure Admitted (enc : Encoding) (row : OutboxCommand) : Prop where
  commandId : validateOutboxId row.commandId "command id" = .ok ()
  thread : validateOutboxId row.remoteThreadId "remote thread id" = .ok ()
  workspace : validateWorkspaceRequestId row.workspaceRequestId = .ok ()
  params : validateTurnStartParams row.commandId row.remoteThreadId row.params = .ok ()
  size : enc.paramsLen row.params ≤ maxOutboxCommandBytes

variable {enc : Encoding} {table table' : Outbox} {now : Nat} {c thread : String} {params : Json}
  {metadata : OutboxPutMetadata} {row row' a : OutboxCommand}

lemma Admitted.congr (h : Admitted enc row) (hid : row'.commandId = row.commandId)
    (hthr : row'.remoteThreadId = row.remoteThreadId)
    (hws : row'.workspaceRequestId = row.workspaceRequestId)
    (hpar : row'.params = row.params) : Admitted enc row' := by
  obtain ⟨hidOk, hthreadOk, hworkspaceOk, hparamsOk, hsize⟩ := h
  rw [← hid] at hidOk
  rw [← hthr] at hthreadOk
  rw [← hws] at hworkspaceOk
  rw [← hid, ← hthr, ← hpar] at hparamsOk
  rw [← hpar] at hsize
  exact ⟨hidOk, hthreadOk, hworkspaceOk, hparamsOk, hsize⟩

lemma put_admitted (hnew : table.get? c = none)
    (h : outboxPutTurnStart enc table now c thread params metadata = .ok (table', a)) :
    Admitted enc a := by
  unfold outboxPutTurnStart at h
  rw [hnew] at h
  obtain ⟨_, hid, h⟩ := bind_ok h
  obtain ⟨_, hthr, h⟩ := bind_ok h
  obtain ⟨_, hws, h⟩ := bind_ok h
  obtain ⟨_, hpar, h⟩ := bind_ok h
  split at h
  · cases h
  rename_i hsize
  obtain ⟨_, -, h⟩ := bind_ok h
  cases h
  exact ⟨hid, hthr, hws, hpar, not_lt.mp hsize⟩

lemma edit_admitted {input : Json} (hrow : table.get? c = some row) (hadm : Admitted enc row)
    (h : outboxEditPrompt enc table now c input = .ok (table', a))
    (hrow' : table'.get? c = some row') : Admitted enc row' := by
  unfold outboxEditPrompt at h
  rw [hrow] at h
  obtain ⟨_, -, h⟩ := bind_ok h
  obtain ⟨_, -, h⟩ := bind_ok h
  split at h
  · cases h
  obtain ⟨_, hpar, h⟩ := bind_ok h
  split at h
  · cases h
  rename_i hsize
  obtain ⟨_, -, h⟩ := bind_ok h
  cases h
  rw [get?_insert_self] at hrow'
  cases hrow'
  exact ⟨hadm.commandId, hadm.thread, hadm.workspace, hpar, not_lt.mp hsize⟩

lemma RowChange.admitted {op : OutboxOp} (h : RowChange op now c (some row) (some row'))
    (hop : ∀ input, op ≠ .edit c input) (hadm : Admitted enc row) : Admitted enc row' := by
  cases h with
  | same => exact hadm
  | claim | fail | recover | retry | place => exact hadm.congr rfl rfl rfl rfl
  | @resolve token resolution => cases resolution <;> exact hadm.congr rfl rfl rfl rfl
  | setState | defer | wait =>
    all_goals
      simp only [setStateUpdate, deferUpdate, waitUpdate, settleClaim]
      split
      all_goals exact hadm.congr rfl rfl rfl rfl
  | edit heq => exact absurd heq (hop _)

/-- The rows stand under their ids, and their payloads pass the checks of a put. -/
def WellAdmitted (enc : Encoding) (table : Outbox) : Prop :=
  Keyed table ∧ ∀ c row, table.get? c = some row → Admitted enc row

lemma WellAdmitted.step (h : WellAdmitted enc table) (i : Nat × OutboxOp) :
    WellAdmitted enc (outboxStep enc table i) := by
  obtain ⟨now, op⟩ := i
  refine ⟨run_keyed h.1 op, fun c row' hrow' => ?_⟩
  have hchg := @run_row enc table now h.1 op c
  unfold outboxStep at hrow'
  rw [hrow'] at hchg
  -- The answer of an operation that puts or edits the row says that it was checked.
  cases hrun : op.transact enc table now with
  | error e =>
    rw [OutboxOp.run, hrun] at hrow'
    exact h.2 c row' hrow'
  | ok r =>
  obtain ⟨table', a⟩ := r
  rw [OutboxOp.run, hrun] at hrow'
  change table'.get? c = some row' at hrow'
  cases hrow : table.get? c with
  | none =>
    rw [hrow] at hchg
    cases hchg with
    | put hop =>
    subst hop
    obtain ⟨rfl, -⟩ := outboxPut_ok hrow hrun
    rw [get?_insert_self] at hrow'
    cases hrow'
    exact put_admitted hrow hrun
  | some row =>
    rw [hrow] at hchg
    by_cases hop : ∃ input, op = .edit c input
    · obtain ⟨input, rfl⟩ := hop
      exact edit_admitted hrow (h.2 c row hrow) hrun hrow'
    · exact hchg.admitted (fun input heq => hop ⟨input, heq⟩) (h.2 c row hrow)

/-- A put of an id that is there changes nothing and says whether the payload is the same. -/
lemma put_present (thread : String) (params : Json) (metadata : OutboxPutMetadata) (now : Nat)
    (hrow : table.get? c = some row) (hid : row.commandId = c)
    (hadm : Admitted enc row) :
    (SamePayload row thread params metadata →
      outboxPutTurnStart enc table now c thread params metadata = .ok (table, row)) ∧
    (¬ SamePayload row thread params metadata →
      ∃ e, outboxPutTurnStart enc table now c thread params metadata = .error e) := by
  constructor
  · rintro ⟨rfl, hmeth, rfl, hpres, hws, howner, hinput⟩
    subst hid
    unfold outboxPutTurnStart
    rw [hadm.commandId, hadm.thread, ← hws, hadm.workspace, hadm.params]
    change (if _ then _ else _) = _
    rw [if_neg (not_lt.mpr hadm.size), hrow]
    exact if_neg (by simp [hmeth, hpres, howner, hinput])
  · intro hother
    cases hrun : outboxPutTurnStart enc table now c thread params metadata with
    | error e => exact ⟨e, rfl⟩
    | ok r =>
    unfold outboxPutTurnStart at hrun
    obtain ⟨_, -, hrun⟩ := bind_ok hrun
    obtain ⟨_, -, hrun⟩ := bind_ok hrun
    obtain ⟨_, -, hrun⟩ := bind_ok hrun
    obtain ⟨_, -, hrun⟩ := bind_ok hrun
    rw [hrow] at hrun
    split at hrun
    · cases hrun
    dsimp only at hrun
    split at hrun
    · cases hrun
    · rename_i hsame
      simp only [not_or, not_not, Bool.not_eq_true, Option.isSome_eq_false_iff,
        Option.isNone_iff_eq_none] at hsame
      obtain ⟨hthr, hmeth, hpar, hpres, hws, howner, hinput⟩ := hsame
      exact absurd ⟨hthr, hmeth, hpar, hpres, hws, howner, hinput⟩ hother

lemma wellAdmitted_empty : WellAdmitted enc ∅ := ⟨keyed_empty, fun _ _ h => by cases h⟩

/-- A repeated put answers the row of the same payload or fails; a first one prunes the receipts. -/
theorem outbox_put_of_run (enc : Encoding) {start : Outbox} (hstart : WellAdmitted enc start)
    (steps : List (Nat × OutboxOp)) :
    ∀ table, table = exec (outboxStep enc) start steps → ∀ now c thread params metadata,
      (∀ row, table.get? c = some row →
        ((OutboxOp.put c thread params metadata).run enc table now).1 = table ∧
        (SamePayload row thread params metadata →
          ((OutboxOp.put c thread params metadata).run enc table now).2 = .ok row) ∧
        (¬ SamePayload row thread params metadata →
          ∃ e, ((OutboxOp.put c thread params metadata).run enc table now).2 = .error e)) ∧
      (table.get? c = none → ∀ command,
        ((OutboxOp.put c thread params metadata).run enc table now).2 = .ok command →
        ∃ pruned, Pruned table pruned ∧
          ((OutboxOp.put c thread params metadata).run enc table now).1 =
            pruned.insert c command) ∧
      Pruned table (OutboxOp.prune.run enc table now).1 := by
  rintro table rfl now c thread params metadata
  have hadm := exec_invariant (P := WellAdmitted enc) (fun _ i h => h.step i) hstart steps
  refine ⟨fun row hrow => ?_, fun hnew command hput => ?_, pruneDelivered_pruned _⟩
  · obtain ⟨hsame, hother⟩ := put_present thread params metadata now hrow
      (hadm.1 c row hrow) (hadm.2 c row hrow)
    by_cases h : SamePayload row thread params metadata
    · have hrun : (OutboxOp.put c thread params metadata).transact enc
        (exec (outboxStep enc) start steps) now = _ := hsame h
      rw [OutboxOp.run, hrun]
      exact ⟨rfl, fun _ => rfl, fun hne => absurd h hne⟩
    · obtain ⟨e, he⟩ := hother h
      have hrun : (OutboxOp.put c thread params metadata).transact enc
        (exec (outboxStep enc) start steps) now = _ := he
      rw [OutboxOp.run, hrun]
      exact ⟨rfl, fun heq => absurd heq h, fun _ => ⟨e, rfl⟩⟩
  · cases hrun : (OutboxOp.put c thread params metadata).transact enc
        (exec (outboxStep enc) start steps) now with
    | error e =>
      rw [OutboxOp.run, hrun] at hput
      cases hput
    | ok r =>
    obtain ⟨table', a⟩ := r
    rw [OutboxOp.run, hrun] at hput ⊢
    cases hput
    obtain ⟨rfl, -⟩ := outboxPut_ok hnew hrun
    exact ⟨_, pruneDelivered_pruned _, rfl⟩

theorem outbox_put_of_repeated_prompt :
    ((putPrompt "a" "t" "hi").run ⟨fun _ => 0, fun _ => 0⟩ (exec
      (outboxStep ⟨fun _ => 0, fun _ => 0⟩) ∅ [(1, putPrompt "a" "t" "hi")]) 2).2 =
        .ok (promptRow "a" "t" "hi" 1) :=
  ((outbox_put_of_run ⟨fun _ => 0, fun _ => 0⟩ wellAdmitted_empty [(1, putPrompt "a" "t" "hi")] _
    rfl 2 "a" "t" (promptParams "a" "t" "hi") ⟨none, .queue, none⟩).1 _ (by decide)).2.1
      ⟨rfl, rfl, rfl, rfl, rfl, rfl, rfl⟩

end CodeWide.Store
