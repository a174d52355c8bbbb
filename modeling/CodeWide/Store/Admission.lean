import CodeWide.Store.Ownership

/-!
# Repeated admissions

A device repeats `companion/queue/put` after a lost acknowledgement.
-/

namespace CodeWide.Store

open Lib List Bool

structure Admission where
  commandId : String
  remoteThreadId : String
  params : Json
  metadata : OutboxPutMetadata

namespace Admission

def op (a : Admission) : OutboxOp := .put a.commandId a.remoteThreadId a.params a.metadata

def Matches (a : Admission) (row : OutboxCommand) : Prop :=
  row.remoteThreadId = a.remoteThreadId ∧ row.method = "turn/start" ∧ row.params = a.params ∧
    row.presentation = a.metadata.presentation ∧
    row.workspaceRequestId = a.metadata.workspaceRequestId ∧ row.ownerContext = none ∧
    row.queueInput = none

instance (a : Admission) (row : OutboxCommand) : Decidable (a.Matches row) :=
  inferInstanceAs (Decidable (_ ∧ _ ∧ _ ∧ _ ∧ _ ∧ _ ∧ _))

def Held (a : Admission) (outbox : Outbox) : Prop :=
  ∃ row, outbox.get? a.commandId = some row ∧ a.Matches row

instance (a : Admission) (outbox : Outbox) : Decidable (a.Held outbox) :=
  decidable_of_iff ((outbox.get? a.commandId).any (fun row => decide (a.Matches row)) = true) (by
    simp [Held, Option.any_eq_true])

end Admission

structure Story where
  outbox : Outbox
  deliveries : Nat
  cancelled : Bool
  refused : Bool
deriving DecidableEq

def isDelivered (row : Option OutboxCommand) : Bool :=
  row.any (fun command => decide (command.state = .delivered))

namespace Story

def step (enc : Encoding) (a : Admission) (s : Story) (i : Nat × OutboxOp) : Story :=
  let r := i.2.run enc s.outbox i.1
  let before := s.outbox.get? a.commandId
  let after := r.1.get? a.commandId
  { outbox := r.1
    deliveries := if isDelivered after && !isDelivered before then s.deliveries + 1
      else s.deliveries
    cancelled := s.cancelled ||
      (decide (i.2 = .cancel a.commandId) && before.isSome && after.isNone)
    refused := s.refused || (decide (i.2 = a.op) && !r.2.toBool) }

def start (enc : Encoding) (a : Admission) (outbox : Outbox) (now : Nat) : Story :=
  ⟨(a.op.run enc outbox now).1, 0, false, false⟩

def Repeatable (a : Admission) (s : Story) (i : Nat × OutboxOp) : Prop :=
  i.2 = a.op → a.Held s.outbox

instance (a : Admission) (s : Story) (i : Nat × OutboxOp) : Decidable (Repeatable a s i) :=
  inferInstanceAs (Decidable (_ → _))

/-- No prompt is delivered twice, and a cancelled command stays away. -/
structure Once (a : Admission) (s : Story) : Prop where
  deliveries : s.deliveries ≤ 1
  delivered : s.deliveries = 1 → ∀ row, s.outbox.get? a.commandId = some row →
    row.state = .delivered
  cancelled : s.cancelled = true → s.outbox.get? a.commandId = none

end Story

section Repetition

variable {enc : Encoding} {a : Admission} {outbox table' : Outbox} {now now' : Nat}
  {row : OutboxCommand}

lemma outboxPut_of_stored {table : Outbox} {c thread : String} {params : Json}
    {metadata : OutboxPutMetadata} {existing : OutboxCommand}
    (hok : outboxPutTurnStart enc outbox now c thread params metadata = .ok (table', row))
    (hget : table.get? c = some existing) :
    outboxPutTurnStart enc table now' c thread params metadata =
      if existing.remoteThreadId ≠ thread ∨ existing.method ≠ "turn/start" ∨
          existing.params ≠ params ∨ existing.presentation ≠ metadata.presentation ∨
          existing.workspaceRequestId ≠ metadata.workspaceRequestId ∨
          existing.ownerContext.isSome ∨ existing.queueInput.isSome then
        .error (.corruptedIndex "outbox command id already has a different payload")
      else .ok (table, existing) := by
  unfold outboxPutTurnStart at hok ⊢
  obtain ⟨⟨⟩, hid, hok⟩ := bind_ok hok
  obtain ⟨⟨⟩, hthr, hok⟩ := bind_ok hok
  obtain ⟨⟨⟩, hws, hok⟩ := bind_ok hok
  obtain ⟨⟨⟩, hpar, hok⟩ := bind_ok hok
  rw [hid, hthr, hws, hpar, hget]
  split at hok
  · cases hok
  · rename_i hsize
    change (if _ then _ else _) = _
    rw [if_neg hsize]

lemma Admission.held_of_ok
    (hok : outboxPutTurnStart enc outbox now a.commandId a.remoteThreadId a.params a.metadata =
      .ok (table', row)) : a.Held table' := by
  unfold outboxPutTurnStart at hok
  obtain ⟨_, -, hok⟩ := bind_ok hok
  obtain ⟨_, -, hok⟩ := bind_ok hok
  obtain ⟨_, -, hok⟩ := bind_ok hok
  obtain ⟨_, -, hok⟩ := bind_ok hok
  split at hok
  · cases hok
  split at hok
  · rename_i existing hget
    split at hok
    · cases hok
    rename_i hsame
    cases hok
    push Not at hsame
    simp only [not_eq_true, Option.isSome_eq_false_iff, Option.isNone_iff_eq_none] at hsame
    exact ⟨row, hget, hsame⟩
  dsimp only at hok
  obtain ⟨_, -, hok⟩ := bind_ok hok
  cases hok
  exact ⟨_, Table.get?_insert_self _ _ _, rfl, rfl, rfl, rfl, rfl, rfl, rfl⟩

lemma Admission.run_of_held {answer : OutboxCommand}
    (hok : (a.op.run enc outbox now).2 = .ok answer) {table : Outbox} (hheld : a.Held table) :
    ∃ existing, a.op.run enc table now' = (table, .ok existing) := by
  obtain ⟨existing, hget, hsame⟩ := hheld
  have hput : ∃ table', outboxPutTurnStart enc outbox now a.commandId a.remoteThreadId a.params
      a.metadata = .ok (table', answer) := by
    unfold OutboxOp.run OutboxOp.transact Admission.op at hok
    dsimp only at hok
    cases hput : outboxPutTurnStart enc outbox now a.commandId a.remoteThreadId a.params
        a.metadata with
    | error e =>
      rw [hput] at hok
      cases hok
    | ok r =>
    rw [hput] at hok
    cases hok
    exact ⟨r.1, rfl⟩
  obtain ⟨table', hput⟩ := hput
  obtain ⟨hthr, hmethod, hpar, hpres, hws, howner, hinput⟩ := hsame
  refine ⟨existing, ?_⟩
  unfold OutboxOp.run OutboxOp.transact Admission.op
  dsimp only
  rw [outboxPut_of_stored hput hget, if_neg]
  · rfl
  · simp [hthr, hmethod, hpar, hpres, hws, howner, hinput]

end Repetition

section Runs

variable {enc : Encoding} {a : Admission} {s : Story}

variable {outbox : Outbox} {answer : OutboxCommand}

lemma Story.step_repetition {t : Nat}
    (hok : (a.op.run enc outbox t).2 = .ok answer) (now : Nat) (hheld : a.Held s.outbox) :
    s.step enc a (now, a.op) = s := by
  obtain ⟨existing, hrun⟩ : ∃ existing, a.op.run enc s.outbox now = (s.outbox, .ok existing) :=
    Admission.run_of_held hok hheld
  unfold step
  dsimp only
  rw [hrun]
  have hcancel : a.op ≠ .cancel a.commandId := fun h => nomatch h
  simp [Except.toBool, hcancel]

variable {run : List (Nat × OutboxOp)}

lemma Story.exec_without_repetitions {t : Nat} (hok : (a.op.run enc outbox t).2 = .ok answer)
    (hheld : Always (Story.step enc a) (Repeatable a) s run) :
    exec (Story.step enc a) s run =
      exec (Story.step enc a) s (run.filter (fun i => decide (i.2 ≠ a.op))) := by
  induction run generalizing s with
  | nil => rfl
  | cons i rest ih =>
  obtain ⟨now, op⟩ := i
  rw [exec_cons, ih hheld.2]
  by_cases hop : op = a.op
  · subst hop
    rw [Story.step_repetition hok now (hheld.1 rfl), filter_cons_of_neg (by simp)]
  · rw [filter_cons_of_pos (by simpa using hop), exec_cons]

lemma Story.step_refused {i : Nat × OutboxOp} (hop : i.2 ≠ a.op) :
    (s.step enc a i).refused = s.refused := by
  unfold step
  simp [hop]

lemma Story.Once.start {now : Nat} : (Story.start enc a outbox now).Once a where
  deliveries := Nat.zero_le 1
  delivered h := nomatch h
  cancelled h := nomatch h

lemma RowChange.none_frame {op : OutboxOp} {now : Nat} {c : String} {r' : Option OutboxCommand}
    (h : RowChange op now c none r') (hop : ∀ thread params metadata,
      op ≠ .put c thread params metadata) : r' = none := by
  cases h with
  | same => rfl
  | put heq => exact absurd heq (hop _ _ _)

lemma Story.Once.step (h : s.Once a) (hkeyed : Keyed s.outbox) {i : Nat × OutboxOp}
    (hop : ∀ thread params metadata, i.2 ≠ .put a.commandId thread params metadata) :
    (s.step enc a i).Once a := by
  obtain ⟨now, op⟩ := i
  have hchg := @run_row enc s.outbox now hkeyed op a.commandId
  -- Once the row is delivered or gone, no operation makes it anything else.
  have hfinal : s.deliveries = 1 → ∀ row, (op.run enc s.outbox now).1.get? a.commandId = some row →
      s.outbox.get? a.commandId = some row := by
    intro hone row hrow
    cases hold : s.outbox.get? a.commandId with
    | none =>
      rw [hold] at hchg
      rw [hchg.none_frame hop] at hrow
      cases hrow
    | some old =>
    rw [hold] at hchg
    rcases hchg.delivered_frame (h.delivered hone old hold) with hsame | hgone
    · rw [← hsame, hrow]
    · rw [hgone] at hrow
      cases hrow
  refine ⟨?_, ?_, ?_⟩
  · change (if _ then s.deliveries + 1 else s.deliveries) ≤ 1
    split
    · rename_i hnew
      rw [and_eq_true, not_eq_true'] at hnew
      rcases Nat.lt_or_ge s.deliveries 1 with hlt | hge
      · exact Nat.succ_le_of_lt hlt
      -- A second delivery would need a row that was not delivered before.
      have hone : s.deliveries = 1 := Nat.le_antisymm h.deliveries hge
      obtain ⟨row, hrow, hstate⟩ := (Option.any_eq_true _ _).mp hnew.1
      have hbef := hfinal hone row hrow
      rw [hbef] at hnew
      simp only [isDelivered, Option.any_some] at hnew
      exact absurd hstate (by simp [hnew.2])
    · exact h.deliveries
  · change (if _ then s.deliveries + 1 else s.deliveries) = 1 → _
    intro hone row hrow
    change (op.run enc s.outbox now).1.get? a.commandId = some row at hrow
    split at hone
    · rename_i hnew
      rw [and_eq_true] at hnew
      rw [hrow] at hnew
      exact of_decide_eq_true hnew.1
    · exact h.delivered hone row (hfinal hone row hrow)
  change (s.cancelled || _) = true → (op.run enc s.outbox now).1.get? a.commandId = none
  intro hcanc
  rcases (or_eq_true _ _).mp hcanc with hbef | hnow
  · rw [h.cancelled hbef] at hchg
    exact hchg.none_frame hop
  · exact Option.isNone_iff_eq_none.mp ((and_eq_true _ _).mp hnow).2

lemma Story.once_exec (hkeyed : Keyed s.outbox) (h : s.Once a)
    (hputs : ∀ i ∈ run, ∀ thread params metadata,
      i.2 ≠ .put a.commandId thread params metadata) : (exec (Story.step enc a) s run).Once a := by
  induction run generalizing s with
  | nil => exact h
  | cons i rest ih =>
  refine ih ?_ ?_ (fun j hj => hputs j (mem_cons_of_mem _ hj))
  · exact run_keyed hkeyed i.2
  · exact h.step hkeyed (hputs i mem_cons_self)

lemma Story.refused_exec (hops : ∀ i ∈ run, i.2 ≠ a.op) :
    (exec (Story.step enc a) s run).refused = s.refused := by
  induction run generalizing s with
  | nil => rfl
  | cons i rest ih =>
    rw [exec_cons, ih (fun j hj => hops j (mem_cons_of_mem _ hj)),
      Story.step_refused (hops i mem_cons_self)]

end Runs

/-- While each repetition of an admission finds its row, the prompt is delivered once at most. -/
theorem repeated_admission_harmless (enc : Encoding) (a : Admission) (outbox : Outbox)
    (hkeyed : Keyed outbox) (t : Nat) (answer : OutboxCommand)
    (hfirst : (a.op.run enc outbox t).2 = .ok answer) (run : List (Nat × OutboxOp))
    (hrepeat : Always (Story.step enc a) (Story.Repeatable a) (Story.start enc a outbox t) run) :
    (exec (Story.step enc a) (Story.start enc a outbox t) run).refused = false ∧
      exec (Story.step enc a) (Story.start enc a outbox t) run =
        exec (Story.step enc a) (Story.start enc a outbox t)
          (run.filter (fun i => decide (i.2 ≠ a.op))) ∧
      ((∀ i ∈ run, i.2 ≠ a.op → ∀ thread params metadata,
          i.2 ≠ .put a.commandId thread params metadata) →
        (exec (Story.step enc a) (Story.start enc a outbox t) run).Once a) := by
  have hsame := Story.exec_without_repetitions hfirst hrepeat
  have hoth : ∀ i ∈ run.filter (fun i => decide (i.2 ≠ a.op)), i.2 ≠ a.op := fun i hi =>
    of_decide_eq_true (mem_filter.mp hi).2
  refine ⟨?_, hsame, fun hputs => ?_⟩
  · rw [hsame, Story.refused_exec hoth]
    rfl
  · rw [hsame]
    refine Story.once_exec (run_keyed hkeyed a.op) Story.Once.start (fun i hi => ?_)
    exact hputs i (mem_filter.mp hi).1 (hoth i hi)

/-- A prompt as the device's command store admits it. -/
def prompt : Admission := ⟨"a", "t", promptParams "a" "t" "hi", ⟨some 1, .delivery, none⟩⟩

/-- The acknowledgement is lost twice, before and after the delivery. -/
theorem repeated_admission_delivered :
    (exec (Story.step ⟨fun _ => 0, fun _ => 0⟩ prompt)
        (Story.start ⟨fun _ => 0, fun _ => 0⟩ prompt ∅ 1)
        [(2, .claimDispatch "a"), (3, prompt.op), (4, .resolve "a" 1 .delivered),
          (5, prompt.op)]).Once prompt := by
  refine (repeated_admission_harmless ⟨fun _ => 0, fun _ => 0⟩ prompt ∅ keyed_empty 1
    { promptRow "a" "t" "hi" 1 with presentation := .delivery } rfl _
    (by decide)).2.2 ?_
  simp [prompt, Admission.op]

lemma entries_foldl_insert {κ ν : Type} [LinearOrder κ] {f : Nat → κ} (g : Nat → ν) {n : Nat}
    (hf : ∀ i j, i < j → j < n → f i < f j) :
    ((range n).foldl (fun t i => t.insert (f i) (g i)) (∅ : Table κ ν)).entries =
      (range n).map (fun i => (f i, g i)) := by
  induction n with
  | zero => rfl
  | succ n ih =>
  have hent := ih (fun i j hij hj => hf i j hij (Nat.lt_succ_of_lt hj))
  rw [range_succ, foldl_append, foldl_cons, foldl_nil,
    Table.entries_insert_of_forall_lt, hent, map_append]
  · rfl
  intro e he
  rw [hent] at he
  obtain ⟨i, hi, rfl⟩ := mem_map.mp he
  exact hf i n (mem_range.mp hi) (Nat.lt_succ_self n)

lemma ext_entries {κ ν : Type} [LinearOrder κ] {s t : Table κ ν} (h : s.entries = t.entries) :
    s = t := by
  cases s
  cases t
  cases h
  rfl

lemma toNat_charOfNat {n : Nat} (h : n < 0xd800) : (Char.ofNat n).toNat = n := by
  unfold Char.ofNat
  rw [dif_pos (.inl h)]
  rfl

def receipts : Outbox :=
  (range maxRetainedDeliveredCommands).foldl (fun outbox i =>
    let id := String.ofList [Char.ofNat (256 + i)]
    outbox.insert id { promptRow id "u" "hi" 9 with state := .delivered }) ∅

lemma receipts_entries : receipts.entries = (range maxRetainedDeliveredCommands).map
    (fun i => (String.ofList [Char.ofNat (256 + i)],
      { promptRow (String.ofList [Char.ofNat (256 + i)]) "u" "hi" 9 with
        state := .delivered })) := by
  refine entries_foldl_insert _ (fun i j hij hj => ?_)
  unfold maxRetainedDeliveredCommands at hj
  rw [String.lt_iff_toList_lt]
  simp only [String.toList_ofList]
  rw [cons_lt_cons_iff]
  left
  rw [Char.lt_def, UInt32.lt_iff_toNat_lt]
  change (Char.ofNat (256 + i)).toNat < (Char.ofNat (256 + j)).toNat
  rw [toNat_charOfNat (by omega), toNat_charOfNat (by omega)]
  omega

lemma receipts_eq : receipts = ⟨(range maxRetainedDeliveredCommands).map
    (fun i => (String.ofList [Char.ofNat (256 + i)],
      { promptRow (String.ofList [Char.ofNat (256 + i)]) "u" "hi" 9 with state := .delivered })),
    receipts_entries ▸ receipts.sorted⟩ :=
  ext_entries receipts_entries

/-- A cancelled prompt is back after a repetition; one whose receipt is pruned is delivered again.
-/
theorem repeated_admission_harms :
    exec (Story.step ⟨fun _ => 0, fun _ => 0⟩ prompt)
        (Story.start ⟨fun _ => 0, fun _ => 0⟩ prompt ∅ 1)
        [(2, .cancel "a"), (3, prompt.op)] =
      ⟨(∅ : Outbox).insert "a" { promptRow "a" "t" "hi" 1 with
        presentation := .delivery, updatedAt := 3 }, 0, true, false⟩ ∧
    (exec (Story.step ⟨fun _ => 0, fun _ => 0⟩ prompt)
        (Story.start ⟨fun _ => 0, fun _ => 0⟩ prompt ∅ 1)
        [(2, .edit "a" (.arr [.obj [("text", .str "hi!"), ("type", .str "text")]])),
          (3, prompt.op)]).refused = true ∧
    (exec (Story.step ⟨fun _ => 0, fun _ => 0⟩ prompt)
        (Story.start ⟨fun _ => 0, fun _ => 0⟩ prompt receipts 1)
        [(2, .claimDispatch "a"), (3, .resolve "a" 1 .delivered), (10, putPrompt "b" "u" "hi"),
          (11, prompt.op), (12, .claimDispatch "a"),
          (13, .resolve "a" 1 .delivered)]).deliveries = 2 := by
  refine ⟨by decide, by decide +kernel, ?_⟩
  -- a table of the receipts as they stand, so that the check does not insert each of them again
  rw [receipts_eq]
  decide +kernel

end CodeWide.Store
