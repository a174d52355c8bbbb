import CodeWide.Store.Ownership

/-!
# Steer operations and what a row remembers of them

A client names every steer by an operation id and may repeat it.
-/

namespace CodeWide.Store

open Lib Saturating Option

def Remembers (row : OutboxCommand) (operationId : String) : Prop :=
  ∃ claim, row.claim = some claim ∧ claim.kind = .steer ∧ claim.operationId = some operationId

instance (row : OutboxCommand) (operationId : String) : Decidable (Remembers row operationId) :=
  match h : row.claim with
  | none => isFalse (by simp [Remembers, h])
  | some claim =>
    decidable_of_iff (claim.kind = .steer ∧ claim.operationId = some operationId)
      (by simp [Remembers, h])

structure SteerLog where
  table : Outbox
  grants : List Grant

namespace SteerLog

def empty : SteerLog := ⟨∅, []⟩

def step (enc : Encoding) (s : SteerLog) (i : Nat × OutboxOp) : SteerLog :=
  let r := i.2.run enc s.table i.1
  { table := r.1, grants := s.grants ++ (i.2.grant? r.2).toList }

def Granted (s : SteerLog) (c operationId : String) : Prop :=
  ∃ g ∈ s.grants, g.commandId = c ∧ g.kind = .steer ∧ g.operationId = some operationId

def AnswersDuplicate (enc : Encoding) (s : SteerLog) (i : Nat × OutboxOp) : Prop :=
  ∀ c operationId, i.2 = .claimSteer c operationId → s.Granted c operationId →
    ∃ row, ((OutboxOp.claimSteer c operationId).run enc s.table i.1).2 = .ok (.duplicate row)

/-- The step, if it repeats a granted steer, finds it as the row's last claim. -/
def StillRemembered (s : SteerLog) (i : Nat × OutboxOp) : Prop :=
  ∀ c operationId, i.2 = .claimSteer c operationId → s.Granted c operationId →
    ∃ row, s.table.get? c = some row ∧ Remembers row operationId

/-- The step, if it repeats a granted steer, does not find the row queued again under
another claim. -/
def NotReopened (s : SteerLog) (i : Nat × OutboxOp) : Prop :=
  ∀ c operationId, i.2 = .claimSteer c operationId → s.Granted c operationId →
    ∀ row, s.table.get? c = some row → row.state = .queued →
      nextToken row ≤ max64 → Remembers row operationId

end SteerLog

def GrantedOnce (grants : List Grant) : Prop :=
  grants.Pairwise (fun g h => ¬ (g.kind = .steer ∧ h.kind = .steer ∧
    g.commandId = h.commandId ∧ g.operationId = h.operationId))

instance (grants : List Grant) : Decidable (GrantedOnce grants) :=
  inferInstanceAs (Decidable (grants.Pairwise _))

section Claims

variable {enc : Encoding} {table : Outbox} {now : Nat} {c operationId : String}

/-- Both ids pass their checks. -/
def ValidSteer (c operationId : String) : Prop :=
  validateOutboxId operationId "steer operation id" = .ok () ∧
    validateOutboxId c "command id" = .ok ()

lemma validSteer_of_grant {op : OutboxOp} {g : Grant}
    (h : op.grant? (op.run enc table now).2 = some g) (hkind : g.kind = .steer) :
    ∃ o, op = .claimSteer g.commandId o ∧ g.operationId = some o ∧ ValidSteer g.commandId o := by
  unfold OutboxOp.run at h
  cases hrun : op.transact enc table now with
  | error e =>
    rw [hrun] at h
    cases op <;> cases h
  | ok r =>
  obtain ⟨table', a⟩ := r
  rw [hrun] at h
  cases op <;> first
    | cases h
    | cases a <;> cases h
  · cases hkind
  · obtain ⟨_, hop, hclaim⟩ := bind_ok hrun
    obtain ⟨_, hid, -⟩ := bind_ok hclaim
    exact ⟨_, rfl, rfl, hop, hid⟩

variable {row : OutboxCommand}

lemma claimSteer_of_remembers (hvalid : ValidSteer c operationId)
    (hrow : table.get? c = some row) (h : Remembers row operationId) :
    ((OutboxOp.claimSteer c operationId).run enc table now).2 = .ok (.duplicate row) := by
  obtain ⟨claim, hclaim, hkind, hop⟩ := h
  have hany : row.claim.any (fun claim => decide (claim.kind = .steer) &&
      decide (claim.operationId = some operationId)) = true := by
    simp [hclaim, hkind, hop]
  have hcall : outboxClaim table now c .steer (some operationId) = .ok (table, .duplicate row) := by
    simp only [outboxClaim, hvalid.2, hrow, hany, decide_true, Bool.and_self, if_true]
    rfl
  simp only [OutboxOp.run, OutboxOp.transact, outboxClaimSteer, hvalid.1, hcall]
  rfl

lemma remembers_of_duplicate
    (h : ((OutboxOp.claimSteer c operationId).run enc table now).2 = .ok (.duplicate row)) :
    table.get? c = some row ∧ Remembers row operationId := by
  unfold OutboxOp.run at h
  cases hrun : (OutboxOp.claimSteer c operationId).transact enc table now with
  | error e =>
    rw [hrun] at h
    cases h
  | ok r =>
  obtain ⟨table', a⟩ := r
  rw [hrun] at h
  cases h
  obtain ⟨_, -, hclaim⟩ := bind_ok hrun
  unfold outboxClaim at hclaim
  obtain ⟨_, -, hclaim⟩ := bind_ok hclaim
  split at hclaim
  · cases hclaim
  rename_i row' hrow
  dsimp only at hclaim
  split at hclaim
  · rename_i hrepeat
    cases hclaim
    refine ⟨hrow, ?_⟩
    cases hlast : row.claim with
    | none => simp [hlast] at hrepeat
    | some claim =>
    simp only [hlast, any_some, decide_true, Bool.true_and, Bool.and_eq_true,
      decide_eq_true_eq] at hrepeat
    exact ⟨claim, hlast, hrepeat.1, hrepeat.2⟩
  · split at hclaim
    · cases hclaim
    · split at hclaim <;> cases hclaim

lemma claimSteer_of_reopened (hvalid : ValidSteer c operationId)
    (hrow : table.get? c = some row) (hstate : row.state = .queued)
    (htoken : nextToken row ≤ max64) (h : ¬ Remembers row operationId) :
    (OutboxOp.claimSteer c operationId).grant?
      ((OutboxOp.claimSteer c operationId).run enc table now).2 =
        some ⟨c, .steer, some operationId, nextToken row⟩ := by
  have hany : row.claim.any (fun claim => decide (claim.kind = .steer) &&
      decide (claim.operationId = some operationId)) = false := by
    cases hlast : row.claim with
    | none => rfl
    | some claim =>
    rw [← Bool.not_eq_true]
    intro hrepeat
    simp only [any_some, Bool.and_eq_true, decide_eq_true_eq] at hrepeat
    exact h ⟨claim, hlast, hrepeat.1, hrepeat.2⟩
  have hcall : outboxClaim table now c .steer (some operationId) =
      .ok (table.insert c (claimedRow now .steer (some operationId) row),
        .acquired (claimedRow now .steer (some operationId) row) (nextToken row)) := by
    simp only [outboxClaim, hvalid.2, hrow, hany, Bool.and_false, hstate]
    have hle : ¬ nextToken row > max64 := by omega
    simp only [hle, if_false]
    rfl
  simp only [OutboxOp.run, OutboxOp.transact, outboxClaimSteer, hvalid.1, hcall]
  rfl

end Claims

section Runs

open SteerLog

variable {enc : Encoding} {s : SteerLog}

def SteerLog.Valid (s : SteerLog) : Prop :=
  ∀ c operationId, s.Granted c operationId → ValidSteer c operationId

lemma SteerLog.Valid.step (h : s.Valid) (i : Nat × OutboxOp) : (s.step enc i).Valid := by
  intro c operationId hgr
  obtain ⟨g, hg, rfl, hkind, hop⟩ := hgr
  rcases List.mem_append.mp hg with hg | hg
  · exact h _ _ ⟨g, hg, rfl, hkind, hop⟩
  obtain ⟨o, -, ho, hvalid⟩ := validSteer_of_grant (mem_toList.mp hg) hkind
  rw [hop] at ho
  cases ho
  exact hvalid

lemma answersDuplicate_iff (hs : s.Valid) (i : Nat × OutboxOp) :
    AnswersDuplicate enc s i ↔ StillRemembered s i := by
  constructor
  · intro h c operationId hop hgr
    obtain ⟨row, hrow⟩ := h c operationId hop hgr
    exact ⟨row, remembers_of_duplicate hrow⟩
  · intro h c operationId hop hgr
    obtain ⟨row, hrow, hrem⟩ := h c operationId hop hgr
    exact ⟨row, claimSteer_of_remembers (hs c operationId hgr) hrow hrem⟩

lemma grantedOnce_append {l : List Grant} {g : Grant} :
    GrantedOnce (l ++ [g]) ↔ GrantedOnce l ∧ ∀ h ∈ l, ¬ (h.kind = .steer ∧ g.kind = .steer ∧
      h.commandId = g.commandId ∧ h.operationId = g.operationId) := by
  unfold GrantedOnce
  rw [List.pairwise_append]
  simp

/-- One step repeats a grant exactly when it finds the row reopened under another claim. -/
lemma grantedOnce_step (hs : s.Valid) (i : Nat × OutboxOp) :
    GrantedOnce (s.step enc i).grants ↔ GrantedOnce s.grants ∧ NotReopened s i := by
  obtain ⟨now, op⟩ := i
  change GrantedOnce (s.grants ++ (op.grant? (op.run enc s.table now).2).toList) ↔ _
  cases hg : op.grant? (op.run enc s.table now).2 with
  | none =>
    simp only [toList_none, List.append_nil, iff_self_and]
    intro _ c operationId hop hgr row hrow hstate htoken
    by_contra hrem
    dsimp only at hop
    subst hop
    rw [claimSteer_of_reopened (hs c operationId hgr) hrow hstate htoken hrem] at hg
    cases hg
  | some g =>
  rw [toList_some, grantedOnce_append]
  refine and_congr_right (fun _ => ?_)
  constructor
  · intro hnew c operationId hop hgr row hrow hstate htoken
    by_contra hrem
    dsimp only at hop
    subst hop
    rw [claimSteer_of_reopened (hs c operationId hgr) hrow hstate htoken hrem] at hg
    cases hg
    obtain ⟨h, hh, hc, hkind, ho⟩ := hgr
    exact hnew h hh ⟨hkind, rfl, hc, ho⟩
  rintro hopen h hh ⟨hkind, hkind', hc, ho⟩
  obtain ⟨o, hop, hgo, -⟩ := validSteer_of_grant hg hkind'
  obtain ⟨-, row, hrow, hstate, -, hle, hnew, -⟩ := run_grant hg
  have hrem := hopen g.commandId o hop ⟨h, hh, hc, hkind, ho.trans hgo⟩ row hrow hstate hle
  rw [hgo] at hnew
  exact hnew ⟨hkind', hrem⟩

lemma SteerLog.valid_empty : SteerLog.empty.Valid := by
  rintro c operationId ⟨g, hg, -⟩
  cases hg

lemma always_answersDuplicate_iff (hs : s.Valid) (ops : List (Nat × OutboxOp)) :
    Always (step enc) (AnswersDuplicate enc) s ops ↔ Always (step enc) StillRemembered s ops := by
  induction ops generalizing s with
  | nil => exact Iff.rfl
  | cons i rest ih => exact and_congr (answersDuplicate_iff hs i) (ih (hs.step i))

lemma grantedOnce_exec_iff (hs : s.Valid) (ops : List (Nat × OutboxOp)) :
    GrantedOnce (exec (step enc) s ops).grants ↔
      GrantedOnce s.grants ∧ Always (step enc) NotReopened s ops := by
  induction ops generalizing s with
  | nil => simp [Always]
  | cons i rest ih =>
    rw [exec_cons, ih (hs.step i), grantedOnce_step hs i, and_assoc]
    rfl

lemma always_notReopened_of_remembered {ops : List (Nat × OutboxOp)}
    (h : Always (step enc) StillRemembered s ops) : Always (step enc) NotReopened s ops := by
  induction ops generalizing s with
  | nil => trivial
  | cons i rest ih =>
  refine ⟨?_, ih h.2⟩
  intro c operationId hop hgr row hrow _ _
  obtain ⟨row', hrow', hrem⟩ := h.1 c operationId hop hgr
  rw [hrow] at hrow'
  cases hrow'
  exact hrem

end Runs

open SteerLog in
/-- Repeated steers are duplicates exactly when each still finds its own claim as the last. -/
theorem steer_repeat_duplicate_iff (enc : Encoding) (ops : List (Nat × OutboxOp)) :
    ((GrantedOnce (exec (step enc) empty ops).grants ∧
        Always (step enc) (AnswersDuplicate enc) empty ops) ↔
      Always (step enc) StillRemembered empty ops) ∧
    (GrantedOnce (exec (step enc) empty ops).grants ↔
      Always (step enc) NotReopened empty ops) := by
  have honce : GrantedOnce (exec (step enc) empty ops).grants ↔
      Always (step enc) NotReopened empty ops := by
    rw [grantedOnce_exec_iff valid_empty ops]
    exact and_iff_right List.Pairwise.nil
  have hdup := @always_answersDuplicate_iff enc _ valid_empty ops
  refine ⟨⟨fun h => hdup.mp h.2, ?_⟩, honce⟩
  intro h
  exact ⟨honce.mpr (always_notReopened_of_remembered h), hdup.mpr h⟩

/-- Two rejected steers and two retries: the first operation is granted again. -/
theorem steer_granted_twice :
    ¬ GrantedOnce (exec (SteerLog.step ⟨fun _ => 0, fun _ => 0⟩) SteerLog.empty
      [(1, putPrompt "a" "t" "hi"), (2, .claimSteer "a" "steer-a"),
       (3, .resolve "a" 1 (.rejected "no active turn")), (4, .retryFailed "a"),
       (5, .claimSteer "a" "steer-b"), (6, .resolve "a" 2 (.rejected "no active turn")),
       (7, .retryFailed "a"), (8, .claimSteer "a" "steer-a")]).grants := by
  decide

end CodeWide.Store
