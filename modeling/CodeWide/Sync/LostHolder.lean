import CodeWide.Store.OutboxOrder
import CodeWide.Sync.Uncertain

/-!
# Claims whose holder is lost

`outbox_ready_heads` passes over a head with an open claim.
-/

namespace CodeWide.Store

open Lib List

/-- The pump finds the command once its next attempt is due. -/
def Offered (table : Outbox) (head : OutboxCommand) : Prop :=
  ∀ now, head.nextAttemptAt ≤ now → head ∈ outboxReadyHeads table now

section Heads

lemma exists_head {table : Outbox} {c : String} {row : OutboxCommand}
    (hrow : table.get? c = some row) (hunfin : isTerminal row = false) :
    ∃ head ∈ outboxHeads table, IsHead table row.remoteThreadId head := by
  have hsome : ((outboxList table none).find? (fun r =>
      decide (r.remoteThreadId = row.remoteThreadId) && !isTerminal r)).isSome = true := by
    rw [find?_isSome]
    exact ⟨row, mem_outboxList.mpr ⟨c, hrow⟩, by simp [hunfin]⟩
  obtain ⟨head, hhead⟩ := Option.isSome_iff_exists.mp hsome
  obtain ⟨hmatch, before, after, hlist, hbef⟩ := find?_eq_some_iff_append.mp hhead
  have hthr : head.remoteThreadId = row.remoteThreadId := by
    simp only [Bool.and_eq_true, decide_eq_true_eq] at hmatch
    exact hmatch.1
  have hopen : isTerminal head = false := by
    simp only [Bool.and_eq_true, Bool.not_eq_true'] at hmatch
    exact hmatch.2
  have hfin : ∀ r ∈ before, r.remoteThreadId = row.remoteThreadId → isTerminal r = true := by
    intro r hr hrthread
    have hnot := hbef r hr
    simpa [hrthread] using hnot
  refine ⟨head, ?_, mem_outboxList.mp ?_, hthr, hopen, fun d r hd hrthread hropen => ?_⟩
  · unfold outboxHeads
    refine mem_foldl_pushHead.mpr (.inr ⟨before, after, hlist, hopen, by simp, ?_⟩)
    intro r hr hrlive hrthread
    rw [hfin r hr (hrthread.trans hthr)] at hrlive
    cases hrlive
  · rw [hlist]
    exact mem_append_right _ mem_cons_self
  have hmem : r ∈ outboxList table none := mem_outboxList.mpr ⟨d, hd⟩
  have hpairwise : (outboxList table none).Pairwise
      (fun a b => keyLe (a.order, a.createdAt) (b.order, b.createdAt)) :=
    outboxSort_pairwise _
  rw [hlist] at hmem hpairwise
  rcases mem_append.mp hmem with hr | hr
  · rw [hfin r hr hrthread] at hropen
    cases hropen
  rcases mem_cons.mp hr with rfl | hr
  · exact le_rfl
  have hle := (pairwise_cons.mp (pairwise_append.mp hpairwise).2.1).1 r hr
  unfold keyLe at hle
  dsimp only at hle
  omega

lemma offered_iff {table : Outbox} {head : OutboxCommand} (hhead : head ∈ outboxHeads table) :
    Offered table head ↔ outboxHasInFlightClaim head = false := by
  constructor
  · intro h
    have hmem := (mem_filter.mp (h head.nextAttemptAt le_rfl)).2
    simpa using hmem
  · intro hcl now hdue
    exact mem_filter.mpr ⟨hhead, by simp [hdue, hcl]⟩

end Heads

end CodeWide.Store

namespace CodeWide.Sync

open Lib Store

namespace System

/-- No task vanishes, and none gives up, while it holds a claim. -/
def Steadfast (s : System) : Action → Prop
  | .abort n => s.held (.socket n) = none
  | .restart => ∀ id, s.held id = none
  | .advance id _ (some _) _ => ∀ c token resolution,
    nextOp? (s.tasks id) ≠ some (.resolve c token resolution)
  | _ => True

/-- Every open claim has a live holder. -/
def Covered (s : System) : Prop :=
  ∀ c row token, s.table.get? c = some row → InFlight row token → ∃ id, s.held id = some (c, token)

section Holders

variable {enc : Encoding} {s : System}

lemma Covered.rpc (hcov : s.Covered) (h : s.Inv) (now : Nat) (request : QueueRpc) :
    (s.perform enc now request.op).1.Covered := by
  intro c row token hrow hopen
  change (request.op.run enc s.table now).1.get? c = some row at hrow
  have hgrant : request.op.grant? (request.op.run enc s.table now).2 = none :=
    grant?_eq_none (by cases request <;> rfl)
  exact hcov c row token (h.sound.open_of_no_grant hgrant hrow hopen) hopen

lemma Covered.performed (hcov : s.Covered) (h : s.Inv) {id : TaskId} {op : OutboxOp}
    {k : Except StoreError op.Answer → Task Unit} (htask : s.tasks id = .ask (.store op) k)
    (now : Nat) :
    System.Covered { (s.perform enc now op).1 with
      tasks := Function.update s.tasks id (k (s.perform enc now op).2)
      held := Function.update s.held id
        (custody.next (s.held id) (.store op) (s.perform enc now op).2) } := by
  have hfol := h.follows id
  rw [htask] at hfol
  have hallow : allowedOp (s.held id) op := hfol.1.1 op rfl
  intro c row token hrow hopen
  change (op.run enc s.table now).1.get? c = some row at hrow
  cases hans : claimAnswer? (.store op) (s.perform enc now op).2 with
  | some granted =>
    obtain ⟨d, claimed, t⟩ := granted
    have hnext : custody.next (s.held id) (.store op) (s.perform enc now op).2 = some (d, t) := by
      simp [custody, hans]
    obtain ⟨g, hg, rfl, rfl⟩ := grant?_of_claimAnswer? hans
    obtain ⟨hclaims, before, hbef, hstate, htoken, -, -, htable⟩ := run_grant hg
    rw [htable] at hrow
    rcases eq_or_ne c g.commandId with rfl | hne
    · rw [Table.get?_insert_self, Option.some.injEq] at hrow
      subst hrow
      have htoken' : InFlight (claimedRow now g.kind g.operationId before) g.token :=
        ⟨_, rfl, htoken.symm, rfl⟩
      refine ⟨id, ?_⟩
      simp only [Function.update_self, hnext, hopen.token_eq htoken']
    rw [Table.get?_insert_of_ne _ _ hne] at hrow
    obtain ⟨j, hj⟩ := hcov c row token hrow hopen
    have hnone : s.held id = none := by
      cases op with
      | claimDispatch d | claimSteer d operationId => exact hallow
      | _ => cases hclaims
    have hji : j ≠ id := by
      rintro rfl
      rw [hnone] at hj
      cases hj
    exact ⟨j, by simp only [Function.update_of_ne hji, hj]⟩
  | none =>
  have hgrant := claimAnswer?_of_grant? hans
  have hold := h.sound.open_of_no_grant hgrant hrow hopen
  obtain ⟨j, hj⟩ := hcov c row token hold hopen
  rcases eq_or_ne j id with rfl | hji
  · -- Had the task resolved this claim, the row would be closed.
    have hnot : (Query.store op).resolves = false := by
      cases op with
      | resolve d t resolution =>
        have hsame : some (c, token) = some (d, t) := hj.symm.trans hallow
        cases hsame
        rw [h.sound.run_resolve hold hopen (h.holds j c token hj).1 resolution] at hrow
        have hcl := @notInFlight_of_resolved row resolution now
        rw [Option.some.inj hrow, inFlight_iff.mpr ⟨token, hopen⟩] at hcl
        cases hcl
      | _ => rfl
    refine ⟨j, ?_⟩
    simp only [Function.update_self, custody, hans, hnot, Bool.false_eq_true, if_false]
    exact hj
  · exact ⟨j, by simp only [Function.update_of_ne hji, hj]⟩

lemma Covered.kept (hcov : s.Covered) {s' : System} (htable : s'.table = s.table)
    (hheld : s'.held = s.held) : s'.Covered := by
  intro c row token hrow hopen
  rw [htable] at hrow
  rw [hheld]
  exact hcov c row token hrow hopen

lemma Covered.step (hcov : s.Covered) (h : s.Inv) {action : Action}
    (hstead : s.Steadfast action) : (s.step enc action).Covered := by
  cases action with
  | rpc now request => exact hcov.rpc h now request
  | pass | steer n requestId commandId expectedTurnId =>
    simp only [System.step, System.spawn]
    split <;> exact hcov
  | abort n =>
    refine hcov.kept rfl ?_
    change Function.update s.held (.socket n) none = s.held
    rw [← hstead, Function.update_eq_self]
  | restart =>
    refine hcov.kept rfl ?_
    exact (funext hstead).symm
  | advance id now fails world =>
  rcases @advance_cases enc s id now fails world with
    hsame | ⟨op, k, e, htask, rfl, hstep⟩ | ⟨op, k, htask, -, hstep⟩ | ⟨q, k, a, htask, hne, hstep⟩
  · rw [hsame]
    exact hcov
  · rw [hstep]
    have hop : nextOp? (s.tasks id) = some op := by rw [htask]; rfl
    have hnot : (Query.store op).resolves = false := by
      cases op with
      | resolve c token resolution => exact absurd hop (hstead c token resolution)
      | _ => rfl
    refine hcov.kept rfl ?_
    have hnext : custody.next (s.held id) (.store op) (.error e) = s.held id := by
      simp [custody, claimAnswer?_error, hnot]
    simp only [hnext, Function.update_eq_self]
  · rw [hstep]
    exact hcov.performed h htask now
  rw [hstep]
  have hans : claimAnswer? q a = none :=
    claimAnswer?_of_ne (fun _ => hne _) (fun _ _ => hne _)
  have hnot : q.resolves = false := by
    cases q <;> first
      | rfl
      | exact absurd rfl (hne _)
  refine hcov.kept rfl ?_
  have hnext : custody.next (s.held id) q a = s.held id := by
    simp [custody, hans, hnot]
  simp only [hnext, Function.update_eq_self]

end Holders

/-- A thread's head is offered exactly when its claim is not open. -/
theorem head_offered_without_holder (enc : Encoding) (actions : List Action) :
    (∀ head ∈ outboxHeads (exec (step enc) empty actions).table,
      Offered (exec (step enc) empty actions).table head ↔ outboxHasInFlightClaim head = false) ∧
    (Always (step enc) Steadfast empty actions →
      ∀ c row, (exec (step enc) empty actions).table.get? c = some row → isTerminal row = false →
        ∃ head, IsHead (exec (step enc) empty actions).table row.remoteThreadId head ∧
          ((∀ id token, (exec (step enc) empty actions).held id ≠ some (head.commandId, token)) →
            Offered (exec (step enc) empty actions).table head)) := by
  refine ⟨fun head hhead => offered_iff hhead, fun hrun c row hrow hunfin => ?_⟩
  have hstart : empty.Inv ∧ empty.Covered :=
    ⟨inv_empty, fun c row token hrow => by simp [empty] at hrow⟩
  have hstep : ∀ (s : System) (action : Action), s.Inv ∧ s.Covered → s.Steadfast action →
      (s.step enc action).Inv ∧ (s.step enc action).Covered :=
    fun s action hs hstead => ⟨hs.1.step action, hs.2.step hs.1 hstead⟩
  obtain ⟨hinv, hcov⟩ := exec_invariant_of_always hstep hstart hrun
  obtain ⟨head, hmem, hhead⟩ := exists_head hrow hunfin
  refine ⟨head, hhead, fun hfree => (offered_iff hmem).mpr ?_⟩
  by_contra hopen
  rw [Bool.not_eq_false] at hopen
  obtain ⟨token, htoken⟩ := inFlight_iff.mp hopen
  obtain ⟨d, hd⟩ := hhead.stored
  obtain ⟨id, hid⟩ := hcov d head token hd htoken
  have hkey : head.commandId = d := hinv.sound.keyed d head hd
  exact hfree id token (hkey ▸ hid)

/-- The actions that let no holder vanish, whatever is held. -/
def dropsNothing : Action → Bool
  | .abort _ => false
  | .restart => false
  | .advance _ _ (some _) _ => false
  | _ => true

lemma steadfast_of_dropsNothing {s : System} {action : Action} (h : dropsNothing action = true) :
    s.Steadfast action := by
  unfold Steadfast
  split
  · cases h
  · cases h
  · cases h
  · trivial

/-- After a lost response the claim is resolved, and the uncertain prompt is offered. -/
theorem head_offered_after_lost_response :
    Always (step ⟨fun _ => 0, fun _ => 0⟩) Steadfast empty lostResponse ∧
    ∃ head, IsHead (exec (step ⟨fun _ => 0, fun _ => 0⟩) empty lostResponse).table "t" head ∧
      ((∀ id token, (exec (step ⟨fun _ => 0, fun _ => 0⟩) empty lostResponse).held id ≠
          some (head.commandId, token)) →
        Offered (exec (step ⟨fun _ => 0, fun _ => 0⟩) empty lostResponse).table head) := by
  have hquiet : Always (step ⟨fun _ => 0, fun _ => 0⟩)
      (fun _ action => dropsNothing action = true) empty lostResponse := by decide
  have hstead : Always (step ⟨fun _ => 0, fun _ => 0⟩) Steadfast empty lostResponse :=
    hquiet.imp (fun s action => steadfast_of_dropsNothing)
  have hsome : ((exec (step ⟨fun _ => 0, fun _ => 0⟩) empty lostResponse).table.get? "a").map
      (fun row => (row.remoteThreadId, isTerminal row)) = some ("t", false) := by decide
  obtain ⟨row, hrow, hfields⟩ := Option.map_eq_some_iff.mp hsome
  obtain ⟨hthr, hunfin⟩ := Prod.mk.inj hfields
  have hoffered := (head_offered_without_holder _ lostResponse).2 hstead "a" row hrow hunfin
  rw [hthr] at hoffered
  exact ⟨hstead, hoffered⟩

/-- After a restart between the claim and its resolution no pass ever finds the prompt. -/
theorem restart_wedges_thread :
    let s := exec (step ⟨fun _ => 0, fun _ => 0⟩) empty
      ((.rpc 1 (.put "a" "t" (promptParams "a" "t" "hi") ⟨none, .delivery, none⟩) ::
        pumpActions 8 10 (liveWorld (.ok ()) (.ok (.obj [])) [])) ++ [.restart])
    (∀ id, s.held id = none) ∧
    (s.table.get? "a").map isTerminal = some false ∧
    ∀ now, outboxReadyHeads s.table now = [] := by
  intro s
  refine ⟨fun id => rfl, by decide, fun now => ?_⟩
  have hopen : ∀ head ∈ outboxHeads s.table, outboxHasInFlightClaim head = true := by decide
  unfold outboxReadyHeads
  rw [List.filter_eq_nil_iff]
  intro head hhead
  simp [hopen head hhead]

end System

end CodeWide.Sync
