import CodeWide.Sync.PumpSystem

/-!
# Prompts whose delivery is uncertain

A claim resolved as indeterminate leaves the command ambiguous until the user retries or steers it.
-/

namespace CodeWide.Sync

open Lib Store

/-- The command a waiting or deferring update puts back into the queue. -/
def requeues? : OutboxOp → Option String
  | .wait c .queued _ _ => some c
  | .defer c .queued _ _ => some c
  | _ => none

namespace System

/-- No update writes `Queued` over an uncertain row, and the recovery finds no ambiguous command. -/
def Careful (s : System) : Action → Prop
  | .advance id _ none _ =>
    (∀ op c row, nextOp? (s.tasks id) = some op → requeues? op = some c →
      s.table.get? c = some row → row.state = .uncertain → outboxHasInFlightClaim row = true) ∧
    (nextOp? (s.tasks id) = some .recoverLegacy → ∀ c row, s.table.get? c = some row →
      s.ambiguous c = true → isLegacyAccountPoolFailure row = false)
  | _ => True

def NeverBlind (s : System) : Action → Prop
  | .advance id _ _ _ => ∀ claimed, nextHandOver? (s.tasks id) = some claimed →
    s.ambiguous claimed.commandId = false
  | _ => True

def Remembers (s : System) : Prop :=
  ∀ c, s.ambiguous c = true → ∃ row, s.table.get? c = some row ∧ row.state ≠ .queued ∧
    outboxHasInFlightClaim row = false

section Transactions

variable {enc : Encoding} {s : System} {now : Nat} {op : OutboxOp} {c : String}

lemma endedUncertain?_eq_some {a : Except StoreError op.Answer}
    (h : endedUncertain? op a = some c) :
    ∃ token error delay, op = .resolve c token (.indeterminate error delay) ∧
      op.settled? a = some (c, token) := by
  unfold endedUncertain? at h
  split at h
  · cases h
    exact ⟨_, _, _, rfl, rfl⟩
  · cases h

lemma askedAgain?_retry {table : Outbox} {row : OutboxCommand} (hrow : table.get? c = some row)
    (hstate : row.state = .failed) :
    askedAgain? (.retryFailed c) (OutboxOp.run enc table now (.retryFailed c)).2 = some c := by
  have htransact : (OutboxOp.retryFailed c).transact enc table now =
      .ok (table.insert c (reopen now row), reopen now row) := by
    simp [OutboxOp.transact, outboxRetryFailed, hrow, hstate]
  rw [OutboxOp.run, htransact]
  rfl

lemma RowChange.keeps_uncertain {row row' : OutboxCommand}
    (h : RowChange op now c (some row) (some row')) (hq : row.state ≠ .queued)
    (hcl : outboxHasInFlightClaim row = false)
    (hset : ∀ d state error, op = .setState d state error → state ≠ .queued)
    (hrequeue : requeues? op = some c → row.state = .uncertain → False)
    (hrecover : op = .recoverLegacy → isLegacyAccountPoolFailure row = false)
    (hretry : op = .retryFailed c → row.state ≠ .failed) :
    row'.state ≠ .queued ∧ outboxHasInFlightClaim row' = false := by
  have hlive : outboxRejectsStaleQueueUpdate row = false → row.state = .uncertain := by
    intro hlive
    cases hstate : row.state with
    | queued => exact absurd hstate hq
    | uncertain => rfl
    | failed | delivered => simp [outboxRejectsStaleQueueUpdate, hstate] at hlive
  cases h with
  | same => exact ⟨hq, hcl⟩
  | claim _ hstate => exact absurd hstate hq
  | resolve _ hopen =>
    rw [inFlight_iff.mpr ⟨_, hopen⟩] at hcl
    cases hcl
  | fail _ hstate => exact absurd hstate hq
  | setState hop _ => exact ⟨by simpa [setStateUpdate] using hset _ _ _ hop, settleClaim_settled hcl⟩
  | @defer state _ _ _ hop hlive' =>
    refine ⟨?_, settleClaim_settled hcl⟩
    rw [deferUpdate, settleClaim_state]
    rintro rfl
    exact hrequeue (by rw [hop]; rfl) (hlive hlive')
  | @wait state _ _ _ hop hlive' =>
    refine ⟨?_, settleClaim_settled hcl⟩
    rw [waitUpdate, settleClaim_state]
    rintro rfl
    exact hrequeue (by rw [hop]; rfl) (hlive hlive')
  | recover hop hlegacy =>
    rw [hrecover hop] at hlegacy
    cases hlegacy
  | retry hop hstate => exact absurd hstate (hretry hop)
  | edit _ hstate | place _ hstate => exact absurd hstate hq

lemma Remembers.perform (hr : s.Remembers) (h : s.Inv)
    (hset : ∀ d state error, op = .setState d state error → state ≠ .queued)
    (hrequeue : ∀ c row, requeues? op = some c → s.table.get? c = some row →
      row.state = .uncertain → outboxHasInFlightClaim row = true)
    (hrecover : op = .recoverLegacy → ∀ c row, s.table.get? c = some row →
      s.ambiguous c = true → isLegacyAccountPoolFailure row = false) :
    (s.perform enc now op).1.Remembers := by
  intro c hambiguous
  simp only [System.perform, noteOp, Bool.and_eq_true, Bool.or_eq_true, decide_eq_true_eq,
    Table.contains_iff] at hambiguous ⊢
  obtain ⟨⟨row', hrow'⟩, hended | ⟨hbef, hasked⟩⟩ := hambiguous
  · obtain ⟨token, error, delay, hop, hsett⟩ := endedUncertain?_eq_some hended
    obtain ⟨resolution, row, hop', -, -, hstate, htable⟩ := run_settled hsett
    rw [hop] at hop'
    cases hop'
    refine ⟨resolvedRow now (.indeterminate error delay) row, ?_, ?_, notInFlight_of_resolved _ _⟩
    · rw [htable]
      exact Table.get?_insert_self _ _ _
    · change row.state ≠ .queued
      rw [hstate]
      decide
  obtain ⟨row, hrow, hq, hcl⟩ := hr c hbef
  have hchg := @run_row enc s.table now h.sound.keyed op c
  rw [hrow, hrow'] at hchg
  refine ⟨row', hrow', RowChange.keeps_uncertain hchg hq hcl hset ?_ ?_ ?_⟩
  · intro hop hstate
    rw [hrequeue c row hop hrow hstate] at hcl
    cases hcl
  · exact fun hop => hrecover hop c row hrow hbef
  · rintro rfl hstate
    exact hasked (askedAgain?_retry hrow hstate)

end Transactions

section Runs

variable {enc : Encoding} {s : System}

lemma Remembers.step (hr : s.Remembers) (h : s.Inv) {action : Action} (hcare : s.Careful action) :
    (s.step enc action).Remembers := by
  cases action with
  | rpc now request =>
    refine hr.perform h ?_ ?_ ?_
    · intro d state error hop
      cases request <;> cases hop
    · intro c row hop
      cases request <;> cases hop
    · intro hop
      cases request <;> cases hop
  | pass | steer n requestId commandId expectedTurnId =>
    simp only [System.step, System.spawn]
    split <;> exact hr
  | abort n | restart => exact hr
  | advance id now fails world =>
  rcases @advance_cases enc s id now fails world with
    hsame | ⟨op, k, e, -, -, hstep⟩ | ⟨op, k, htask, rfl, hstep⟩ | ⟨q, k, a, -, -, hstep⟩
  · rw [hsame]
    exact hr
  · rw [hstep]
    exact hr
  · rw [hstep]
    have hop : nextOp? (s.tasks id) = some op := by rw [htask]; rfl
    have hfol := h.follows id
    rw [htask] at hfol
    have hallowed : allowedOp (s.held id) op := hfol.1.1 op rfl
    refine hr.perform h ?_ ?_ ?_
    · rintro d state error rfl
      rcases hallowed with rfl | rfl <;> decide
    · exact fun c row => hcare.1 op c row hop
    · rintro rfl
      exact hcare.2 hop
  · rw [hstep]
    exact hr

lemma Remembers.neverBlind (hr : s.Remembers) (h : s.Inv) (action : Action) :
    s.NeverBlind action := by
  cases action with
  | advance id now fails world =>
    intro claimed hclaim
    have hfol := h.follows id
    cases htask : s.tasks id with
    | pure a =>
      rw [htask] at hclaim
      cases hclaim
    | ask q k =>
    rw [htask] at hclaim hfol
    obtain ⟨token, hheld⟩ := hfol.1.2 claimed hclaim
    obtain ⟨-, row, hrow, hopen⟩ := h.holds id _ token hheld
    by_contra hambiguous
    rw [Bool.not_eq_false] at hambiguous
    obtain ⟨row', hrow', -, hcl⟩ := hr _ hambiguous
    rw [hrow] at hrow'
    cases hrow'
    rw [inFlight_iff.mpr ⟨token, hopen⟩] at hcl
    cases hcl
  | rpc now request => trivial
  | pass | steer n requestId commandId expectedTurnId | abort n | restart => trivial

/-- While the pump never writes `Queued` over an uncertain row, no task hands an ambiguous command
to a provider. -/
theorem uncertain_never_resent (enc : Encoding) (actions : List Action)
    (hrun : Always (step enc) Careful empty actions) :
    Always (step enc) NeverBlind empty actions ∧
    ∀ c, (exec (step enc) empty actions).ambiguous c = true →
      ∃ row, (exec (step enc) empty actions).table.get? c = some row ∧
        (row.state = .uncertain ∨ row.state = .failed ∨ row.state = .delivered) := by
  have hstart : empty.Inv ∧ empty.Remembers := ⟨inv_empty, fun c h => by cases h⟩
  have hstep : ∀ (s : System) (action : Action), s.Inv ∧ s.Remembers → s.Careful action →
      (s.step enc action).Inv ∧ (s.step enc action).Remembers :=
    fun s action hs hcare => ⟨hs.1.step action, hs.2.step hs.1 hcare⟩
  refine ⟨Always.of_invariant hstep (fun s action hs _ => hs.2.neverBlind hs.1 action) hstart hrun,
    fun c hc => ?_⟩
  obtain ⟨row, hrow, hq, -⟩ := (exec_invariant_of_always hstep hstart hrun).2 c hc
  refine ⟨row, hrow, ?_⟩
  cases hstate : row.state with
  | queued => exact absurd hstate hq
  | uncertain => exact .inl rfl
  | failed => exact .inr (.inl rfl)
  | delivered => exact .inr (.inr rfl)

end Runs

end System

def liveWorld (admission : Except AdmissionError Unit) (dispatch : Except DispatchError Json)
    (turns : List Json) : (q : Query) → q.Answer
  | .store _ => .error (.corruptedIndex "")
  | .list => .ok []
  | .readyHeads => .ok []
  | .operationStatus _ => none
  | .resolveThread threadId => .ok ⟨threadId, true⟩
  | .checkModelScope .. => .ok ()
  | .providerStatus _ => .live
  | .admitTurn _ => admission
  | .activity _ => .ok .idle
  | .neutralTurns _ => .ok turns
  | .fullHistory _ => .ok (.obj [("result", .obj [("data", .arr turns)])])
  | .summaryHistory _ => some (.ok (.obj [("data", .arr turns)]))
  | .retryDelayMs _ => 1000
  | .renderJson _ => ""
  | .injectFork _ params => params
  | .prepareRemoteFileInputs _ params => .ok params
  | .userContents input => .ok input
  | .turnSettingsOverrides _ => none
  | .threadUpdate .. => .ok ()
  | .steerOperationId _ commandId _ => commandId
  | .dispatchTurnStart .. => dispatch
  | .turnStart .. => .ok .started
  | .sendSteer .. => .ok (.obj [])

def pumpActions (questions now : Nat) (world : (q : Query) → q.Answer) : List Action :=
  .pass :: List.replicate questions (.advance .pump now none world)

def lostResponse : List Action :=
  .rpc 1 (.put "a" "t" (promptParams "a" "t" "hi") ⟨none, .delivery, none⟩) ::
    pumpActions 11 10 (liveWorld (.ok ()) (.error (.transport (.disconnected "lost"))) [])

namespace System

/-- The next transaction neither requeues a row nor recovers failures. -/
def requeuesNothing (s : System) : Action → Bool
  | .advance id _ _ _ => (nextOp? (s.tasks id)).all (fun op =>
    decide (requeues? op = none) && decide (op ≠ .recoverLegacy))
  | _ => true

lemma careful_of_requeuesNothing {s : System} {action : Action}
    (h : s.requeuesNothing action = true) : s.Careful action := by
  unfold Careful
  split
  · rename_i id now world
    constructor
    · intro op c row hop hrequeue
      simp [requeuesNothing, hop, hrequeue] at h
    · intro hop
      simp [requeuesNothing, hop] at h
  · trivial

/-- The next pass finds the prompt in the history. -/
theorem uncertain_never_resent_delivered :
    let actions := lostResponse ++ pumpActions 7 100000 (liveWorld (.ok ()) (.ok (.obj []))
      [.obj [("items", .arr [.obj [("clientId", .str "a"), ("type", .str "userMessage")]])]])
    Always (step ⟨fun _ => 0, fun _ => 0⟩) Careful empty actions ∧
    (exec (step ⟨fun _ => 0, fun _ => 0⟩) empty actions).ambiguous "a" = true ∧
    Always (step ⟨fun _ => 0, fun _ => 0⟩) NeverBlind empty actions := by
  intro actions
  have hquiet : Always (step ⟨fun _ => 0, fun _ => 0⟩)
      (fun s action => s.requeuesNothing action = true) empty actions := by decide
  have hcare := hquiet.imp (fun s action => careful_of_requeuesNothing)
  exact ⟨hcare, by decide, (uncertain_never_resent _ actions hcare).1⟩

/-- After the lost response the prompt is back in the queue, and the next pass hands it over again.
-/
theorem deferred_admission_resends :
    ¬ Always (step ⟨fun _ => 0, fun _ => 0⟩) NeverBlind empty
      ((lostResponse ++
        pumpActions 6 100000 (liveWorld (.error (.deferred "switching")) (.ok (.obj [])) []) ++
        pumpActions 8 200000 (liveWorld (.ok ()) (.ok (.obj [])) [])) ++
        [.advance .pump 200000 none (liveWorld (.ok ()) (.ok (.obj [])) [])]) := by
  intro h
  rw [always_append] at h
  have hblind := h.2.1
  have hnext : (nextHandOver? ((exec (step ⟨fun _ => 0, fun _ => 0⟩) empty (lostResponse ++
      pumpActions 6 100000 (liveWorld (.error (.deferred "switching")) (.ok (.obj [])) []) ++
      pumpActions 8 200000 (liveWorld (.ok ()) (.ok (.obj [])) []))).tasks .pump)).map
        (fun claimed => claimed.commandId) = some "a" := by decide
  obtain ⟨claimed, hclaim, hid⟩ := Option.map_eq_some_iff.mp hnext
  have hknown := hblind claimed hclaim
  rw [hid] at hknown
  revert hknown
  decide

end System

end CodeWide.Sync
