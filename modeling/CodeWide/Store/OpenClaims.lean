import CodeWide.Store.Ownership

/-!
# The open claims of the outbox

A claim is opened by a grant, it is closed by its holder's resolution, and no other transaction
touches its row.
-/

namespace CodeWide.Store

open Lib

/-- Rows are stored under their own id, and one with an open claim is uncertain. -/
structure Outbox.Sound (table : Outbox) : Prop where
  keyed : Keyed table
  uncertain : ∀ c row, table.get? c = some row → outboxHasInFlightClaim row = true →
    row.state = .uncertain

lemma Outbox.sound_empty : Outbox.Sound ∅ := by
  refine ⟨keyed_empty, fun c row hrow => ?_⟩
  simp at hrow

variable {enc : Encoding} {table : Outbox} {now : Nat} {op : OutboxOp} {c : String}
  {row row' : OutboxCommand} {token : Nat}

lemma notInFlight_of_resolved (resolution : OutboxClaimResolution) (now : Nat) :
    outboxHasInFlightClaim (resolvedRow now resolution row) = false := by
  cases hclaim : row.claim <;> simp [resolvedRow, markClaimResolved, outboxHasInFlightClaim, hclaim]

lemma RowChange.open_cases {r : Option OutboxCommand} (h : RowChange op now c r (some row'))
    (hr : ∀ row, r = some row → outboxHasInFlightClaim row = true → row.state = .uncertain)
    (hopen : outboxHasInFlightClaim row' = true) :
    r = some row' ∨ ∃ kind operationId row, op.claims? = some (c, kind, operationId) ∧
      r = some row ∧ row' = claimedRow now kind operationId row := by
  have hkept : ∀ {row}, r = some row → op.claims? = none →
      (∀ token resolution, op ≠ .resolve c token resolution) →
      RowChange op now c (some row) (some row') → r = some row' := by
    intro row hrow hclaims hresolve hchg
    rcases hchg.settled_frame hclaims hresolve (hr row hrow) with rfl | ⟨-, hcl, -⟩
    · exact hrow
    · rw [hcl] at hopen
      cases hopen
  have hchg := h
  cases h with
  | same => exact .inl rfl
  | put _ _ _ hclaim => simp [outboxHasInFlightClaim, hclaim] at hopen
  | claim hop => exact .inr ⟨_, _, _, hop, rfl, rfl⟩
  | resolve _ _ _ => simp [notInFlight_of_resolved] at hopen
  | fail hop _ | setState hop _ | defer hop _ | wait hop _ | recover hop _ | retry hop _
  | edit hop _ | place hop _ =>
    exact .inl (hkept rfl (by simp [hop, OutboxOp.claims?]) (by simp [hop]) hchg)

lemma Outbox.Sound.run (h : table.Sound) (enc : Encoding) (now : Nat) (op : OutboxOp) :
    Outbox.Sound (op.run enc table now).1 := by
  refine ⟨run_keyed h.keyed op, fun c row' hrow' hopen => ?_⟩
  have hchg := @run_row enc table now h.keyed op c
  rw [hrow'] at hchg
  rcases hchg.open_cases (fun row hrow => h.uncertain c row hrow) hopen with
    hsame | ⟨kind, operationId, row, -, -, rfl⟩
  · exact h.uncertain c row' hsame hopen
  · rfl

lemma Outbox.Sound.run_open (h : table.Sound) (hrow : table.get? c = some row)
    (hopen : InFlight row token) (hop : ∀ resolution, op ≠ .resolve c token resolution) :
    (op.run enc table now).1.get? c = some row := by
  have hchg := @run_row enc table now h.keyed op c
  rw [hrow] at hchg
  exact hchg.inFlight_frame (h.uncertain c row hrow (inFlight_iff.mpr ⟨token, hopen⟩)) hopen hop

lemma Outbox.Sound.open_of_no_grant (h : table.Sound)
    (hgrant : op.grant? (op.run enc table now).2 = none)
    (hrow' : (op.run enc table now).1.get? c = some row') (hopen : InFlight row' token) :
    table.get? c = some row' := by
  have hchg := @run_row enc table now h.keyed op c
  rw [hrow'] at hchg
  rcases hchg.open_cases (fun row hrow => h.uncertain c row hrow)
    (inFlight_iff.mpr ⟨token, hopen⟩) with hsame | ⟨kind, operationId, row, hclaims, -, -⟩
  · exact hsame
  · rw [run_eq_of_no_grant (by simp [hclaims]) hgrant] at hrow'
    exact hrow'

lemma Outbox.Sound.run_resolve (h : table.Sound) (hrow : table.get? c = some row)
    (hopen : InFlight row token) (hvalid : validateOutboxId c "command id" = .ok ())
    (resolution : OutboxClaimResolution) :
    (OutboxOp.run enc table now (.resolve c token resolution)).1.get? c =
      some (resolvedRow now resolution row) := by
  have hstate := h.uncertain c row hrow (inFlight_iff.mpr ⟨token, hopen⟩)
  obtain ⟨claim, hclaim, htoken, hres⟩ := hopen
  have htransact : (OutboxOp.resolve c token resolution).transact enc table now =
      .ok (table.insert c (resolvedRow now resolution row),
        .applied (resolvedRow now resolution row)) := by
    simp only [OutboxOp.transact, outboxResolveClaim, hvalid, hrow, hclaim, htoken, hres,
      hstate, ne_eq, not_true_eq_false, if_false, Bool.false_eq_true, or_self]
    rfl
  rw [OutboxOp.run, htransact]
  exact Table.get?_insert_self _ _ _

lemma run_grant_answer {g : Grant} (h : op.grant? (op.run enc table now).2 = some g) :
    validateOutboxId g.commandId "command id" = .ok () := by
  have hclaim : ∀ {d kind operationId table'} {a : OutboxClaimOutcome},
      outboxClaim table now d kind operationId = .ok (table', a) →
      validateOutboxId d "command id" = .ok () := by
    intro d kind operationId table' a hok
    obtain ⟨u, hu, -⟩ := bind_ok hok
    exact hu
  unfold OutboxOp.run at h
  cases hrun : op.transact enc table now with
  | error e =>
    rw [hrun] at h
    cases op <;> cases h
  | ok r =>
  obtain ⟨table', a⟩ := r
  rw [hrun] at h
  cases op <;> first
    | cases h
    | cases a <;> cases h
  · exact hclaim hrun
  · obtain ⟨_, -, hrun⟩ := bind_ok hrun
    exact hclaim hrun

end CodeWide.Store
