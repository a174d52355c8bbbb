import CodeWide.Lib.Run
import CodeWide.Store.OutboxRows

/-!
# Send ownership over whole runs of the outbox

A run keeps one `Ledger` per command id: how often the row was inserted, the tokens granted since
then, and the tokens whose resolution was applied.
-/

namespace CodeWide.Store

open Lib List Option

/-- What callers were told about the row of one command id. -/
structure Ledger where
  /-- How often a row was inserted under the id. -/
  incarnation : Nat
  /-- Tokens granted for the current row, oldest first. -/
  granted : List Nat
  /-- Tokens whose resolution was applied to the current row, oldest first. -/
  applied : List Nat

namespace Ledger

def empty : Ledger := ⟨0, [], []⟩

/-- Tokens handed out and not yet resolved. -/
def outstanding (l : Ledger) : List Nat := l.granted.filter (fun t => decide (t ∉ l.applied))

def note (l : Ledger) (before after : Option OutboxCommand) (granted settled : Option Nat) :
    Ledger :=
  if before.isNone && after.isSome then ⟨l.incarnation + 1, [], []⟩
  else { l with granted := l.granted ++ granted.toList, applied := l.applied ++ settled.toList }

end Ledger

def OutboxOp.grantOf (op : OutboxOp) (c : String) (a : Except StoreError op.Answer) : Option Nat :=
  ((op.grant? a).filter (fun g => decide (g.commandId = c))).map (·.token)

def OutboxOp.settlementOf (op : OutboxOp) (c : String) (a : Except StoreError op.Answer) :
    Option Nat :=
  ((op.settled? a).filter (fun s => decide (s.1 = c))).map Prod.snd

structure Book where
  table : Outbox
  ledger : String → Ledger

namespace Book

def empty : Book := ⟨∅, fun _ => Ledger.empty⟩

def step (enc : Encoding) (s : Book) (i : Nat × OutboxOp) : Book :=
  let r := i.2.run enc s.table i.1
  { table := r.1
    ledger := fun c =>
      (s.ledger c).note (s.table.get? c) (r.1.get? c) (i.2.grantOf c r.2) (i.2.settlementOf c r.2) }

end Book

lemma inFlight_iff {row : OutboxCommand} :
    outboxHasInFlightClaim row = true ↔ ∃ token, InFlight row token := by
  unfold outboxHasInFlightClaim InFlight
  cases row.claim with
  | none | some claim => simp

lemma InFlight.token_eq {row : OutboxCommand} {t u : Nat} (ht : InFlight row t)
    (hu : InFlight row u) : t = u := by
  obtain ⟨claim, hclaim, rfl, -⟩ := ht
  obtain ⟨claim', hclaim', rfl, -⟩ := hu
  rw [hclaim] at hclaim'
  cases hclaim'
  rfl

structure LedgerFor (row : OutboxCommand) (l : Ledger) : Prop where
  uncertain : outboxHasInFlightClaim row = true → row.state = .uncertain
  increasing : l.granted.Pairwise (· < ·)
  last : l.granted.getLast? = row.claim.map (·.token)
  applied : l.applied = if outboxHasInFlightClaim row then l.granted.dropLast else l.granted

namespace LedgerFor

variable {row row' : OutboxCommand} {l : Ledger}

lemma notInFlight (h : LedgerFor row l) (hstate : row.state ≠ .uncertain) :
    outboxHasInFlightClaim row = false := by
  rw [← Bool.not_eq_true]
  exact fun hfly => hstate (h.uncertain hfly)

lemma of_settled (h : LedgerFor row l) (hrow : outboxHasInFlightClaim row = false)
    (hrow' : outboxHasInFlightClaim row' = false)
    (htoken : row'.claim.map (·.token) = row.claim.map (·.token)) : LedgerFor row' l where
  uncertain := by simp [hrow']
  increasing := h.increasing
  last := htoken ▸ h.last
  applied := by
    have := h.applied
    simpa [hrow, hrow'] using this

lemma inserted (hclaim : row.claim = none) (n : Nat) : LedgerFor row ⟨n, [], []⟩ where
  uncertain := by simp [outboxHasInFlightClaim, hclaim]
  increasing := List.Pairwise.nil
  last := by simp [hclaim]
  applied := by simp

lemma granted_lt_nextToken (h : LedgerFor row l) : ∀ t ∈ l.granted, t < nextToken row := by
  have hlast := h.last
  have hpair := h.increasing
  cases hclaim : row.claim with
  | none =>
    rw [hclaim] at hlast
    rw [getLast?_eq_none_iff.mp hlast]
    simp
  | some claim =>
  rw [hclaim] at hlast
  obtain ⟨init, hinit⟩ := getLast?_eq_some_iff.mp hlast
  rw [hinit] at hpair ⊢
  intro t ht
  have hnext : nextToken row = claim.token + 1 := by simp [nextToken, hclaim]
  rcases mem_concat.mp ht with ht | ht
  · have hlt := (pairwise_append.mp hpair).2.2 t ht claim.token mem_cons_self
    omega
  · have heq : t = claim.token := ht
    omega

lemma claimed (h : LedgerFor row l) (hstate : row.state = .queued) (now : Nat)
    (kind : OutboxClaimKind) (operationId : Option String) :
    LedgerFor (claimedRow now kind operationId row)
      { l with granted := l.granted ++ [nextToken row] } where
  uncertain := fun _ => rfl
  increasing := by
    refine pairwise_append.mpr ⟨h.increasing, pairwise_singleton _ _, ?_⟩
    intro t ht u hu
    rw [mem_singleton.mp hu]
    exact h.granted_lt_nextToken t ht
  last := by simp [claimedRow]
  applied := by
    have happl := h.applied
    rw [h.notInFlight (by simp [hstate])] at happl
    simpa [claimedRow, outboxHasInFlightClaim] using happl

lemma resolved {token : Nat} (h : LedgerFor row l) (hfly : InFlight row token) (now : Nat)
    (resolution : OutboxClaimResolution) :
    LedgerFor (resolvedRow now resolution row) { l with applied := l.applied ++ [token] } := by
  obtain ⟨claim, hclaim, htoken, hres⟩ := hfly
  have hopen : outboxHasInFlightClaim (resolvedRow now resolution row) = false := by
    simp [resolvedRow, markClaimResolved, outboxHasInFlightClaim, hclaim]
  refine ⟨by simp [hopen], h.increasing, ?_, ?_⟩
  · simpa [resolvedRow, markClaimResolved, hclaim] using h.last
  have happl := h.applied
  have hlast := h.last
  rw [inFlight_iff.mpr ⟨token, claim, hclaim, htoken, hres⟩] at happl
  rw [hclaim] at hlast
  obtain ⟨init, hinit⟩ := getLast?_eq_some_iff.mp hlast
  simp only [if_true] at happl
  simp [hopen, happl, hinit, htoken]

end LedgerFor

section Frames

variable {op : OutboxOp} {now : Nat} {c : String} {row row' : OutboxCommand}
  {r' : Option OutboxCommand}

lemma notInFlight_of_live (h : outboxRejectsStaleQueueUpdate row = false) :
    outboxHasInFlightClaim row = false := by
  unfold outboxRejectsStaleQueueUpdate at h
  rw [Bool.or_eq_false_iff] at h
  exact h.2

lemma settleClaim_settled {state : OutboxState} (h : outboxHasInFlightClaim row = false) :
    outboxHasInFlightClaim (settleClaim state row) = false := by
  unfold settleClaim
  split
  · cases hclaim : row.claim <;> simp [markClaimResolved, outboxHasInFlightClaim, hclaim]
  · exact h

lemma settleClaim_token {state : OutboxState} :
    (settleClaim state row).claim.map (·.token) = row.claim.map (·.token) := by
  unfold settleClaim
  split
  · cases hclaim : row.claim <;> simp [markClaimResolved, hclaim]
  · rfl

lemma RowChange.inFlight_frame {token : Nat} (h : RowChange op now c (some row) r')
    (hstate : row.state = .uncertain) (hfly : InFlight row token)
    (hop : ∀ resolution, op ≠ .resolve c token resolution) : r' = some row := by
  have hbusy := inFlight_iff.mpr ⟨token, hfly⟩
  have hlive : outboxRejectsStaleQueueUpdate row = true := by
    simp [outboxRejectsStaleQueueUpdate, hbusy]
  cases h with
  | same => rfl
  | resolve heq hclaim =>
    rw [hfly.token_eq hclaim] at hop
    exact absurd heq (hop _)
  | recover _ hlegacy => simp [isLegacyAccountPoolFailure, hstate] at hlegacy
  | _ => simp_all

lemma RowChange.delivered_frame (h : RowChange op now c (some row) r')
    (hstate : row.state = .delivered) : r' = some row ∨ r' = none := by
  have hlive : outboxRejectsStaleQueueUpdate row = true := by
    simp [outboxRejectsStaleQueueUpdate, hstate]
  cases h with
  | same => exact .inl rfl
  | prune | cancel => exact .inr rfl
  | recover _ hlegacy => simp [isLegacyAccountPoolFailure, hstate] at hlegacy
  | _ => simp_all

lemma RowChange.settled_frame (h : RowChange op now c (some row) (some row'))
    (hclai : op.claims? = none) (hresolve : ∀ token resolution, op ≠ .resolve c token resolution)
    (hunc : outboxHasInFlightClaim row = true → row.state = .uncertain) :
    row' = row ∨ outboxHasInFlightClaim row = false ∧ outboxHasInFlightClaim row' = false ∧
      row'.claim.map (·.token) = row.claim.map (·.token) := by
  have hset : ∀ {r : OutboxCommand}, row.state ≠ .uncertain → r.claim = row.claim →
      outboxHasInFlightClaim row = false ∧ outboxHasInFlightClaim r = false ∧
        r.claim.map (·.token) = row.claim.map (·.token) := by
    intro r hstate hclaim
    have hfly : outboxHasInFlightClaim row = false := by
      rw [← Bool.not_eq_true]
      exact fun hfly => hstate (hunc hfly)
    refine ⟨hfly, ?_, congrArg _ hclaim⟩
    unfold outboxHasInFlightClaim at hfly ⊢
    rw [hclaim]
    exact hfly
  have hupdate : ∀ {state : OutboxState} {r : OutboxCommand},
      outboxRejectsStaleQueueUpdate row = false → r.claim = row.claim →
      outboxHasInFlightClaim row = false ∧ outboxHasInFlightClaim (settleClaim state r) = false ∧
        (settleClaim state r).claim.map (·.token) = row.claim.map (·.token) := by
    intro state r hlive hclaim
    have hfly := notInFlight_of_live hlive
    refine ⟨hfly, settleClaim_settled ?_, settleClaim_token.trans (congrArg _ hclaim)⟩
    unfold outboxHasInFlightClaim at hfly ⊢
    rw [hclaim]
    exact hfly
  cases h with
  | same => exact .inl rfl
  | claim hop => rw [hclai] at hop; cases hop
  | resolve hop => exact absurd hop (hresolve _ _)
  | fail _ hstate => exact .inr (hset (by simp [hstate]) rfl)
  | setState _ hlive | defer _ hlive | wait _ hlive => exact .inr (hupdate hlive rfl)
  | recover _ hlegacy =>
    refine .inr (hset ?_ rfl)
    intro hstate
    simp [isLegacyAccountPoolFailure, hstate] at hlegacy
  | retry _ hstate => exact .inr (hset (by simp [hstate]) rfl)
  | edit _ hstate | place _ hstate => exact .inr (hset (by simp [hstate]) rfl)

end Frames

section Runs

variable {enc : Encoding} {s : Book}

/-- Rows are stored under their own id and agree with their ledgers. -/
structure Book.WellKept (s : Book) : Prop where
  keyed : Keyed s.table
  ledgers : ∀ c row, s.table.get? c = some row → LedgerFor row (s.ledger c)

lemma Book.wellKept_empty : Book.empty.WellKept := by
  refine ⟨keyed_empty, ?_⟩
  intro c row hrow
  simp [Book.empty] at hrow

variable {op : OutboxOp} {c : String}

variable {a : Except StoreError op.Answer}

lemma grantOf_eq_none (h : op.grant? a = none) : op.grantOf c a = none := by
  simp [OutboxOp.grantOf, h]

lemma settlementOf_eq_none (h : op.settled? a = none) : op.settlementOf c a = none := by
  simp [OutboxOp.settlementOf, h]

lemma grant?_eq_none (h : op.claims? = none) : op.grant? a = none := by
  cases op <;> first
    | rfl
    | cases h

lemma settled?_eq_none
    (h : ∀ c token resolution, op ≠ .resolve c token resolution) : op.settled? a = none := by
  cases op <;> first
    | rfl
    | exact absurd rfl (h _ _ _)

variable {l : Ledger} {row : OutboxCommand} {r' : Option OutboxCommand}

lemma Ledger.note_of_some {granted settled : Option Nat} : l.note (some row) r' granted settled =
      { l with granted := l.granted ++ granted.toList, applied := l.applied ++ settled.toList } := by
  simp [Ledger.note]

lemma Ledger.note_nothing : l.note (some row) r' none none = l := by
  simp [Ledger.note]

variable {table : Outbox}

variable {now : Nat}

lemma LedgerFor.step_grant {row row' : OutboxCommand} {g : Grant} (hl : LedgerFor row l)
    (hrow : table.get? c = some row) (hrow' : (op.run enc table now).1.get? c = some row')
    (hg : op.grant? (op.run enc table now).2 = some g) :
    LedgerFor row' (l.note (some row) (some row') (op.grantOf c (op.run enc table now).2)
      (op.settlementOf c (op.run enc table now).2)) := by
  obtain ⟨hclai, r, hr, hstate, htoken, -, -, htable⟩ := run_grant hg
  have hset : op.settled? (op.run enc table now).2 = none := by
    refine settled?_eq_none ?_
    rintro d token resolution rfl
    cases hclai
  rw [settlementOf_eq_none hset]
  rw [htable] at hrow'
  by_cases hc : c = g.commandId
  · subst hc
    rw [hrow] at hr
    cases hr
    rw [Table.get?_insert_self] at hrow'
    cases hrow'
    have hgrant : op.grantOf g.commandId (op.run enc table now).2 = some (nextToken row) := by
      simp [OutboxOp.grantOf, hg, htoken, filter]
    rw [hgrant, Ledger.note_of_some]
    simpa using hl.claimed hstate now g.kind g.operationId
  rw [Table.get?_insert_of_ne _ _ hc, hrow] at hrow'
  cases hrow'
  have hgrant : op.grantOf c (op.run enc table now).2 = none := by
    have hne : g.commandId ≠ c := fun h => hc h.symm
    simp [OutboxOp.grantOf, hg, hne, filter]
  rw [hgrant, Ledger.note_nothing]
  exact hl

lemma LedgerFor.step_settled {c d : String}
    {row row' : OutboxCommand} {token : Nat} (hl : LedgerFor row l)
    (hrow : table.get? c = some row) (hrow' : (op.run enc table now).1.get? c = some row')
    (hs : op.settled? (op.run enc table now).2 = some (d, token)) :
    LedgerFor row' (l.note (some row) (some row') (op.grantOf c (op.run enc table now).2)
      (op.settlementOf c (op.run enc table now).2)) := by
  obtain ⟨resolution, r, hop, hr, hfly, -, htable⟩ := run_settled hs
  have hgrant : op.grant? (op.run enc table now).2 = none := by
    refine grant?_eq_none ?_
    rw [hop]
    rfl
  rw [grantOf_eq_none hgrant]
  rw [htable] at hrow'
  by_cases hc : c = d
  · subst hc
    rw [hrow] at hr
    cases hr
    rw [Table.get?_insert_self] at hrow'
    cases hrow'
    have hsettle : op.settlementOf c (op.run enc table now).2 = some token := by
      simp [OutboxOp.settlementOf, hs, filter]
    rw [hsettle, Ledger.note_of_some]
    simpa using hl.resolved hfly now resolution
  rw [Table.get?_insert_of_ne _ _ hc, hrow] at hrow'
  cases hrow'
  have hsettle : op.settlementOf c (op.run enc table now).2 = none := by
    have hne : d ≠ c := fun h => hc h.symm
    simp [OutboxOp.settlementOf, hs, hne, filter]
  rw [hsettle, Ledger.note_nothing]
  exact hl

lemma LedgerFor.step_quiet {row row' : OutboxCommand} (hkeyed : Keyed table) (hl : LedgerFor row l)
    (hrow : table.get? c = some row) (hrow' : (op.run enc table now).1.get? c = some row')
    (hg : op.grant? (op.run enc table now).2 = none)
    (hs : op.settled? (op.run enc table now).2 = none) : LedgerFor row' l := by
  have hsame : (op.run enc table now).1 = table → LedgerFor row' l := by
    intro heq
    rw [heq, hrow] at hrow'
    cases hrow'
    exact hl
  cases hclai : op.claims? with
  | some claim => exact hsame (run_eq_of_no_grant (by rw [hclai]; rfl) hg)
  | none =>
  by_cases hresolve : ∃ d token resolution, op = .resolve d token resolution
  · obtain ⟨d, token, resolution, rfl⟩ := hresolve
    exact hsame (run_eq_of_not_settled hs)
  have hchg := @run_row enc table now hkeyed op c
  rw [hrow, hrow'] at hchg
  rcases hchg.settled_frame hclai (fun t r h => hresolve ⟨c, t, r, h⟩) hl.uncertain with
    rfl | ⟨hfly, hfly', htoken⟩
  · exact hl
  · exact hl.of_settled hfly hfly' htoken

lemma Book.WellKept.step (h : s.WellKept) (i : Nat × OutboxOp) : (s.step enc i).WellKept := by
  obtain ⟨now, op⟩ := i
  refine ⟨run_keyed h.keyed op, ?_⟩
  intro c row' hrow'
  change (op.run enc s.table now).1.get? c = some row' at hrow'
  change LedgerFor row' ((s.ledger c).note (s.table.get? c) ((op.run enc s.table now).1.get? c) _ _)
  rw [hrow']
  cases hrow : s.table.get? c with
  | none =>
    have hchg := @run_row enc s.table now h.keyed op c
    rw [hrow, hrow'] at hchg
    cases hchg with
    | put _ _ _ hclaim => exact LedgerFor.inserted hclaim _
  | some row =>
  have hl := h.ledgers c row hrow
  cases hg : op.grant? (op.run enc s.table now).2 with
  | some g => exact hl.step_grant hrow hrow' hg
  | none =>
  cases hs : op.settled? (op.run enc s.table now).2 with
  | some settled => exact hl.step_settled hrow hrow' hs
  | none =>
  change LedgerFor row' (Ledger.note _ _ _ (op.grantOf c (op.run enc s.table now).2)
    (op.settlementOf c (op.run enc s.table now).2))
  rw [grantOf_eq_none hg, settlementOf_eq_none hs, Ledger.note_nothing]
  exact hl.step_quiet h.keyed hrow hrow' hg hs

lemma Book.wellKept_exec (ops : List (Nat × OutboxOp)) :
    (exec (Book.step enc) Book.empty ops).WellKept :=
  exec_invariant (fun _ i h => h.step i) Book.wellKept_empty ops

lemma LedgerFor.applied_nodup (h : LedgerFor row l) : l.applied.Nodup := by
  have hnodup : l.granted.Nodup := h.increasing.imp (fun hlt => Nat.ne_of_lt hlt)
  rw [h.applied]
  split
  · exact hnodup.sublist (dropLast_sublist _)
  · exact hnodup

lemma LedgerFor.outstanding_eq (h : LedgerFor row l) :
    l.outstanding = if outboxHasInFlightClaim row then (row.claim.map (·.token)).toList else [] := by
  have happl := h.applied
  have hlast := h.last
  unfold Ledger.outstanding
  split
  · rename_i hfly
    obtain ⟨token, claim, hclaim, -, -⟩ := inFlight_iff.mp hfly
    rw [hclaim] at hlast ⊢
    obtain ⟨init, hinit⟩ := getLast?_eq_some_iff.mp hlast
    have hpair := h.increasing
    rw [if_pos hfly, hinit, dropLast_concat] at happl
    rw [hinit] at hpair ⊢
    have hfresh : claim.token ∉ init := by
      intro hmem
      have := (pairwise_append.mp hpair).2.2 _ hmem claim.token mem_cons_self
      omega
    rw [happl, filter_append, filter_eq_nil_iff.mpr (by simp)]
    simp [hfresh]
  rename_i hfly
  rw [if_neg hfly] at happl
  rw [happl, filter_eq_nil_iff]
  simp

lemma Book.incarnation_le_step (i : Nat × OutboxOp) (c : String) :
    (s.ledger c).incarnation ≤ ((s.step enc i).ledger c).incarnation := by
  simp only [Book.step, Ledger.note]
  split
  · exact Nat.le_succ _
  · exact Nat.le_refl _

/-- Unless the id was inserted anew since incarnation `n`, its row is `row` or gone. -/
def Book.KeptSince (n : Nat) (c : String) (row : OutboxCommand) (t : Book) : Prop :=
  t.WellKept ∧ n ≤ (t.ledger c).incarnation ∧
    ((t.ledger c).incarnation = n → t.table.get? c = some row ∨ t.table.get? c = none)

lemma Book.KeptSince.step {n : Nat} {c : String} {row : OutboxCommand}
    (hstate : row.state = .delivered) (h : s.KeptSince n c row) (i : Nat × OutboxOp) :
    (s.step enc i).KeptSince n c row := by
  obtain ⟨now, op⟩ := i
  obtain ⟨hs, hle, hkeep⟩ := h
  have hmono := @Book.incarnation_le_step enc s (now, op) c
  refine ⟨hs.step _, hle.trans hmono, ?_⟩
  intro hsame
  have hchg := @run_row enc s.table now hs.keyed op c
  change (op.run enc s.table now).1.get? c = some row ∨ (op.run enc s.table now).1.get? c = none
  rcases hkeep (by omega) with hrow | hnone
  · rw [hrow] at hchg
    exact hchg.delivered_frame hstate
  rw [hnone] at hchg
  -- A new row would be a new incarnation.
  cases hafter : (op.run enc s.table now).1.get? c with
  | none => exact .inr rfl
  | some row' =>
  have hnew : ((s.step enc (now, op)).ledger c).incarnation = (s.ledger c).incarnation + 1 := by
    simp [Book.step, Ledger.note, hnone, hafter]
  omega

lemma grantOf_eq_none_of_not_queued (h : ∀ row, table.get? c = some row → row.state ≠ .queued) :
    op.grantOf c (op.run enc table now).2 = none := by
  unfold OutboxOp.grantOf
  cases hg : op.grant? (op.run enc table now).2 with
  | none => rfl
  | some g =>
  obtain ⟨-, row, hrow, hstate, -⟩ := run_grant hg
  have hne : g.commandId ≠ c := by
    rintro rfl
    exact h row hrow hstate
  simp [filter, hne]

end Runs

/-- Send ownership: tokens increase, at most one is outstanding, and a delivered row is never
granted again. -/
theorem send_ownership (enc : Encoding) (ops : List (Nat × OutboxOp)) (c : String)
    (row : OutboxCommand)
    (hrow : (exec (Book.step enc) Book.empty ops).table.get? c = some row) :
    let s := exec (Book.step enc) Book.empty ops
    (s.ledger c).outstanding.length ≤ 1 ∧
    (∀ token, InFlight row token ↔ row.state = .uncertain ∧ token ∈ (s.ledger c).outstanding) ∧
    (s.ledger c).granted.Pairwise (· < ·) ∧
    (∀ (now : Nat) (op : OutboxOp) (token : Nat), InFlight row token →
      (∀ resolution, op ≠ .resolve c token resolution) →
      (op.run enc s.table now).1.get? c = some row) ∧
    (s.ledger c).applied.Nodup ∧
    (row.state = .delivered → ∀ later,
      let t := exec (Book.step enc) s later
      (t.ledger c).incarnation = (s.ledger c).incarnation →
        (t.table.get? c = some row ∨ t.table.get? c = none) ∧
        ∀ (now : Nat) (op : OutboxOp), op.grantOf c (op.run enc t.table now).2 = none) := by
  intro s
  have hs : s.WellKept := Book.wellKept_exec ops
  have hl := hs.ledgers c row hrow
  have hout := hl.outstanding_eq
  refine ⟨?_, ?_, hl.increasing, ?_, hl.applied_nodup, ?_⟩
  · rw [hout]
    split
    · cases row.claim <;> simp
    · simp
  · intro token
    constructor
    · intro hfly
      have hbusy := inFlight_iff.mpr ⟨token, hfly⟩
      obtain ⟨claim, hclaim, htoken, -⟩ := hfly
      refine ⟨hl.uncertain hbusy, ?_⟩
      simp [hout, hbusy, hclaim, htoken]
    rintro ⟨-, hmem⟩
    rw [hout] at hmem
    split at hmem
    · rename_i hbusy
      obtain ⟨t, ht⟩ := inFlight_iff.mp hbusy
      obtain ⟨claim, hclaim, htoken, -⟩ := id ht
      have heq : token = t := by simpa [hclaim, htoken] using hmem
      exact heq ▸ ht
    · cases hmem
  · intro now op token hfly hop
    have hchg := @run_row enc s.table now hs.keyed op c
    rw [hrow] at hchg
    exact hchg.inFlight_frame (hl.uncertain (inFlight_iff.mpr ⟨token, hfly⟩)) hfly hop
  intro hstate later t hsame
  have hkept : t.KeptSince (s.ledger c).incarnation c row :=
    exec_invariant (fun _ i h => h.step hstate i) ⟨hs, le_rfl, fun _ => .inl hrow⟩ later
  have hkeep := hkept.2.2 hsame
  refine ⟨hkeep, fun now op => grantOf_eq_none_of_not_queued ?_⟩
  intro row' hrow'
  rcases hkeep with h | h
  · rw [h] at hrow'
    cases hrow'
    simp [hstate]
  · rw [h] at hrow'
    cases hrow'

def promptParams (commandId thread text : String) : Json :=
  .obj [("clientUserMessageId", .str commandId),
    ("input", .arr [.obj [("text", .str text), ("type", .str "text")]]),
    ("threadId", .str thread)]

def putPrompt (commandId thread text : String) : OutboxOp :=
  .put commandId thread (promptParams commandId thread text) ⟨none, .queue, none⟩

def promptRow (commandId thread text : String) (now : Nat) : OutboxCommand :=
  { commandId, remoteThreadId := thread, method := "turn/start"
    params := promptParams commandId thread text, state := .queued, presentation := .queue
    workspaceRequestId := none, ownerContext := none, queueInput := none, order := 1
    createdAt := now, updatedAt := now, lastError := none, attempts := 0, nextAttemptAt := 0
    claim := none }

/-- While a prompt is being dispatched, no other operation touches its row. -/
theorem send_ownership_dispatching :
    let s := exec (Book.step ⟨fun _ => 0, fun _ => 0⟩) Book.empty
      [(1, putPrompt "a" "t" "hi"), (2, .claimDispatch "a")]
    s.table.get? "a" = some (claimedRow 2 .dispatch none (promptRow "a" "t" "hi" 1)) ∧
    ∀ (now : Nat) (op : OutboxOp), (∀ resolution, op ≠ .resolve "a" 1 resolution) →
      (op.run ⟨fun _ => 0, fun _ => 0⟩ s.table now).1.get? "a" =
        some (claimedRow 2 .dispatch none (promptRow "a" "t" "hi" 1)) := by
  have hrow : (exec (Book.step ⟨fun _ => 0, fun _ => 0⟩) Book.empty
      [(1, putPrompt "a" "t" "hi"), (2, .claimDispatch "a")]).table.get? "a" =
        some (claimedRow 2 .dispatch none (promptRow "a" "t" "hi" 1)) := by decide
  refine ⟨hrow, fun now op hop => ?_⟩
  have hframe := (send_ownership _ _ "a" _ hrow).2.2.2.1
  exact hframe now op 1 ⟨_, rfl, rfl, rfl⟩ hop

end CodeWide.Store
