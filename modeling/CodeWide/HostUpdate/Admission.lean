import CodeWide.Lib.Run
import Mathlib.Data.List.Nodup

/-!
# Admission of host updates

The records of the operations and the pointer `active.json` are written one after the other.
-/

namespace CodeWide.HostUpdate

open Lib List

inductive HostUpdatePhase
  | accepted
  | installing
  | targetReady
  | awaitingReconnect
  | committed
  | rollingBack
  | rolledBack
  | failed
deriving DecidableEq

def HostUpdatePhase.isTerminal : HostUpdatePhase → Bool
  | .committed | .rolledBack | .failed => true
  | _ => false

def validTransition : HostUpdatePhase → HostUpdatePhase → Bool
  | .accepted, .installing | .installing, .targetReady | .targetReady, .awaitingReconnect => true
  | .awaitingReconnect, .committed | .awaitingReconnect, .rollingBack => true
  | .accepted, .rollingBack | .installing, .rollingBack | .targetReady, .rollingBack => true
  | .rollingBack, .rolledBack | .rollingBack, .failed => true
  | .accepted, .failed | .installing, .failed => true
  | _, _ => false

structure ApplyHostUpdateCommand where
  idempotencyKey : String
  initiatingDeviceId : String
  targetFingerprint : String
deriving DecidableEq

structure OperationRecord extends ApplyHostUpdateCommand where
  operationId : Nat
  currentDigest : String
  targetDigest : String
  phase : HostUpdatePhase
  updatedAt : Nat

inductive DiscardReason
  | expired
  | superseded
  | missing

def terminalOutcomeTtlMs : Nat := 60 * 60000

def discardReason (r : OperationRecord) (installedDigest : String) (now : Nat) :
    Option DiscardReason :=
  let describesInstalled := match r.phase with
    | .committed => decide (installedDigest = r.targetDigest)
    | .rolledBack => decide (installedDigest = r.currentDigest)
    | _ => decide (installedDigest = r.currentDigest ∨ installedDigest = r.targetDigest)
  if !r.phase.isTerminal then none
  else if !describesInstalled then some .superseded
  else if terminalOutcomeTtlMs < now - r.updatedAt then some .expired
  else none

def retainTerminalOperations : Nat := 32

def prunedOperations (operations : List OperationRecord) : List Nat :=
  (((operations.filter (fun r => r.phase.isTerminal)).mergeSort
    (fun a b => decide (b.updatedAt ≤ a.updatedAt))).drop retainTerminalOperations).map
      OperationRecord.operationId

/-- How far the `apply` is that holds the lock. -/
inductive Admission
  | recorded (id : Nat)
  | pruning (id : Nat) (rest : List Nat)

/-- Status reads have no lock: `reading` are the pointers they hold. -/
structure Host where
  operations : List OperationRecord
  active : Option Nat
  holder : Option Admission
  reading : List Nat
  discarding : List Nat

inductive Change
  | transition (expected next : HostUpdatePhase)
  | note

inductive Action
  | apply (command : ApplyHostUpdateCommand) (admits : Bool) (id : Nat)
      (currentDigest targetDigest : String) (now : Nat)
  | point
  | prune
  | answer
  | giveUp
  | crash
  | change (id : Nat) (change : Change) (now : Nat)
  | readPointer
  | readRecord (id : Nat) (installedDigest : String) (now : Nat)
  | discardPointer (id : Nat)

def OperationRecord.change (id : Nat) (change : Change) (now : Nat) (r : OperationRecord) :
    OperationRecord :=
  if r.operationId ≠ id then r
  else match change with
    | .transition expected next =>
      if r.phase = expected ∧ validTransition expected next then
        { r with phase := next, updatedAt := now }
      else r
    | .note => if r.phase = .installing then { r with updatedAt := now } else r

namespace Host

variable {s : Host}

def readOperation (s : Host) (id : Nat) : Option OperationRecord :=
  s.operations.find? (fun r => decide (r.operationId = id))

def findIdempotency (s : Host) (key : String) : Option OperationRecord :=
  s.operations.find? (fun r => decide (r.idempotencyKey = key))

def activeOperation (s : Host) : Option OperationRecord :=
  (s.active.bind s.readOperation).filter (fun r => !r.phase.isTerminal)

def accepted (s : Host) : Action → Option Nat
  | .apply command _ _ _ _ _ =>
    if s.holder.isSome then none
    else match s.findIdempotency command.idempotencyKey with
      | some existing =>
        if existing.initiatingDeviceId = command.initiatingDeviceId ∧
            existing.targetFingerprint = command.targetFingerprint then
          some existing.operationId
        else none
      | none => s.activeOperation.bind (fun active =>
        if active.toApplyHostUpdateCommand = command then some active.operationId else none)
  | .answer => match s.holder with
    | some (.pruning id []) => some id
    | _ => none
  | _ => none

def apply (s : Host) (command : ApplyHostUpdateCommand) (admits : Bool) (id : Nat)
    (currentDigest targetDigest : String) (now : Nat) : Host :=
  if s.holder.isNone ∧ s.findIdempotency command.idempotencyKey = none ∧
      s.activeOperation = none ∧ admits ∧ id ∉ s.operations.map (·.operationId) ++ s.discarding then
    { s with
      operations := ⟨command, id, currentDigest, targetDigest, .accepted, now⟩ :: s.operations
      holder := some (.recorded id) }
  else s

def step (s : Host) : Action → Host
  | .apply command admits id currentDigest targetDigest now =>
    s.apply command admits id currentDigest targetDigest now
  | .point => match s.holder with
    | some (.recorded id) =>
      { s with
        active := some id
        holder := some (.pruning id (prunedOperations s.operations)) }
    | _ => s
  | .prune => match s.holder with
    | some (.pruning id (gone :: rest)) =>
      { s with
        operations := s.operations.filter (fun r => decide (r.operationId ≠ gone))
        holder := some (.pruning id rest) }
    | _ => s
  | .answer => match s.holder with
    | some (.pruning _ []) => { s with holder := none }
    | _ => s
  | .giveUp => { s with holder := none }
  | .crash => { s with holder := none, reading := [], discarding := [] }
  | .change id change now =>
    if s.holder.isNone then
      { s with operations := s.operations.map (OperationRecord.change id change now) }
    else s
  | .readPointer => { s with reading := s.active.toList ++ s.reading }
  | .readRecord id installedDigest now =>
    if id ∈ s.reading then
      let s' := { s with reading := s.reading.erase id }
      match s.readOperation id with
      | none => { s' with discarding := id :: s.discarding }
      | some r =>
        if (discardReason r installedDigest now).isSome then
          { s' with discarding := id :: s.discarding }
        else s'
    else s
  | .discardPointer id =>
    if id ∈ s.discarding then
      { s with
        active := if s.holder.isNone ∧ s.active = some id then none else s.active
        discarding := s.discarding.erase id }
    else s

def initial : Host := ⟨[], none, none, [], []⟩

def Over (s : Host) (id : Nat) : Prop :=
  ∀ r ∈ s.operations, r.operationId = id → r.phase.isTerminal = true

def Runs (s : Host) (id : Nat) : Prop :=
  s.active = some id ∨ ∃ r ∈ s.operations, r.operationId = id ∧ r.phase.isTerminal = true

structure Inv (s : Host) : Prop where
  ids : (s.operations.map OperationRecord.operationId).Nodup
  discarding : ∀ id ∈ s.discarding, s.Over id
  pruning : ∀ id rest, s.holder = some (.pruning id rest) → s.active = some id

def named (s : Host) : Option Nat :=
  match s.holder with
  | some (.recorded id) => some id
  | _ => s.active

def Tracked (s : Host) : Prop :=
  ∀ r ∈ s.operations, r.phase.isTerminal = false → s.named = some r.operationId

/-- The process does not end, and no write fails, between the record and the pointer. -/
def Finishes (s : Host) (a : Action) : Prop :=
  (∃ id, s.holder = some (.recorded id)) → a ≠ .giveUp ∧ a ≠ .crash

/-- Records are changed or removed, none is added and none opened again. -/
def Follows (old new : List OperationRecord) : Prop :=
  ∀ r ∈ new, ∃ r₀ ∈ old, r₀.operationId = r.operationId ∧
    (r₀.phase.isTerminal = true → r.phase.isTerminal = true)

lemma validTransition_of_terminal {expected next : HostUpdatePhase}
    (h : expected.isTerminal = true) : validTransition expected next = false := by
  cases expected <;> cases next <;> first | rfl | cases h

lemma change_operationId (id : Nat) (change : Change) (now : Nat) (r : OperationRecord) :
    (r.change id change now).operationId = r.operationId := by
  unfold OperationRecord.change
  repeat' split
  all_goals rfl

lemma change_final (id : Nat) (change : Change) (now : Nat) (r : OperationRecord)
    (h : r.phase.isTerminal = true) : (r.change id change now).phase.isTerminal = true := by
  unfold OperationRecord.change
  split
  · exact h
  split
  · split
    · next hgoes =>
      rw [← hgoes.1, validTransition_of_terminal h] at hgoes
      cases hgoes.2
    · exact h
  · split <;> exact h

lemma follows_change (id : Nat) (change : Change) (now : Nat) :
    Follows s.operations (s.operations.map (OperationRecord.change id change now)) := by
  intro r hr
  obtain ⟨r₀, hr₀, rfl⟩ := mem_map.mp hr
  exact ⟨r₀, hr₀, (change_operationId ..).symm, change_final id change now r₀⟩

variable {id : Nat} {new : List OperationRecord}

lemma Over.of_follows (hf : Follows s.operations new)
    (h : s.Over id) : Over { s with operations := new } id := by
  intro r hr hid
  obtain ⟨r₀, hr₀, hsame, hfinal⟩ := hf r hr
  exact hfinal (h r₀ hr₀ (hsame.trans hid))

variable {r : OperationRecord}

lemma readOperation_some (h : s.readOperation id = some r) :
    r ∈ s.operations ∧ r.operationId = id :=
  ⟨mem_of_find?_eq_some h, by simpa using find?_some h⟩

lemma activeOperation_none (h : s.Inv) (hnone : s.activeOperation = none)
    (hr : r ∈ s.operations) (hact : s.active = some r.operationId) :
    r.phase.isTerminal = true := by
  have hfound : s.readOperation r.operationId = some r := by
    cases hfind : s.readOperation r.operationId with
    | none => exact absurd (find?_eq_none.mp hfind r hr) (by simp)
    | some r' =>
      obtain ⟨hr', hsame⟩ := readOperation_some hfind
      rw [inj_on_of_nodup_map h.ids hr' hr hsame]
  rw [activeOperation, hact, Option.bind_some, hfound, Option.filter_eq_none_iff] at hnone
  simpa using hnone r rfl

lemma Inv.follow (h : s.Inv) (hf : Follows s.operations new)
    (hids : (new.map OperationRecord.operationId).Nodup) : Inv { s with operations := new } where
  ids := hids
  discarding id hid := (h.discarding id hid).of_follows hf
  pruning := h.pruning

lemma Inv.change (h : s.Inv) (id : Nat) (change : Change) (now : Nat) :
    Inv { s with operations := s.operations.map (OperationRecord.change id change now) } := by
  refine h.follow (follows_change id change now) ?_
  have hsame : (s.operations.map (OperationRecord.change id change now)).map
      OperationRecord.operationId = s.operations.map OperationRecord.operationId := by
    rw [map_map]
    exact map_congr_left (fun r _ => change_operationId id change now r)
  exact hsame ▸ h.ids

lemma Inv.release (h : s.Inv) : Inv { s with holder := none } :=
  ⟨h.ids, h.discarding, fun _ _ hhold => (by cases hhold)⟩

lemma Inv.discard (h : s.Inv) (hover : s.Over id) (reading : List Nat) :
    Inv { s with reading := reading, discarding := id :: s.discarding } :=
  ⟨h.ids, forall_mem_cons.mpr ⟨hover, h.discarding⟩, h.pruning⟩

lemma Inv.apply (h : s.Inv) (command : ApplyHostUpdateCommand) (admits : Bool) (id : Nat)
    (currentDigest targetDigest : String) (now : Nat) :
    (s.apply command admits id currentDigest targetDigest now).Inv := by
  unfold Host.apply
  split
  · next hadmits =>
    have hfresh := hadmits.2.2.2.2
    rw [mem_append, not_or] at hfresh
    refine ⟨nodup_cons.mpr ⟨hfresh.1, h.ids⟩, fun i hi r hr hrid => ?_,
      fun _ _ hhold => (by cases hhold)⟩
    rcases mem_cons.mp hr with rfl | hr
    · cases hrid
      exact absurd hi hfresh.2
    · exact h.discarding i hi r hr hrid
  · exact h

lemma Inv.step (h : s.Inv) (a : Action) : (s.step a).Inv := by
  cases a with
  | apply command admits id currentDigest targetDigest now => exact h.apply ..
  | point =>
    simp only [Host.step]
    split
    · refine ⟨h.ids, h.discarding, fun _ _ hhold => ?_⟩
      cases hhold
      rfl
    · exact h
  | prune =>
    simp only [Host.step]
    split
    · next id gone rest hhold =>
      have hf : Follows s.operations (s.operations.filter (fun r => decide (r.operationId ≠ gone))) :=
        fun r hr => ⟨r, (mem_filter.mp hr).1, rfl, fun hfinal => hfinal⟩
      have hkept := h.follow hf (h.ids.sublist (filter_sublist.map _))
      refine ⟨hkept.ids, hkept.discarding, fun _ _ hnext => ?_⟩
      cases hnext
      exact h.pruning id (gone :: rest) hhold
    · exact h
  | answer =>
    simp only [Host.step]
    split
    · exact h.release
    · exact h
  | giveUp => exact h.release
  | crash => exact ⟨h.ids, fun _ hid => absurd hid not_mem_nil, h.release.pruning⟩
  | change id change now =>
    simp only [Host.step]
    split
    · exact h.change id change now
    · exact h
  | readPointer => exact ⟨h.ids, h.discarding, h.pruning⟩
  | readRecord id installedDigest now =>
    simp only [Host.step]
    split
    · split
      · next hnone =>
        refine h.discard (fun r hr hrid => ?_) _
        exact absurd (find?_eq_none.mp hnone r hr) (by simpa using hrid)
      next r hr =>
      split
      · next hreason =>
        refine h.discard (fun r' hr' hrid => ?_) _
        obtain ⟨hmem, hsame⟩ := readOperation_some hr
        rw [inj_on_of_nodup_map h.ids hr' hmem (hrid.trans hsame.symm)]
        by_contra hopen
        rw [discardReason, if_pos (by simpa using hopen)] at hreason
        cases hreason
      · exact ⟨h.ids, h.discarding, h.pruning⟩
    · exact h
  | discardPointer id =>
  simp only [Host.step]
  split
  · refine ⟨h.ids, fun i hi => h.discarding i (mem_of_mem_erase hi), fun i rest hheld => ?_⟩
    have hbusy : ¬(s.holder.isNone = true ∧ s.active = some id) := by
      rw [show s.holder = some (.pruning i rest) from hheld]
      exact fun hfree => Bool.false_ne_true hfree.1
    exact (if_neg hbusy).trans (h.pruning i rest hheld)
  · exact h

lemma Inv.initial : Host.initial.Inv :=
  ⟨nodup_nil, fun _ hid => absurd hid not_mem_nil, fun _ _ hhold => (by cases hhold)⟩

lemma named_eq_active (h : ∀ id, s.holder ≠ some (.recorded id)) : s.named = s.active := by
  unfold named
  split
  · next id hhold => exact absurd hhold (h id)
  · rfl

lemma Tracked.follow (ht : s.Tracked)
    (hf : Follows s.operations new) : Tracked { s with operations := new } := by
  intro r hr hopen
  obtain ⟨r₀, hr₀, hsame, hfinal⟩ := hf r hr
  rw [← hsame]
  refine ht r₀ hr₀ (Bool.eq_false_iff.mpr (fun h => ?_))
  rw [hfinal h] at hopen
  cases hopen

lemma Tracked.release (ht : s.Tracked) (h : ∀ id, s.holder ≠ some (.recorded id)) :
    Tracked { s with holder := none } :=
  fun r hr hopen => (named_eq_active h).symm.trans (ht r hr hopen)

lemma Tracked.step (h : s.Inv) (ht : s.Tracked) {a : Action} (hfinishes : s.Finishes a) :
    (s.step a).Tracked := by
  cases a with
  | apply command admits id currentDigest targetDigest now =>
    simp only [Host.step, Host.apply]
    split
    · next hadmits =>
      intro r hr hopen
      rcases mem_cons.mp hr with rfl | hr
      · rfl
      · have hnamed := named_eq_active (s := s) (by rw [Option.isNone_iff_eq_none.mp hadmits.1]; simp)
        have hfinal := activeOperation_none h hadmits.2.2.1 hr (hnamed ▸ ht r hr hopen)
        exact absurd hfinal (by rw [hopen]; exact Bool.false_ne_true)
    · exact ht
  | point =>
    simp only [Host.step]
    split
    · next id hhold =>
      intro r hr hopen
      have hnamed := ht r hr hopen
      rw [named, hhold] at hnamed
      exact hnamed
    · exact ht
  | prune =>
    simp only [Host.step]
    split
    · next id gone rest hhold =>
      intro r hr hopen
      have hnamed := ht r (mem_filter.mp hr).1 hopen
      rw [named, hhold] at hnamed
      exact hnamed
    · exact ht
  | answer =>
    simp only [Host.step]
    split
    · next hhold => exact ht.release (by rw [hhold]; simp)
    · exact ht
  | giveUp => exact ht.release (fun id hhold => (hfinishes ⟨id, hhold⟩).1 rfl)
  | crash => exact ht.release (fun id hhold => (hfinishes ⟨id, hhold⟩).2 rfl)
  | change id change now =>
    simp only [Host.step]
    split
    · exact ht.follow (follows_change id change now)
    · exact ht
  | readPointer => exact ht
  | readRecord id installedDigest now =>
    simp only [Host.step]
    split
    · split
      · exact ht
      · split <;> exact ht
    · exact ht
  | discardPointer id =>
  simp only [Host.step]
  split
  · next hin =>
    intro r hr hopen
    have hnamed := ht r hr hopen
    split
    · next hfree =>
      rw [named, Option.isNone_iff_eq_none.mp hfree.1] at hnamed
      have hid : r.operationId = id := Option.some.inj (hnamed.symm.trans hfree.2)
      rw [h.discarding id hin r hr hid] at hopen
      cases hopen
    · exact hnamed
  · exact ht

lemma Inv.removed (h : s.Inv) (hr : r ∈ s.operations) (hact : s.active = some r.operationId)
    (hrem : (s.step (.discardPointer id)).active ≠ s.active) : r.phase.isTerminal = true := by
  simp only [Host.step] at hrem
  split at hrem
  · next hin =>
    split at hrem
    · next hfree =>
      exact h.discarding id hin r hr (Option.some.inj (hact.symm.trans hfree.2))
    · exact absurd rfl hrem
  · exact absurd rfl hrem

lemma Tracked.runs (h : s.Inv) (ht : s.Tracked) {a : Action}
    (hacc : s.accepted a = some id) : (s.step a).Runs id := by
  cases a with
  | apply command admits i currentDigest targetDigest now =>
    simp only [accepted] at hacc
    split at hacc
    · cases hacc
    next hfree =>
    have hnamed := named_eq_active (s := s) (by rw [Option.not_isSome_iff_eq_none.mp hfree]; simp)
    split at hacc
    · next existing hfound =>
      split at hacc
      · cases hacc
        have hstep : s.apply command admits i currentDigest targetDigest now = s :=
          if_neg (fun hnew => by rw [hfound] at hnew; cases hnew.2.1)
        simp only [Host.step, hstep]
        have hin := mem_of_find?_eq_some hfound
        cases hopen : existing.phase.isTerminal with
        | true => exact .inr ⟨existing, hin, rfl, hopen⟩
        | false => exact .inl (hnamed ▸ ht existing hin hopen)
      · cases hacc
    obtain ⟨active, hact, heq⟩ := Option.bind_eq_some_iff.mp hacc
    split at heq
    · cases heq
      have hstep : s.apply command admits i currentDigest targetDigest now = s :=
        if_neg (fun hnew => by rw [hact] at hnew; cases hnew.2.2.1)
      simp only [Host.step, hstep]
      have hread := (Option.filter_eq_some_iff.mp hact).1
      obtain ⟨named, hnamed, hread⟩ := Option.bind_eq_some_iff.mp hread
      exact .inl ((readOperation_some hread).2 ▸ hnamed)
    · cases heq
  | answer =>
    simp only [accepted] at hacc
    split at hacc
    · next hhold =>
      cases hacc
      simp only [Host.step, hhold]
      exact .inl (h.pruning _ _ hhold)
    · cases hacc
  | _ => cases hacc

/-- Only the phase and its time change, along the table of transitions, and not at the end. -/
def Moves (r r' : OperationRecord) : Prop :=
  r' = r ∨ r.phase.isTerminal = false ∧ { r' with phase := r.phase, updatedAt := r.updatedAt } = r ∧
    (r'.phase = r.phase ∨ validTransition r.phase r'.phase = true)

/-- No open operation waits to be pruned. -/
def Spares (s : Host) : Prop :=
  ∀ id rest, s.holder = some (.pruning id rest) → ∀ gone ∈ rest, s.Over gone

lemma over_of_pruned (h : s.Inv) (hid : id ∈ prunedOperations s.operations) : s.Over id := by
  obtain ⟨r, hr, rfl⟩ := mem_map.mp hid
  have hfinal := mem_filter.mp (mem_mergeSort.mp (mem_of_mem_drop hr))
  intro r' hr' hsame
  rw [inj_on_of_nodup_map h.ids hr' hfinal.1 hsame]
  exact hfinal.2

lemma Spares.step (h : s.Inv) (hs : s.Spares) (a : Action) : (s.step a).Spares := by
  cases a with
  | point =>
    simp only [Host.step]
    split
    · intro _ _ hhold gone hgone r
      cases hhold
      exact over_of_pruned h hgone r
    · exact hs
  | prune =>
    simp only [Host.step]
    split
    · next id gone rest hhold =>
      intro _ _ hnext other hother r hr
      cases hnext
      exact hs _ _ hhold other (mem_cons_of_mem _ hother) r (mem_filter.mp hr).1
    · exact hs
  | change id change now =>
    simp only [Host.step]
    split
    · next hfree =>
      exact fun _ _ hhold => (by rw [show s.holder = some _ from hhold] at hfree; cases hfree)
    · exact hs
  | _ =>
    simp only [Host.step, Host.apply]
    repeat' split
    all_goals first | exact hs | exact fun _ _ hhold => (by cases hhold)

lemma inv_reached (inputs : List Action) : (exec step Host.initial inputs).Inv :=
  @exec_invariant _ _ step Inv (fun _ a h => h.step a) _ Inv.initial inputs

end Host

open Host

/-- One operation at most is open and named, and an accepted operation runs. -/
theorem accepted_update_runs (inputs : List Action) (a : Action) :
    let s := exec step Host.initial inputs
    (∀ r ∈ s.operations, ∀ r' ∈ s.operations, s.active = some r.operationId →
      s.active = some r'.operationId → r = r') ∧
    (∀ r ∈ s.operations, s.active = some r.operationId → ∀ id,
      (s.step (.discardPointer id)).active ≠ s.active → r.phase.isTerminal = true) ∧
    (Always step Finishes Host.initial inputs → ∀ id, s.accepted a = some id →
      (s.step a).Runs id) := by
  have h := inv_reached inputs
  refine ⟨fun r hr r' hr' hact hact' => ?_, fun r hr hact id => h.removed hr hact,
    fun hrun id hacc => ?_⟩
  · exact inj_on_of_nodup_map h.ids hr hr' (Option.some.inj (hact.symm.trans hact'))
  have hboth := @exec_invariant_of_always _ _ step (fun s => s.Inv ∧ s.Tracked) Finishes
    (fun s a hs hq => ⟨hs.1.step a, Tracked.step hs.1 hs.2 hq⟩) _
    ⟨Inv.initial, fun _ hr => absurd hr not_mem_nil⟩ _ hrun
  exact Tracked.runs h hboth.2 hacc

def command : ApplyHostUpdateCommand := ⟨"key", "phone", "target"⟩

theorem accepted_update_runs_of_repeat :
    (exec step Host.initial [.apply command true 0 "a" "b" 0, .point, .giveUp,
      .apply command true 0 "a" "b" 1]).Runs 0 :=
  (accepted_update_runs [.apply command true 0 "a" "b" 0, .point, .giveUp]
    (.apply command true 0 "a" "b" 1)).2.2
    ⟨fun _ => ⟨by simp, by simp⟩, fun _ => ⟨by simp, by simp⟩,
      fun h => (by obtain ⟨id, hid⟩ := h; cases hid), trivial⟩ 0 rfl

/-- The process ends between the record and the pointer, and the request is repeated. -/
theorem accepted_update_not_named :
    (exec step Host.initial [.apply command true 0 "a" "b" 0, .crash]).accepted
        (.apply command true 0 "a" "b" 1) = some 0 ∧
      ¬ (exec step Host.initial [.apply command true 0 "a" "b" 0, .crash,
        .apply command true 0 "a" "b" 1]).Runs 0 := by
  refine ⟨rfl, ?_⟩
  rintro (hact | ⟨r, hr, -, hfinal⟩)
  · cases hact
  · rw [mem_singleton.mp hr] at hfinal
    cases hfinal

end CodeWide.HostUpdate
