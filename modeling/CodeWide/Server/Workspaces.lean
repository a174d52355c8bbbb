import CodeWide.Lib.Run

/-!
# Preparing a workspace

A status read looks at the live registry and then at the checkpoint file.
-/

namespace CodeWide.Server.Workspaces

open Lib List Option

inductive WorkspacePhase
  | creating
  | preparing
  | ready
  | failed
deriving DecidableEq

structure WorkspaceOperation (ω : Type) where
  requestId : String
  phase : WorkspacePhase
  workspace : Option ω
  error : Option String
  updatedAt : Nat

section Model

variable {ω : Type}

/-- `Creating` or `Preparing`. -/
def WorkspaceOperation.InFlight (operation : WorkspaceOperation ω) : Prop :=
  operation.phase = .creating ∨ operation.phase = .preparing

instance (operation : WorkspaceOperation ω) : Decidable operation.InFlight :=
  inferInstanceAs (Decidable (_ ∨ _))

def WorkspaceOperation.outcome (operation : WorkspaceOperation ω) : Option (Option (Option ω)) :=
  match operation.phase with
  | .ready => some (some operation.workspace)
  | .failed => some none
  | _ => none

inductive Stage (ω : Type)
  | running
  | sending (operation : WorkspaceOperation ω) (persisted final : Bool)
  | removing

structure Creation (ω : Type) where
  cell : Nat
  checkpointFailed : Bool
  stage : Stage ω

/-- A status read that found no live entry: before it reads the file, or with the operation to mark.
-/
structure Reader (ω : Type) where
  gate : Bool
  interrupted : Option (WorkspaceOperation ω)

/-- The state of one request id, with what has happened. -/
structure Service (ω : Type) where
  file : Option (WorkspaceOperation ω)
  live : Option Nat
  cells : List (WorkspaceOperation ω)
  creation : Option (Creation ω)
  readers : List (Reader ω)
  waiting : List Nat
  answers : List (WorkspaceOperation ω)
  released : List (WorkspaceOperation ω)
  completed : List ω
  started : Nat
  /-- An operation was marked as interrupted while its creation was in the registry. -/
  clobbered : Bool

def Service.start : Service ω := ⟨none, none, [], none, [], [], [], [], [], 0, false⟩

abbrev Write := Option String

inductive Event (ω : Type)
  | status (gate : Bool)
  | read (reader : Nat)
  | interrupt (reader : Nat) (now : Nat) (write : Write)
  | create (now : Nat) (write : Write)
  | observe (waiter : Nat)
  | progress (workspace : ω) (now : Nat) (write : Write)
  | finish (result : Except String ω) (now : Nat) (write : Write)
  | send
  | remove
  | restart

def interruptedByRestart : String := "workspace preparation was interrupted by companion restart"

def WorkspaceOperation.interrupted (operation : WorkspaceOperation ω) (now : Nat) :
    WorkspaceOperation ω :=
  { operation with phase := .failed, error := some interruptedByRestart, updatedAt := now }

def Service.answer (s : Service ω) (gate : Bool) (operation : WorkspaceOperation ω) : Service ω :=
  { s with
    answers := s.answers ++ [operation]
    released := if gate = true ∧ operation.phase = .ready then s.released ++ [operation]
      else s.released }

def Service.markInterrupted (s : Service ω) (operation : WorkspaceOperation ω) (now : Nat) :
    Service ω :=
  { s with
    file := some (operation.interrupted now)
    clobbered := s.clobbered || s.creation.isSome }

/-- `publish_operation` up to the channel: what it will send, and whether it was written. -/
def Service.publish (s : Service ω) (c : Creation ω) (operation : WorkspaceOperation ω) (now : Nat)
    (final : Bool) : Write → Service ω
  | none =>
    { s with
      file := some operation
      creation := some { c with stage := .sending operation true final } }
  | some error =>
    let failed := { operation with phase := .failed, error := some error, updatedAt := now }
    { s with creation := some { c with stage := .sending failed false final } }

variable (requestId : String)

def Service.create (s : Service ω) (now : Nat) (write : Write) : Service ω :=
  match s.live with
  | some cell => { s with waiting := s.waiting ++ [cell] }
  | none =>
    match s.file with
    | some operation =>
      if operation.InFlight then
        match write with
        | none => (s.markInterrupted operation now).answer false (operation.interrupted now)
        | some _ => s
      else s.answer false operation
    | none =>
      let initial : WorkspaceOperation ω := ⟨requestId, .creating, none, none, now⟩
      match write with
      | none =>
        { s with
          file := some initial
          live := some s.cells.length
          cells := s.cells ++ [initial]
          creation := some ⟨s.cells.length, false, .running⟩
          waiting := s.waiting ++ [s.cells.length]
          started := s.started + 1 }
      | some _ => s

def Service.step (s : Service ω) : Event ω → Service ω
  | .status gate =>
    match s.live.bind (fun cell => s.cells[cell]?) with
    | some operation => s.answer gate operation
    | none => { s with readers := s.readers ++ [⟨gate, none⟩] }
  | .read i =>
    match s.readers[i]? with
    | some ⟨gate, none⟩ =>
      match s.file with
      | none => { s with readers := s.readers.eraseIdx i }
      | some operation =>
        if operation.InFlight then
          { s with readers := s.readers.set i ⟨gate, some operation⟩ }
        else ({ s with readers := s.readers.eraseIdx i }).answer gate operation
    | _ => s
  | .interrupt i now write =>
    match s.readers[i]? with
    | some ⟨gate, some operation⟩ =>
      let left := { s with readers := s.readers.eraseIdx i }
      match write with
      | none => (left.markInterrupted operation now).answer gate (operation.interrupted now)
      | some _ => left
    | _ => s
  | .create now write => s.create requestId now write
  | .observe i =>
    match s.waiting[i]?.bind (fun cell => s.cells[cell]?) with
    | some operation =>
      if operation.phase = .creating then s
      else ({ s with waiting := s.waiting.eraseIdx i }).answer false operation
    | none => s
  | .progress workspace now write =>
    match s.creation with
    | some ⟨cell, failed, .running⟩ =>
      s.publish ⟨cell, failed, .running⟩ ⟨requestId, .preparing, some workspace, none, now⟩ now
        false write
    | _ => s
  | .finish result now write =>
    match s.creation with
    | some ⟨cell, true, .running⟩ => { s with creation := some ⟨cell, true, .removing⟩ }
    | some ⟨cell, false, .running⟩ =>
      match result with
      | .ok workspace =>
        ({ s with completed := s.completed ++ [workspace] }).publish ⟨cell, false, .running⟩
          ⟨requestId, .ready, some workspace, none, now⟩ now true write
      | .error error =>
        s.publish ⟨cell, false, .running⟩
          ⟨requestId, .failed, s.cells[cell]?.bind WorkspaceOperation.workspace, some error, now⟩
          now true write
    | _ => s
  | .send =>
    match s.creation with
    | some ⟨cell, failed, .sending operation persisted final⟩ =>
      { s with
        cells := s.cells.set cell operation
        creation := some ⟨cell, failed || (!final && !persisted),
          if final then .removing else .running⟩ }
    | _ => s
  | .remove =>
    match s.creation with
    | some ⟨_, _, .removing⟩ => { s with live := none, creation := none }
    | _ => s
  -- The tasks of the process are gone, and its registry.
  | .restart => { s with live := none, creation := none, readers := [], waiting := [] }

/-! ## What is to hold -/

/-- One outcome, whatever has happened. -/
structure OneOutcome (s : Service ω) : Prop where
  started : s.started ≤ 1
  clobbered : s.clobbered = false
  answers : s.answers.Pairwise (fun earlier later =>
    ∀ outcome, earlier.outcome = some outcome → later.outcome = some outcome)
  released : ∀ operation ∈ s.released, operation.phase = .ready ∧
    ∃ workspace ∈ s.completed, operation.workspace = some workspace

/-- A status read without a live entry finds the last state in the file. -/
def Meets (s : Service ω) : Event ω → Prop
  | .read i => ∀ gate, s.readers[i]? = some ⟨gate, none⟩ → ∀ cell, s.live = some cell →
      ∃ operation, s.cells[cell]? = some operation ∧ s.file = some operation ∧ ¬ operation.InFlight
  | .progress _ _ write => ∀ cell, s.creation = some ⟨cell, true, .running⟩ → write ≠ none
  | _ => True

/-! ## The invariant -/

def Service.verdict (s : Service ω) : Option (Option (Option ω)) :=
  match s.creation with
  | some c => s.cells[c.cell]?.bind WorkspaceOperation.outcome
  | none =>
    match s.file with
    | none => none
    | some operation => if operation.InFlight then some none else operation.outcome

def StageOk (c : Creation ω) (sent written : WorkspaceOperation ω) : Prop :=
  match c.checkpointFailed, c.stage with
  | true, .running | true, .removing => sent.phase = .failed ∧ written.InFlight
  | true, .sending next persisted final => sent.phase = .failed ∧ written.InFlight ∧
      next.phase = .failed ∧ persisted = false ∧ final = false
  | false, .running => sent.InFlight ∧ written.InFlight
  | false, .sending next true false => sent.InFlight ∧ next.InFlight ∧ written = next
  | false, .sending next false _ => sent.InFlight ∧ next.phase = .failed ∧ written.InFlight
  | false, .sending next true true => sent.InFlight ∧ ¬ next.InFlight ∧ written = next
  | false, .removing => ¬ sent.InFlight ∧
      (written = sent ∨ sent.phase = .failed ∧ written.InFlight)

structure Inv (s : Service ω) : Prop where
  live : s.live = s.creation.map Creation.cell
  stage : ∀ c, s.creation = some c → ∃ sent written, s.cells[c.cell]? = some sent ∧
    s.file = some written ∧ StageOk c sent written
  readers : ∀ reader ∈ s.readers, ∀ operation, reader.interrupted = some operation →
    s.creation = none ∧ ∃ written, s.file = some written ∧ written.phase ≠ .ready
  waiting : ∀ cell ∈ s.waiting, ∃ sent, s.cells[cell]? = some sent ∧
    ((∃ c, s.creation = some c ∧ c.cell = cell) ∨
      s.creation = none ∧ s.file ≠ none ∧ ¬ sent.InFlight ∧ sent.outcome = s.verdict)
  answers : ∀ operation ∈ s.answers, ∀ outcome, operation.outcome = some outcome →
    s.verdict = some outcome
  file : s.file = none → s.started = 0
  completed : ∀ operation, s.file = some operation → operation.phase = .ready →
    ∃ workspace ∈ s.completed, operation.workspace = some workspace
  sound : OneOutcome s

variable {requestId}

variable {operation : WorkspaceOperation ω}

lemma outcome_of_inFlight (h : operation.InFlight) : operation.outcome = none := by
  unfold WorkspaceOperation.outcome
  rcases h with h | h <;> rw [h]

lemma outcome_of_failed (h : operation.phase = .failed) : operation.outcome = some none := by
  unfold WorkspaceOperation.outcome
  rw [h]

lemma not_inFlight_of_failed (h : operation.phase = .failed) : ¬ operation.InFlight := by
  rintro (hphase | hphase) <;> rw [h] at hphase <;> cases hphase

lemma not_inFlight_of_ready (h : operation.phase = .ready) : ¬ operation.InFlight := by
  rintro (hphase | hphase) <;> rw [h] at hphase <;> cases hphase

/-- What a file comes to that no creation of this process works on. -/
def settledOutcome (operation : WorkspaceOperation ω) : Option (Option (Option ω)) :=
  if operation.InFlight then some none else operation.outcome

lemma settledOutcome_of_not_ready
    (h : operation.phase ≠ .ready) : settledOutcome operation = some none := by
  unfold settledOutcome
  split
  · rfl
  rename_i hfly
  cases hphase : operation.phase with
  | ready => exact absurd hphase h
  | failed => exact outcome_of_failed hphase
  | creating => exact absurd (.inl hphase) hfly
  | preparing => exact absurd (.inr hphase) hfly

variable {s : Service ω}

open Service

lemma verdict_of_creation {c : Creation ω} {sent : WorkspaceOperation ω}
    (h : s.creation = some c) (hsent : s.cells[c.cell]? = some sent) :
    s.verdict = sent.outcome := by
  unfold verdict
  rw [h]
  simp only [hsent, bind_some]

lemma verdict_of_file {written : WorkspaceOperation ω} (h : s.creation = none)
    (hfile : s.file = some written) : s.verdict = settledOutcome written := by
  unfold verdict settledOutcome
  rw [h, hfile]

lemma StageOk.eq_of_ready {c : Creation ω} {sent written : WorkspaceOperation ω}
    (h : StageOk c sent written) (hready : sent.phase = .ready) : written = sent := by
  obtain ⟨cell, failed, stage⟩ := c
  have hfly := not_inFlight_of_ready hready
  have hfail : sent.phase ≠ .failed := by
    rw [hready]
    intro heq
    cases heq
  cases failed with
  | true => cases stage <;> exact absurd h.1 hfail
  | false =>
  cases stage with
  | running => exact absurd h.1 hfly
  | removing =>
    rcases h.2 with heq | ⟨hphase, -⟩
    · exact heq
    · exact absurd hphase hfail
  | sending next persisted final => cases persisted <;> cases final <;> exact absurd h.1 hfly

lemma StageOk.settled {c : Creation ω} {sent written : WorkspaceOperation ω}
    (h : StageOk c sent written) {outcome : Option (Option ω)}
    (hsent : sent.outcome = some outcome) : settledOutcome written = some outcome := by
  have hnot : ¬ sent.InFlight := by
    intro hfly
    rw [outcome_of_inFlight hfly] at hsent
    cases hsent
  have hwr : written = sent ∨ sent.phase = .failed ∧ written.InFlight := by
    obtain ⟨cell, failed, stage⟩ := c
    cases failed with
    | true =>
      cases stage with
      | sending next persisted final => exact .inr ⟨h.1, h.2.1⟩
      | _ => exact .inr h
    | false =>
    cases stage with
    | running => exact absurd h.1 hnot
    | removing => exact h.2
    | sending next persisted final => cases persisted <;> cases final <;> exact absurd h.1 hnot
  unfold settledOutcome
  rcases hwr with rfl | ⟨hfail, hfly⟩
  · rw [if_neg hnot, hsent]
  · rw [if_pos hfly, ← hsent, outcome_of_failed hfail]

/-! ## The steps -/

lemma Inv.answer (h : Inv s) (hverd : operation.outcome = s.verdict) {gate : Bool}
    (hready : gate = true → operation.phase = .ready →
      ∃ workspace ∈ s.completed, operation.workspace = some workspace) :
    Inv (s.answer gate operation) := by
  refine ⟨h.live, h.stage, h.readers, h.waiting, ?_, h.file, h.completed,
    h.sound.started, h.sound.clobbered, ?_, ?_⟩
  · intro other hother outcome hout
    rcases mem_concat.mp hother with hold | hnew
    · exact h.answers other hold outcome hout
    · rw [hnew, hverd] at hout
      exact hout
  · refine pairwise_append.mpr ⟨h.sound.answers, pairwise_singleton _ _, ?_⟩
    intro earlier hearlier later hlater outcome hout
    rw [mem_singleton.mp hlater, hverd]
    exact h.answers earlier hearlier outcome hout
  intro other hother
  unfold Service.answer at hother ⊢
  simp only at hother ⊢
  split at hother
  · rename_i hgate
    rcases mem_concat.mp hother with hold | hnew
    · exact h.sound.released other hold
    · rw [hnew]
      exact ⟨hgate.2, hready hgate.1 hgate.2⟩
  · exact h.sound.released other hother

lemma Inv.of_verdict {s next : Service ω} (h : Inv s) (hans : next.answers = s.answers)
    (hreleased : next.released = s.released) (hstarted : next.started ≤ 1)
    (hclobbered : next.clobbered = false)
    (hkept : ∀ workspace ∈ s.completed, workspace ∈ next.completed)
    (hverd : ∀ outcome, s.verdict = some outcome → next.verdict = some outcome)
    (live : next.live = next.creation.map Creation.cell)
    (stage : ∀ c, next.creation = some c → ∃ sent written, next.cells[c.cell]? = some sent ∧
      next.file = some written ∧ StageOk c sent written)
    (readers : ∀ reader ∈ next.readers, ∀ operation, reader.interrupted = some operation →
      next.creation = none ∧ ∃ written, next.file = some written ∧ written.phase ≠ .ready)
    (waiting : ∀ cell ∈ next.waiting, ∃ sent, next.cells[cell]? = some sent ∧
      ((∃ c, next.creation = some c ∧ c.cell = cell) ∨
        next.creation = none ∧ next.file ≠ none ∧ ¬ sent.InFlight ∧ sent.outcome = next.verdict))
    (file : next.file = none → next.started = 0)
    (completed : ∀ operation, next.file = some operation → operation.phase = .ready →
      ∃ workspace ∈ next.completed, operation.workspace = some workspace) : Inv next := by
  refine ⟨live, stage, readers, waiting, ?_, file, completed, hstarted, hclobbered, ?_, ?_⟩
  · intro operation hop outcome hout
    rw [hans] at hop
    exact hverd outcome (h.answers operation hop outcome hout)
  · rw [hans]
    exact h.sound.answers
  intro operation hop
  rw [hreleased] at hop
  obtain ⟨hready, workspace, hmem, hws⟩ := h.sound.released operation hop
  exact ⟨hready, workspace, hkept workspace hmem, hws⟩

section

variable (h : Inv s)
include h

lemma Inv.dropReader (i : Nat) : Inv { s with readers := s.readers.eraseIdx i } :=
  ⟨h.live, h.stage, fun reader hrd => h.readers reader (mem_of_mem_eraseIdx hrd),
    h.waiting, h.answers, h.file, h.completed, h.sound.started, h.sound.clobbered,
    h.sound.answers, h.sound.released⟩

lemma Inv.creation_of_live {cell : Nat} (hlive : s.live = some cell) :
    ∃ c, s.creation = some c ∧ c.cell = cell := by
  rw [h.live] at hlive
  exact map_eq_some_iff.mp hlive

lemma Inv.creation_of_free (hlive : s.live = none) : s.creation = none := by
  rw [h.live] at hlive
  exact map_eq_none_iff.mp hlive

lemma Inv.markInterrupted (hnone : s.creation = none)
    {written : WorkspaceOperation ω} (hfile : s.file = some written) (hnot : written.phase ≠ .ready)
    (operation : WorkspaceOperation ω) (now : Nat) :
    Inv (s.markInterrupted operation now) ∧ (s.markInterrupted operation now).verdict = some none := by
  have hbef : s.verdict = some none :=
    (verdict_of_file hnone hfile).trans (settledOutcome_of_not_ready hnot)
  have hafter : (s.markInterrupted operation now).verdict = some none :=
    (verdict_of_file (s := s.markInterrupted operation now) hnone rfl).trans
      (settledOutcome_of_not_ready (fun hready => WorkspacePhase.noConfusion hready))
  refine ⟨?_, hafter⟩
  refine h.of_verdict rfl rfl h.sound.started ?_ (fun _ hw => hw) ?_ h.live ?_ ?_ ?_ ?_ ?_
  · unfold Service.markInterrupted
    rw [h.sound.clobbered, hnone]
    rfl
  · intro outcome hout
    rw [hafter, ← hbef, hout]
  · intro c hc
    rw [show (s.markInterrupted operation now).creation = s.creation from rfl, hnone] at hc
    cases hc
  · intro reader _ _ _
    exact ⟨hnone, _, rfl, fun hready => WorkspacePhase.noConfusion hready⟩
  · intro cell hcell
    obtain ⟨sent, hsent, ⟨c, hc, -⟩ | ⟨-, -, hfly, hout⟩⟩ := h.waiting cell hcell
    · rw [hnone] at hc
      cases hc
    · exact ⟨sent, hsent, .inr ⟨hnone, some_ne_none _, hfly, (hout.trans hbef).trans hafter.symm⟩⟩
  · intro hfileNone
    cases hfileNone
  · intro other hother hready
    cases hother
    cases hready

lemma Inv.status (gate : Bool) : Inv (s.step requestId (.status gate)) := by
  rw [step]
  split
  · rename_i operation hsent
    obtain ⟨cell, hlive, hcell⟩ := bind_eq_some_iff.mp hsent
    obtain ⟨c, hc, rfl⟩ := h.creation_of_live hlive
    obtain ⟨sent, written, hget, hfile, hstage⟩ := h.stage c hc
    rw [hcell] at hget
    cases hget
    refine h.answer (verdict_of_creation hc hcell).symm ?_
    intro _ hready
    rw [hstage.eq_of_ready hready] at hfile
    exact h.completed operation hfile hready
  refine ⟨h.live, h.stage, ?_, h.waiting, h.answers, h.file, h.completed, h.sound.started,
    h.sound.clobbered, h.sound.answers, h.sound.released⟩
  intro reader hrd operation hop
  rcases mem_concat.mp hrd with hold | hnew
  · exact h.readers reader hold operation hop
  · rw [hnew] at hop
    cases hop

lemma Inv.read (i : Nat) (hmeets : Meets s (.read i)) : Inv (s.step requestId (.read i)) := by
  rw [step]
  split
  · rename_i gate hrd
    have hlive := hmeets gate hrd
    split
    · exact h.dropReader i
    rename_i operation hfile
    split
    · rename_i hfly
      -- The file is in flight, so no creation is there.
      have hnone : s.creation = none := by
        cases hc : s.creation with
        | none => rfl
        | some c =>
        obtain ⟨sent, -, hsame, hnot⟩ := hlive c.cell (by rw [h.live, hc]; rfl)
        rw [hfile] at hsame
        cases hsame
        exact absurd hfly hnot
      refine ⟨h.live, h.stage, ?_, h.waiting, h.answers, h.file, h.completed, h.sound.started,
        h.sound.clobbered, h.sound.answers, h.sound.released⟩
      intro reader hmem _ hintr
      rcases mem_or_eq_of_mem_set hmem with hold | rfl
      · exact h.readers reader hold _ hintr
      · refine ⟨hnone, operation, hfile, ?_⟩
        intro hready
        exact not_inFlight_of_ready hready hfly
    rename_i hfly
    have hverd : operation.outcome = s.verdict := by
      cases hc : s.creation with
      | none => rw [verdict_of_file hc hfile, settledOutcome, if_neg hfly]
      | some c =>
      obtain ⟨sent, hsent, hsame, -⟩ := hlive c.cell (by rw [h.live, hc]; rfl)
      rw [hfile] at hsame
      cases hsame
      exact (verdict_of_creation hc hsent).symm
    exact (h.dropReader i).answer hverd (fun _ hready => h.completed operation hfile hready)
  · exact h

lemma Inv.interrupt (i now : Nat) (write : Write) :
    Inv (s.step requestId (.interrupt i now write)) := by
  rw [step]
  split
  · rename_i gate operation hrd
    obtain ⟨hnone, written, hfile, hnot⟩ := h.readers _ (mem_of_getElem? hrd) operation rfl
    have hdrop := h.dropReader i
    cases write with
    | some error => exact hdrop
    | none =>
    obtain ⟨hinv, hverd⟩ := hdrop.markInterrupted hnone hfile hnot operation now
    refine hinv.answer ?_ ?_
    · rw [hverd]
      exact outcome_of_failed rfl
    · intro _ hready
      cases hready
  · exact h

lemma Inv.create (now : Nat) (write : Write) : Inv (s.create requestId now write) := by
  unfold Service.create
  split
  · rename_i cell hlive
    obtain ⟨c, hc, rfl⟩ := h.creation_of_live hlive
    obtain ⟨sent, written, hsent, -, -⟩ := h.stage c hc
    refine ⟨h.live, h.stage, h.readers, ?_, h.answers, h.file, h.completed, h.sound.started,
      h.sound.clobbered, h.sound.answers, h.sound.released⟩
    intro cell hcell
    rcases mem_concat.mp hcell with hold | hnew
    · exact h.waiting cell hold
    · rw [hnew]
      exact ⟨sent, hsent, .inl ⟨c, hc, rfl⟩⟩
  rename_i hlive
  have hnone := h.creation_of_free hlive
  split
  · rename_i operation hfile
    split
    · rename_i hfly
      cases write with
      | some error => exact h
      | none =>
      obtain ⟨hinv, hverd⟩ := h.markInterrupted hnone hfile
        (fun hready => not_inFlight_of_ready hready hfly) operation now
      refine hinv.answer ?_ (fun hgate => Bool.noConfusion hgate)
      rw [hverd]
      exact outcome_of_failed rfl
    · rename_i hfly
      refine h.answer ?_ (fun hgate => Bool.noConfusion hgate)
      rw [verdict_of_file hnone hfile, settledOutcome, if_neg hfly]
  rename_i hfile
  cases write with
  | some error => exact h
  | none =>
  have hverd : s.verdict = none := by
    unfold Service.verdict
    rw [hnone, hfile]
  refine h.of_verdict rfl rfl ?_ h.sound.clobbered (fun _ hw => hw) ?_ rfl ?_ ?_ ?_ ?_ ?_
  · simp only [h.file hfile]
    exact Nat.le_refl 1
  · intro outcome hout
    rw [hverd] at hout
    cases hout
  · intro c hc
    cases hc
    exact ⟨_, _, getElem?_concat_length, rfl, .inl rfl, .inl rfl⟩
  · intro reader hrd operation hintr
    obtain ⟨-, written, hwr, -⟩ := h.readers reader hrd operation hintr
    rw [hfile] at hwr
    cases hwr
  · intro cell hcell
    rcases mem_concat.mp hcell with hold | hnew
    · obtain ⟨sent, -, ⟨c, hc, -⟩ | ⟨-, hsome, -⟩⟩ := h.waiting cell hold
      · rw [hnone] at hc
        cases hc
      · exact absurd hfile hsome
    · rw [hnew]
      exact ⟨_, getElem?_concat_length, .inl ⟨_, rfl, rfl⟩⟩
  · intro hfileNone
    cases hfileNone
  · intro operation hop hready
    cases hop
    cases hready

lemma Inv.observe (i : Nat) : Inv (s.step requestId (.observe i)) := by
  rw [step]
  split
  · rename_i operation hsent
    split
    · exact h
    obtain ⟨cell, hwaiter, hcell⟩ := bind_eq_some_iff.mp hsent
    have hleft : Inv { s with waiting := s.waiting.eraseIdx i } :=
      ⟨h.live, h.stage, h.readers, fun c hc => h.waiting c (mem_of_mem_eraseIdx hc),
        h.answers, h.file, h.completed, h.sound.started, h.sound.clobbered, h.sound.answers,
        h.sound.released⟩
    refine hleft.answer ?_ (fun hgate => Bool.noConfusion hgate)
    obtain ⟨sent, hget, ⟨c, hc, rfl⟩ | ⟨-, -, -, hout⟩⟩ :=
      h.waiting cell (mem_of_getElem? hwaiter)
    · exact (verdict_of_creation hc hcell).symm
    · rw [hcell] at hget
      cases hget
      exact hout
  · exact h

lemma Inv.restage {c : Creation ω} (hc : s.creation = some c)
    (file : WorkspaceOperation ω) (failed : Bool) (stage : Stage ω) {completed : List ω}
    {sent : WorkspaceOperation ω} (hsent : s.cells[c.cell]? = some sent)
    (hstage : StageOk ⟨c.cell, failed, stage⟩ sent file)
    (hkept : ∀ workspace ∈ s.completed, workspace ∈ completed)
    (hcomp : file.phase = .ready → ∃ workspace ∈ completed, file.workspace = some workspace) :
    Inv { s with file := some file, creation := some ⟨c.cell, failed, stage⟩,
                 completed := completed } := by
  have hsame : ∀ outcome, s.verdict = some outcome →
      verdict { s with file := some file, creation := some ⟨c.cell, failed, stage⟩,
                               completed := completed } = some outcome := by
    intro outcome hout
    rw [verdict_of_creation hc hsent] at hout
    exact (verdict_of_creation (s := { s with
      file := some file, creation := some ⟨c.cell, failed, stage⟩, completed := completed })
        rfl hsent).trans hout
  refine h.of_verdict rfl rfl h.sound.started h.sound.clobbered hkept hsame ?_ ?_ ?_ ?_ ?_ ?_
  · exact h.live.trans (by rw [hc]; rfl)
  · intro other hother
    cases hother
    exact ⟨sent, file, hsent, rfl, hstage⟩
  · intro reader hrd operation hintr
    rw [(h.readers reader hrd operation hintr).1] at hc
    cases hc
  · intro cell hcell
    obtain ⟨other, hother, ⟨c', hc', hsameCell⟩ | ⟨hnone, -⟩⟩ := h.waiting cell hcell
    · rw [hc] at hc'
      cases hc'
      exact ⟨other, hother, .inl ⟨_, rfl, hsameCell⟩⟩
    · rw [hnone] at hc
      cases hc
  · intro hfileNone
    cases hfileNone
  · intro operation hop hready
    cases hop
    exact hcomp hready

lemma Inv.publish {cell : Nat} {failed : Bool} (hc : s.creation = some ⟨cell, failed, .running⟩)
    {now : Nat} {final : Bool} {write : Write} {completed : List ω}
    (hkept : ∀ workspace ∈ s.completed, workspace ∈ completed)
    (hcomp : operation.phase = .ready →
      ∃ workspace ∈ completed, operation.workspace = some workspace)
    (hphase : final = decide (¬ operation.InFlight))
    (hfail : failed = true → write ≠ none ∧ final = false) :
    Inv ({ s with completed := completed }.publish ⟨cell, failed, .running⟩ operation now final
      write) := by
  obtain ⟨sent, written, hsent, hfile, hstage⟩ := h.stage _ hc
  cases write with
  | none =>
    cases failed with
    | true => exact absurd rfl (hfail rfl).1
    | false =>
    refine h.restage hc operation false (.sending operation true final) hsent ?_ hkept hcomp
    by_cases hfly : operation.InFlight
    · rw [hphase, decide_eq_false (not_not.mpr hfly)]
      exact ⟨hstage.1, hfly, rfl⟩
    · rw [hphase, decide_eq_true hfly]
      exact ⟨hstage.1, hfly, rfl⟩
  | some error =>
  have hnotReady : written.phase = .ready →
      ∃ workspace ∈ completed, written.workspace = some workspace := by
    intro hready
    obtain ⟨workspace, hmem, hws⟩ := h.completed written hfile hready
    exact ⟨workspace, hkept workspace hmem, hws⟩
  have hnext := h.restage hc written failed (.sending
    { operation with phase := .failed, error := some error, updatedAt := now } false final)
    hsent ?_ hkept hnotReady
  · rw [← hfile] at hnext
    exact hnext
  · cases failed with
    | true => exact ⟨hstage.1, hstage.2, rfl, rfl, (hfail rfl).2⟩
    | false => exact ⟨hstage.1, rfl, hstage.2⟩

lemma Inv.send : Inv (s.step requestId .send) := by
  rw [step]
  split
  · rename_i cell failed operation persisted final hc
    obtain ⟨sent, written, hsent, hfile, hstage⟩ := h.stage _ hc
    have hlt := (List.getElem?_eq_some_iff.mp hsent).1
    have hcell : (s.cells.set cell operation)[cell]? = some operation := getElem?_set_self hlt
    -- What has an outcome already has it still.
    have hkeeps : ∀ outcome, sent.outcome = some outcome → operation.outcome = some outcome := by
      intro outcome hout
      cases failed with
      | true =>
        rw [outcome_of_failed hstage.1] at hout
        exact (outcome_of_failed hstage.2.2.1).trans hout
      | false =>
      have hfly : sent.InFlight := by
        cases persisted <;> cases final <;> exact hstage.1
      rw [outcome_of_inFlight hfly] at hout
      cases hout
    refine h.of_verdict rfl rfl h.sound.started h.sound.clobbered (fun _ hw => hw) ?_ ?_ ?_ ?_ ?_
      h.file h.completed
    · intro outcome hout
      rw [verdict_of_creation hc hsent] at hout
      exact (verdict_of_creation (c := ⟨cell, _, _⟩) rfl hcell).trans (hkeeps outcome hout)
    · exact h.live.trans (by rw [hc]; rfl)
    · intro c hnext
      cases hnext
      refine ⟨operation, written, hcell, hfile, ?_⟩
      cases failed with
      | true =>
        obtain ⟨hsentFailed, hfly, hfail, rfl, rfl⟩ := hstage
        exact ⟨hfail, hfly⟩
      | false =>
      cases persisted with
      | false =>
        obtain ⟨-, hfail, hfly⟩ := hstage
        cases final with
        | true => exact ⟨not_inFlight_of_failed hfail, .inr ⟨hfail, hfly⟩⟩
        | false => exact ⟨hfail, hfly⟩
      | true =>
      cases final with
      | true => exact ⟨hstage.2.1, .inl hstage.2.2⟩
      | false =>
        obtain ⟨-, hfly, rfl⟩ := hstage
        exact ⟨hfly, hfly⟩
    · intro reader hrd other hintr
      rw [(h.readers reader hrd other hintr).1] at hc
      cases hc
    intro waiter hwaiter
    obtain ⟨other, hother, ⟨c, hc', hsame⟩ | ⟨hnone, -⟩⟩ := h.waiting waiter hwaiter
    · rw [hc] at hc'
      cases hc'
      subst hsame
      exact ⟨operation, hcell, .inl ⟨_, rfl, rfl⟩⟩
    · rw [hnone] at hc
      cases hc
  · exact h

lemma Inv.gone {waiting : List Nat} {readers : List (Reader ω)}
    (hreaders : ∀ reader ∈ readers, reader ∈ s.readers)
    (hwait : ∀ cell ∈ waiting, cell ∈ s.waiting ∧ ∀ c, s.creation = some c → c.stage = .removing) :
    Inv { s with live := none, creation := none, waiting := waiting, readers := readers } := by
  have hverd : ∀ outcome, s.verdict = some outcome →
      verdict { s with live := none, creation := none, waiting := waiting,
                               readers := readers } = some outcome := by
    intro outcome hout
    cases hc : s.creation with
    | none =>
      unfold verdict at hout ⊢
      rw [hc] at hout
      exact hout
    | some c =>
    obtain ⟨sent, written, hsent, hfile, hstage⟩ := h.stage c hc
    rw [verdict_of_creation hc hsent] at hout
    exact (verdict_of_file (s := { s with
      live := none, creation := none, waiting := waiting, readers := readers })
        rfl hfile).trans (hstage.settled hout)
  refine h.of_verdict rfl rfl h.sound.started h.sound.clobbered (fun _ hw => hw) hverd rfl
    (fun c hc => by cases hc) ?_ ?_ h.file h.completed
  · intro reader hrd operation hintr
    exact ⟨rfl, (h.readers reader (hreaders reader hrd) operation hintr).2⟩
  intro cell hcell
  obtain ⟨hold, hremoving⟩ := hwait cell hcell
  obtain ⟨sent, hsent, ⟨c, hc, rfl⟩ | ⟨hnone, hsome, hfly, hout⟩⟩ := h.waiting cell hold
  · obtain ⟨sent', written, hsent', hfile, hstage⟩ := h.stage c hc
    rw [hsent] at hsent'
    cases hsent'
    have hfly : ¬ sent.InFlight := by
      obtain ⟨number, failed, stage⟩ := c
      have hstageEq : stage = .removing := hremoving _ hc
      subst hstageEq
      cases failed with
      | true => exact not_inFlight_of_failed hstage.1
      | false => exact hstage.1
    obtain ⟨outcome, hout⟩ : ∃ outcome, sent.outcome = some outcome := by
      unfold WorkspaceOperation.outcome
      cases hphase : sent.phase with
      | creating => exact absurd (.inl hphase) hfly
      | preparing => exact absurd (.inr hphase) hfly
      | ready | failed => exact ⟨_, rfl⟩
    refine ⟨sent, hsent, .inr ⟨rfl, ?_, hfly, ?_⟩⟩
    · rw [hfile]
      exact some_ne_none written
    · rw [hout]
      exact (hverd outcome ((verdict_of_creation hc hsent).trans hout)).symm
  · refine ⟨sent, hsent, .inr ⟨rfl, hsome, hfly, hout.trans ?_⟩⟩
    unfold verdict
    rw [hnone]

end

lemma Inv.step {s : Service ω} (h : Inv s) (event : Event ω) (hmeets : Meets s event) :
    Inv (s.step requestId event) := by
  cases event with
  | status gate => exact h.status gate
  | read i => exact h.read i hmeets
  | interrupt i now write => exact h.interrupt i now write
  | create now write => exact h.create now write
  | observe i => exact h.observe i
  | progress workspace now write =>
    rw [Service.step]
    split
    · rename_i cell failed hc
      refine h.publish hc (fun _ hw => hw) (fun hready => WorkspacePhase.noConfusion hready) rfl ?_
      intro hfail
      subst hfail
      exact ⟨hmeets cell hc, rfl⟩
    · exact h
  | finish result now write =>
    rw [Service.step]
    split
    · rename_i cell hc
      obtain ⟨sent, written, hsent, hfile, hstage⟩ := h.stage _ hc
      have hnext := h.restage hc written true .removing hsent hstage (fun _ hw => hw)
        (h.completed written hfile)
      rw [← hfile] at hnext
      exact hnext
    · rename_i cell hc
      split
      · rename_i workspace
        refine h.publish hc (fun _ hw => mem_append_left _ hw) ?_ rfl
          (fun hfalse => Bool.noConfusion hfalse)
        intro _
        exact ⟨workspace, mem_append_right _ (mem_singleton_self workspace), rfl⟩
      · exact h.publish hc (fun _ hw => hw) (fun hready => WorkspacePhase.noConfusion hready) rfl
          (fun hfalse => Bool.noConfusion hfalse)
    · exact h
  | send => exact h.send
  | remove =>
    rw [Service.step]
    split
    · rename_i cell failed hc
      refine h.gone (fun _ hrd => hrd) ?_
      intro waiter hwaiter
      refine ⟨hwaiter, ?_⟩
      intro c hc'
      rw [hc] at hc'
      cases hc'
      rfl
    · exact h
  | restart => exact h.gone (fun _ hrd => by cases hrd) (fun _ hwaiter => by cases hwaiter)

lemma inv_start : Inv (Service.start : Service ω) := by
  refine ⟨rfl, ?_, ?_, ?_, ?_, fun _ => rfl, ?_, Nat.zero_le 1, rfl, List.Pairwise.nil, ?_⟩
  all_goals
    intro x hx
    cases hx

end Model

end CodeWide.Server.Workspaces
