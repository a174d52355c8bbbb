import CodeWide.Accounts.PoolStates
import CodeWide.Lib.Run

/-!
# Runs of the account pool

Every operation leaves a sound pool in memory and in `state.json`, and the epoch counts the changes
of the active profile (`World.Good`).
-/

namespace CodeWide.Accounts

open Lib List Option

variable {Limits : Type}

inductive Operation (Limits : Type) where
  | capture (a : Capture) (written : Bool)
  | enrol (e : Enrolment Limits)
  | activate (id : String) (a : Capture) (captureWritten : Bool) (activation : Activation Limits)
      (answers : Nat → Attempt Limits)
  | update (id : String) (enabled : Option Bool) (priority : Option Nat) (written : Bool)
  | remove (id : String) (credentialsRemoved written : Bool)
  | refresh (a : Capture) (results : String → ProfileRefresh Limits) (observedAt : Int)
      (written : Bool) (answers : Nat → Attempt Limits)
  | rateLimits (update : Option Limits) (observedAt : Int) (written : Bool)
      (answers : Nat → Attempt Limits)
  | prepare (a : Capture) (captureWritten : Bool) (answers : Nat → Attempt Limits)
  | restart

def World.restart (w : World Limits) : World Limits :=
  { state := { persisted := w.disk.getD {}, accountEpoch := 0 }, disk := w.disk, activeChanges := 0 }

def perform [DecidableEq Limits] (rules : LimitRules Limits) (w : World Limits) : Operation Limits → World Limits
  | .capture a written => (captureLocked a written w).1
  | .enrol e => (enrol rules e w).1
  | .activate id a captureWritten activation answers =>
    (activateProfile rules id a captureWritten activation answers w).1
  | .update id enabled priority written => (updateProfile id enabled priority written w).1
  | .remove id credentialsRemoved written => (removeProfile id credentialsRemoved written w).1
  | .refresh a results observedAt written answers =>
    (refreshAndReconcile rules a results observedAt written answers w).1
  | .rateLimits update observedAt written answers =>
    (applyRateLimitUpdate rules update observedAt written answers w).1
  | .prepare a captureWritten answers => (prepareForTurn rules a captureWritten answers w).1
  | .restart => w.restart

section AndThen

variable {α β : Type} {r : Result Limits α} {f : α → World Limits → Result Limits β}

variable {I : World Limits → Prop}

lemma andThen_ends (herror : ∀ e, r.2 = .error e → I r.1)
    (hf : ∀ a, r.2 = .ok a → I (f a r.1).1) : I (r.andThen f).1 := by
  rw [Result.andThen]
  split
  · exact hf _ ‹_›
  · exact herror _ ‹_›

lemma andThen_keeps (hr : I r.1) (hf : ∀ a, r.2 = .ok a → I (f a r.1).1) : I (r.andThen f).1 :=
  andThen_ends (fun _ _ => hr) hf

end AndThen

structure World.Good (w : World Limits) : Prop where
  memory : Sound w.state.persisted
  file : ∀ pool, w.disk = some pool → Sound pool
  epoch : w.state.accountEpoch = w.activeChanges % 2 ^ 64

def EpochStep (s s' : RuntimeState Limits) : Prop :=
  s'.accountEpoch =
    if s'.persisted.activeProfileId = s.persisted.activeProfileId then s.accountEpoch
    else (s.accountEpoch + 1) % 2 ^ 64

lemma EpochStep.of_same {s s' : RuntimeState Limits} (hepoch : s'.accountEpoch = s.accountEpoch)
    (hacti : s'.persisted.activeProfileId = s.persisted.activeProfileId) : EpochStep s s' := by
  rw [EpochStep, if_pos hacti, hepoch]

lemma EpochStep.of_active {s s' : RuntimeState Limits} {id : String}
    (hepoch : s'.accountEpoch = (setActiveProfile s id).accountEpoch)
    (hacti : s'.persisted.activeProfileId = some id) : EpochStep s s' := by
  rw [EpochStep, hepoch, hacti]
  simp only [setActiveProfile, eq_comm]

section Good

variable {w : World Limits}

lemma World.Good.put (h : w.Good) {s : RuntimeState Limits} (hs : Sound s.persisted)
    (hstep : EpochStep w.state s) : (w.put s).Good where
  memory := hs
  file := h.file
  epoch := by
    change s.accountEpoch = (if _ then _ else _) % 2 ^ 64
    rw [hstep, h.epoch]
    split
    · rfl
    · exact Nat.mod_add_mod _ _ _

lemma World.Good.persist (h : w.Good) (written : Bool) : (w.persist written).1.Good := by
  rw [World.persist]
  split
  · refine { memory := h.memory, file := fun pool hpool => ?_, epoch := h.epoch }
    obtain rfl := some.inj hpool
    exact h.memory
  · exact h

variable {id : String}

lemma World.Good.activateLocked (h : w.Good) (rules : LimitRules Limits)
    (hid : id ∈ w.state.persisted.profiles.map AccountProfile.id) (a : Activation Limits) :
    (activateLocked rules id a w).1.Good := by
  have hput : (w.put (activatedState rules w.state id a)).Good :=
    h.put (activatedState_sound h.memory rules hid a) (EpochStep.of_active rfl rfl)
  rw [Accounts.activateLocked]
  split
  · exact h
  split
  · exact h
  split
  · exact h
  · split
    · exact h
    · exact hput.persist _

lemma minByPriority_mem {profiles : List (AccountProfile Limits)} {p : AccountProfile Limits}
    (h : minByPriority profiles = some p) : p ∈ profiles := by
  induction profiles generalizing p with
  | nil => exact absurd h (some_ne_none _).symm
  | cons q rest ih =>
  rw [minByPriority] at h
  split at h
  · obtain rfl := some.inj h
    exact mem_cons_self
  next r hr =>
  split at h
  · obtain rfl := some.inj h
    exact mem_cons_self
  · obtain rfl := some.inj h
    exact mem_cons_of_mem _ (ih hr)

variable {pool : PersistedAccountPool Limits}

lemma minByPriority_filter_mem {keep : AccountProfile Limits → Bool}
    (h : (minByPriority (pool.profiles.filter keep)).map AccountProfile.id = some id) :
    id ∈ pool.profiles.map AccountProfile.id := by
  obtain ⟨p, hp, rfl⟩ := map_eq_some_iff.mp h
  exact mem_map_of_mem (mem_of_mem_filter (minByPriority_mem hp))

lemma selectProfile_mem {now : Int}
    (h : selectProfile pool now = some id) : id ∈ pool.profiles.map AccountProfile.id := by
  simp only [selectProfile] at h
  split at h
  · exact minByPriority_filter_mem h
  next active hacti =>
  split at h
  · obtain ⟨activeId, -, hfind⟩ := bind_eq_some_iff.mp hacti
    have hmem : active.id ∈ pool.profiles.map AccountProfile.id :=
      mem_map_of_mem (mem_of_find hfind).1
    rcases hreset : (minByPriority (pool.profiles.filter fun p =>
        decide (p.priority < active.priority) && (p.enabled && !p.exhaustedIndefinitely) &&
          p.exhaustedUntil.any fun reset => decide (reset ≤ now))).map AccountProfile.id with _ | r
    · rw [hreset] at h
      obtain rfl := some.inj h
      exact hmem
    have hr := minByPriority_filter_mem hreset
    rw [hreset] at h
    obtain rfl := some.inj h
    exact hr
  · exact minByPriority_filter_mem h

lemma selectProfileAfterRefresh_mem {now : Int} {recoveredProfileId : Option String}
    (h : selectProfileAfterRefresh pool now recoveredProfileId = some id) :
    id ∈ pool.profiles.map AccountProfile.id := by
  simp only [selectProfileAfterRefresh] at h
  split at h
  · next active recovered hacti hrecov =>
    split at h
    · obtain rfl := some.inj h
      obtain ⟨recoveredId, -, hfind⟩ := bind_eq_some_iff.mp hrecov
      exact mem_map_of_mem (mem_of_find?_eq_some hfind)
    · exact selectProfile_mem h
  · exact selectProfile_mem h

lemma reconcile_keeps {I : World Limits → Prop} {rules : LimitRules Limits}
    {answers : Nat → Attempt Limits}
    (hact : ∀ w id attempt, I w → id ∈ w.state.persisted.profiles.map AccountProfile.id →
      I (Accounts.activateLocked rules id (answers attempt).activation w).1)
    (recoveredProfileId : Option String) (hw : I w) :
    I (reconcile rules recoveredProfileId answers w).1 := by
  have hloop : ∀ left attempt w, I w →
      I (reconcileFrom rules recoveredProfileId answers left attempt w).1 := by
    intro left
    induction left with
    | zero => exact fun _ _ hw => hw
    | succ left ih =>
    intro attempt w hw
    rw [reconcileFrom]
    split
    · exact hw
    next target htgt =>
    split
    · exact hw
    · have hnext := hact w target attempt hw (selectProfileAfterRefresh_mem htgt)
      exact andThen_keeps hnext fun _ _ => ih _ _ hnext
  exact hloop _ _ _ hw

lemma World.Good.reconcile (h : w.Good) (rules : LimitRules Limits)
    (recoveredProfileId : Option String) (answers : Nat → Attempt Limits) :
    (reconcile rules recoveredProfileId answers w).1.Good :=
  reconcile_keeps (fun _ _ _ hw hid => hw.activateLocked rules hid _) recoveredProfileId h

end Good

section Operations

variable [DecidableEq Limits]

lemma World.Good.captureUnpublished {w : World Limits} (h : w.Good) (a : Capture) :
    (captureUnpublished a w).1.Good := by
  rw [Accounts.captureUnpublished]
  split
  · exact h
  · exact h
  · exact h
  next id hid =>
  split
  · refine h.put (capturedState_sound h.memory id a.now) (@EpochStep.of_active _ _ _ id ?_ ?_)
    · simp only [capturedState]
      split <;> rfl
    · simp only [capturedState]
      split <;> rfl
  · exact h

lemma World.Good.captureLocked {w : World Limits} (h : w.Good) (a : Capture) (written : Bool) :
    (captureLocked a written w).1.Good := by
  have hcap := h.captureUnpublished a
  refine andThen_keeps hcap fun changed _ => ?_
  split
  · exact hcap.persist written
  · exact hcap

lemma World.Good.perform {w : World Limits} (h : w.Good) (rules : LimitRules Limits)
    (op : Operation Limits) : (perform rules w op).Good := by
  cases op with
  | capture a written => exact h.captureLocked a written
  | enrol e =>
    simp only [Accounts.perform, Accounts.enrol]
    split
    · exact h
    next id hid =>
    split
    · exact h
    obtain ⟨hsound, hmem⟩ := enrolledState_sound h.memory rules id e
    have hput : (w.put (enrolledState rules w.state id e)).Good :=
      h.put hsound (EpochStep.of_same rfl rfl)
    refine andThen_keeps (hput.persist _) fun _ hok => ?_
    split
    · refine (hput.persist _).activateLocked rules ?_ _
      rw [World.persist]
      split <;> exact hmem
    · exact hput.persist _
  | activate id a captureWritten activation answers =>
    have hcap := h.captureLocked a captureWritten
    refine andThen_keeps hcap fun _ _ => ?_
    split
    · exact hcap
    · exact hcap
    next hrequired =>
    have hmem : id ∈ (Accounts.captureLocked a captureWritten w).1.state.persisted.profiles.map
        AccountProfile.id := by
      rw [activationRequired] at hrequired
      split at hrequired
      · exact absurd hrequired (by simp)
      · next p hp => exact (mem_of_find hp).2 ▸ mem_map_of_mem (mem_of_find hp).1
    have hact := hcap.activateLocked rules hmem activation
    refine andThen_keeps hact fun _ _ => ?_
    have hrec := hact.reconcile rules none answers
    exact andThen_keeps hrec fun _ _ => hrec
  | update id enabled priority written =>
    simp only [Accounts.perform, updateProfile]
    split
    · exact h
    · exact (h.put (updatedState_sound h.memory _ _ _) (EpochStep.of_same rfl rfl)).persist _
  | remove id credentialsRemoved written =>
    simp only [Accounts.perform, removeProfile]
    split
    · exact h
    next hacti =>
    split
    · next hlen =>
      have hsame : w.state.persisted.profiles.filter (fun p => decide (p.id ≠ id)) =
          w.state.persisted.profiles := filter_eq_self.mpr (length_filter_eq_length_iff.mp hlen)
      simp only [hsame]
      exact h.put h.memory (EpochStep.of_same rfl rfl)
    have hput := h.put (removedState_sound h.memory hacti) (EpochStep.of_same rfl rfl)
    split
    · exact hput.persist written
    · exact hput
  | refresh a results observedAt written answers =>
    have hcap := h.captureUnpublished a
    have hall : (refreshAll rules a results observedAt written w).1.Good := by
      refine andThen_keeps hcap fun _ _ => ?_
      obtain ⟨hsound, hacti⟩ := refreshedPool_sound hcap.memory rules results observedAt
      dsimp only
      split
      · exact hcap
      let s : RuntimeState Limits :=
        { persisted := (refreshedPool rules results observedAt
            (Accounts.captureUnpublished a w).1.state.persisted).1
          accountEpoch := (Accounts.captureUnpublished a w).1.state.accountEpoch }
      have hput := @World.Good.put _ _ hcap s hsound (EpochStep.of_same rfl hacti)
      exact andThen_keeps (hput.persist written) fun _ _ => hput.persist written
    refine andThen_keeps hall fun recovered _ => ?_
    have hrec := hall.reconcile rules recovered answers
    exact andThen_keeps hrec fun _ _ => hrec
  | rateLimits update observedAt written answers =>
    simp only [Accounts.perform, applyRateLimitUpdate]
    split
    · exact h
    next update =>
    split
    · exact h
    next p hp =>
    obtain ⟨id, -, hfind⟩ := bind_eq_some_iff.mp hp
    have hkeys := keys_modify_found hfind (applyObservation_key rules p {}
      (some (rules.merge p.rateLimits update)) true observedAt)
    have hput := h.put (s := ⟨_, _⟩) (h.memory.congr hkeys) (EpochStep.of_same rfl rfl)
    split
    · exact hput
    · refine andThen_keeps (hput.persist written) fun _ _ => ?_
      have hrec := (hput.persist written).reconcile rules none answers
      exact andThen_keeps hrec fun _ _ => hrec
  | prepare a captureWritten answers =>
    have hcap := h.captureLocked a captureWritten
    refine andThen_keeps hcap fun _ _ => ?_
    have hrec := hcap.reconcile rules none answers
    refine andThen_keeps hrec fun selected _ => ?_
    split <;> exact hrec
  | restart =>
  refine { memory := ?_, file := h.file, epoch := rfl }
  rcases hdisk : w.disk with _ | pool
  · simpa [Accounts.perform, World.restart, hdisk] using Sound.empty
  · simpa [Accounts.perform, World.restart, hdisk] using h.file pool hdisk

/-- The pool in memory is the one that a restart would load. -/
def World.Stored (w : World Limits) : Prop := w.state.persisted = w.disk.getD {}

def Capture.Changes (a : Capture) (s : RuntimeState Limits) (id : String) : Prop :=
  (capturedState s id a.now).persisted ≠ s.persisted

/-- No write or removal of the operation fails, and a refresh with changed credentials learns
something new. -/
def Operation.Stores (rules : LimitRules Limits) (w : World Limits) : Operation Limits → Prop
  | .capture _ written => written = true
  | .enrol e => e.written = true ∧ e.activation.written = true
  | .activate _ _ captureWritten activation answers =>
    captureWritten = true ∧ activation.written = true ∧ ∀ i, (answers i).activation.written = true
  | .update _ _ _ written => written = true
  | .remove _ credentialsRemoved written => credentialsRemoved = true ∧ written = true
  | .refresh a results observedAt written answers =>
    written = true ∧ (∀ i, (answers i).activation.written = true) ∧
      ∀ id, a.auth = .profile id → a.credentialsWritten = true → a.Changes w.state id →
        (refreshedPool rules results observedAt (capturedState w.state id a.now).persisted).1 ≠
          (capturedState w.state id a.now).persisted
  | .rateLimits _ _ written answers => written = true ∧ ∀ i, (answers i).activation.written = true
  | .prepare _ captureWritten answers =>
    captureWritten = true ∧ ∀ i, (answers i).activation.written = true
  | .restart => True

section Stored

variable {w : World Limits}

omit [DecidableEq Limits] in
lemma stored_of_written (w : World Limits) {written : Bool} (h : written = true) :
    (w.persist written).1.Stored := by
  subst h
  rfl

omit [DecidableEq Limits] in
lemma World.Stored.activateLocked (h : w.Stored) (rules : LimitRules Limits) (id : String)
    {a : Activation Limits} (ha : a.written = true) : (activateLocked rules id a w).1.Stored := by
  rw [Accounts.activateLocked]
  split
  · exact h
  split
  · exact h
  split
  · exact h
  · split
    · exact h
    · exact stored_of_written _ ha

omit [DecidableEq Limits] in
lemma World.Stored.reconcile (h : w.Stored) (rules : LimitRules Limits)
    (recoveredProfileId : Option String) {answers : Nat → Attempt Limits}
    (ha : ∀ i, (answers i).activation.written = true) :
    (reconcile rules recoveredProfileId answers w).1.Stored :=
  reconcile_keeps (fun _ id attempt hw _ => hw.activateLocked rules id (ha attempt))
    recoveredProfileId h

lemma World.Stored.captureUnpublished (h : w.Stored) {a : Capture}
    (hsame : (captureUnpublished a w).2 ≠ .ok true) : (captureUnpublished a w).1.Stored := by
  rw [Accounts.captureUnpublished] at hsame ⊢
  split
  · exact h
  · exact h
  · exact h
  next id hid =>
  simp only [hid] at hsame
  split
  · next hwr =>
    simp only [hwr, if_true] at hsame
    have hpool : (capturedState w.state id a.now).persisted = w.state.persisted := by
      by_contra hne
      exact hsame (by rw [decide_eq_true hne])
    exact hpool.trans h
  · exact h

lemma World.Stored.captureLocked (h : w.Stored) (a : Capture) {written : Bool}
    (hwr : written = true) : (captureLocked a written w).1.Stored := by
  refine andThen_ends (fun e he => ?_) fun changed hok => ?_
  · exact h.captureUnpublished (by rw [he]; simp)
  · cases changed with
    | true => exact stored_of_written _ hwr
    | false => exact h.captureUnpublished (by rw [hok]; simp)

lemma World.Stored.perform (h : w.Stored) (rules : LimitRules Limits) {op : Operation Limits}
    (hop : op.Stores rules w) : (perform rules w op).Stored := by
  cases op with
  | capture a written => exact h.captureLocked a hop
  | enrol e =>
    simp only [Accounts.perform, Accounts.enrol]
    split
    · exact h
    split
    · exact h
    have hput := stored_of_written (w.put (enrolledState rules w.state ‹_› e)) hop.1
    refine andThen_keeps hput fun _ _ => ?_
    split
    · exact hput.activateLocked rules _ hop.2
    · exact hput
  | activate id a captureWritten activation answers =>
    obtain ⟨hcapture, hactivation, hans⟩ := hop
    have hcap := h.captureLocked a hcapture
    refine andThen_keeps hcap fun _ _ => ?_
    split
    · exact hcap
    · exact hcap
    have hact := hcap.activateLocked rules id hactivation
    refine andThen_keeps hact fun _ _ => ?_
    have hrec := hact.reconcile rules none hans
    exact andThen_keeps hrec fun _ _ => hrec
  | update id enabled priority written =>
    simp only [Accounts.perform, updateProfile]
    split
    · exact h
    · exact stored_of_written _ hop
  | remove id credentialsRemoved written =>
    simp only [Accounts.perform, removeProfile]
    split
    · exact h
    split
    · next hlen =>
      have hsame : w.state.persisted.profiles.filter (fun p => decide (p.id ≠ id)) =
          w.state.persisted.profiles :=
        filter_eq_self.mpr (length_filter_eq_length_iff.mp hlen)
      simp only [hsame]
      exact h
    · rw [if_pos hop.1]
      exact stored_of_written _ hop.2
  | refresh a results observedAt written answers =>
    obtain ⟨hwr, hans, hlearns⟩ := hop
    have hall : (refreshAll rules a results observedAt written w).1.Stored := by
      refine andThen_ends (fun e he => ?_) fun changed hok => ?_
      · exact h.captureUnpublished (by rw [he]; simp)
      dsimp only
      split
      · next hnothing =>
        -- nothing is written, so the capture changed nothing
        refine h.captureUnpublished fun hchg => ?_
        rw [Accounts.captureUnpublished] at hchg hnothing
        split at hchg
        · exact absurd hchg (by simp)
        · exact absurd hchg (by simp)
        · exact absurd hchg (by simp)
        next id hid =>
        simp only [hid] at hnothing
        split at hchg
        · next hcred =>
          simp only [hcred, if_true] at hnothing
          have hne : a.Changes w.state id :=
            @of_decide_eq_true _ (_) (Except.ok.inj hchg)
          exact hlearns id hid hcred hne hnothing
        · exact absurd hchg (by simp)
      · exact andThen_keeps (stored_of_written _ hwr) fun _ _ => stored_of_written _ hwr
    refine andThen_keeps hall fun recovered _ => ?_
    have hrec := hall.reconcile rules recovered hans
    exact andThen_keeps hrec fun _ _ => hrec
  | rateLimits update observedAt written answers =>
    obtain ⟨hwr, hans⟩ := hop
    simp only [Accounts.perform, applyRateLimitUpdate]
    split
    · exact h
    next update =>
    split
    · exact h
    next p hp =>
    split
    · next hsame =>
      have hkeep : modifyProfile p.id (fun _ => p) w.state.persisted.profiles =
          w.state.persisted.profiles := by
        obtain ⟨id, -, hfind⟩ := bind_eq_some_iff.mp hp
        exact modify_found_self hfind
      rw [hsame, hkeep]
      exact h
    · refine andThen_keeps (stored_of_written _ hwr) fun _ _ => ?_
      refine andThen_keeps ?_ fun _ _ => ?_
      all_goals exact (stored_of_written _ hwr).reconcile rules none hans
  | prepare a captureWritten answers =>
    obtain ⟨hcapture, hans⟩ := hop
    have hcap := h.captureLocked a hcapture
    refine andThen_keeps hcap fun _ _ => ?_
    have hrec := hcap.reconcile rules none hans
    refine andThen_keeps hrec fun selected _ => ?_
    split <;> exact hrec
  | restart => exact rfl

end Stored

structure World.Consistent (w : World Limits) : Prop where
  ids : (w.state.persisted.profiles.map AccountProfile.id).Nodup
  single : ∀ p ∈ w.state.persisted.profiles, ∀ q ∈ w.state.persisted.profiles,
    p.active = true → q.active = true → p = q
  active : ∀ p ∈ w.state.persisted.profiles,
    p.active = true ↔ w.state.persisted.activeProfileId = some p.id
  priorities : w.state.persisted.profiles.Pairwise fun p q => p.priority ≤ q.priority
  epoch : w.state.accountEpoch = w.activeChanges % 2 ^ 64

omit [DecidableEq Limits] in
lemma World.Good.consistent {w : World Limits} (h : w.Good) : w.Consistent where
  ids := h.memory.marked.ids
  active := fun p hp => by rw [h.memory.marked.active p hp, decide_eq_true_eq]
  single := fun p hp q hq hpa hqa => by
    rw [h.memory.marked.active p hp, decide_eq_true_eq] at hpa
    rw [h.memory.marked.active q hq, decide_eq_true_eq] at hqa
    exact inj_on_of_nodup_map h.memory.marked.ids hp hq (some.inj (hpa.symm.trans hqa))
  priorities := h.memory.numbered.pairwise
  epoch := h.epoch

/-- Every run leaves a consistent pool, and one that writes what it changes leaves the same in the
file. -/
theorem pool_of_run (rules : LimitRules Limits) (operations : List (Operation Limits)) :
    (exec (perform rules) {} operations).Consistent ∧
      (Always (perform rules) (fun w op => op.Stores rules w) {} operations →
        (exec (perform rules) {} operations).Stored) := by
  constructor
  · have hgood : World.Good ({} : World Limits) :=
      { memory := Sound.empty, file := fun pool h => absurd h (some_ne_none _).symm, epoch := rfl }
    exact (exec_invariant (fun w op hw => hw.perform rules op) hgood operations).consistent
  · intro hrun
    have hsto : World.Stored ({} : World Limits) := rfl
    exact exec_invariant_of_always (fun w op hw hop => hw.perform rules hop) hsto hrun

end Operations

def noLimits : LimitRules Unit where
  normalize := id
  blocking := fun _ => .available
  merge := fun _ update => update

def smoothActivation : Activation Unit where
  credentialsRead := true
  authRead := true
  loggedIn := true
  authWritten := true
  observation := .ok ({}, ())
  observedAt := 1
  usedAt := 1
  written := true

def removal (removed : Bool) : List (Operation Unit) :=
  [.capture { auth := .profile "a", credentialsWritten := true, now := 1 } true,
   .enrol { profileId := some "b", credentialsWritten := true, result := {}, rateSnapshot := none,
            observedAt := 1, written := true, activation := smoothActivation },
   .remove "b" removed true]

/-- A removal that fails at the credential file takes the profile out of the pool in memory only. -/
theorem failed_removal_not_stored : ¬ (exec (perform noLimits) {} (removal false)).Stored := by
  have hmemo : (exec (perform noLimits) {} (removal false)).state.persisted.profiles.length = 1 := by
    decide
  have hfile : ((exec (perform noLimits) {} (removal false)).disk.getD {}).profiles.length = 2 := by
    decide
  intro hsto
  rw [World.Stored] at hsto
  rw [hsto, hfile] at hmemo
  exact absurd hmemo (by decide)

/-- The removal that succeeds. -/
theorem removal_stored :
    (exec (perform noLimits) {} (removal true)).state.persisted.profiles.length = 1 ∧
      (exec (perform noLimits) {} (removal true)).Stored :=
  ⟨by decide, (pool_of_run noLimits (removal true)).2 ⟨rfl, ⟨rfl, rfl⟩, ⟨rfl, rfl⟩, trivial⟩⟩

end CodeWide.Accounts
