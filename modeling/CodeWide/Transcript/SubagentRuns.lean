import CodeWide.Lib.Run
import CodeWide.Lib.Table
import CodeWide.Lib.Text
import CodeWide.Transcript.Items

/-!
# The runs of sub-agents

A run is started by the spawning call or by a message that resumes the agent, and a report ends it;
the last status is kept by the call that is named and by the agent.
-/

namespace CodeWide.Transcript

open Lib List Table

def agentThreadSeparator : List Char := ":agent:".toList

/-- The agent id of a child thread id. -/
def agentIdOf (agentThreadId : String) : Option String := do
  let (agentId, parent) ←
    Text.splitOnce agentThreadSeparator.reverse agentThreadId.toList.reverse
  if agentId = [] then none
  else (parseId (String.ofList parent.reverse)).map fun _ => String.ofList agentId.reverse

structure SubagentRuns where
  byAgent : Table String SubagentStatus
  byToolUse : Table String SubagentStatus
  /-- The resuming call and the agent id of every resume. -/
  resumes : List (String × String)

namespace SubagentRuns

def record (runs : SubagentRuns) (report : TaskReport) : SubagentRuns :=
  match notifiedStatus report.status with
  | none => runs
  | some status =>
    { runs with
      byAgent := runs.byAgent.insert report.taskId status
      byToolUse := report.toolUseId.elim runs.byToolUse fun toolUseId =>
        runs.byToolUse.insert toolUseId status }

def recordResume (runs : SubagentRuns) (toolUseId agentId : String) : SubagentRuns :=
  { runs with resumes := runs.resumes ++ [(toolUseId, agentId)] }

def resumed (runs : SubagentRuns) (agentId : String) : Bool :=
  runs.resumes.any fun resume => resume.2 = agentId && !runs.byToolUse.contains resume.1

def apply (runs : SubagentRuns) (itemId : String) (item : SubagentItem) : SubagentItem :=
  let agentId := item.agentThreadId.bind agentIdOf
  if agentId.any runs.resumed then withStatus item .running
  else if item.status ≠ .running then item
  else
    match (runs.byToolUse.get? itemId).or (agentId.bind runs.byAgent.get?) with
    | some status => withStatus item status
    | none => item

end SubagentRuns

/-! ## What was recorded -/

inductive RunRecord where
  | report (report : TaskReport)
  | resume (toolUseId agentId : String)

def SubagentRuns.step (runs : SubagentRuns) : RunRecord → SubagentRuns
  | .report report => runs.record report
  | .resume toolUseId agentId => runs.recordResume toolUseId agentId

def runsOf (log : List RunRecord) : SubagentRuns := exec SubagentRuns.step ⟨∅, ∅, []⟩ log

def RunRecord.statusBy (names : TaskReport → Bool) : RunRecord → Option SubagentStatus
  | .report r => if names r then notifiedStatus r.status else none
  | .resume .. => none

/-- The last final status in the reports that `names` picks. -/
def reported (names : TaskReport → Bool) (log : List RunRecord) : Option SubagentStatus :=
  log.reverse.findSome? (RunRecord.statusBy names)

def namesCall (toolUseId : String) (report : TaskReport) : Bool := report.toolUseId = some toolUseId

def namesAgent (agentId : String) (report : TaskReport) : Bool := report.taskId = agentId

/-- The calls that resumed the agent, in order. -/
def resumesOf (agentId : String) (log : List RunRecord) : List String :=
  log.filterMap fun
    | .resume toolUseId agent => if agent = agentId then some toolUseId else none
    | .report _ => none

variable {log : List RunRecord} {itemId agentId : String} {item : SubagentItem}

lemma reported_concat (names : TaskReport → Bool) (log : List RunRecord) (r : RunRecord) :
    reported names (log ++ [r]) = (r.statusBy names).or (reported names log) := by
  rw [reported, reverse_concat, findSome?_cons]
  cases r.statusBy names <;> rfl

lemma runsOf_concat (log : List RunRecord) (r : RunRecord) :
    runsOf (log ++ [r]) = (runsOf log).step r :=
  exec_append _ log [r]

open SubagentRuns

lemma byToolUse_runsOf (log : List RunRecord) (toolUseId : String) :
    (runsOf log).byToolUse.get? toolUseId = reported (namesCall toolUseId) log := by
  induction log using reverseRecOn with
  | nil => rfl
  | append_singleton log r ih =>
  rw [runsOf_concat, reported_concat, ← ih]
  cases r with
  | resume => rfl
  | report report =>
  rw [step, record, RunRecord.statusBy, namesCall]
  cases notifiedStatus report.status with
  | none => rw [ite_self, Option.none_or]
  | some status =>
  cases report.toolUseId with
  | none => rfl
  | some call =>
    simp only [Option.elim_some, get?_insert]
    by_cases hcall : toolUseId = call
    · simp [hcall]
    · simp [hcall, Ne.symm hcall]

lemma byAgent_runsOf (log : List RunRecord) (agentId : String) :
    (runsOf log).byAgent.get? agentId = reported (namesAgent agentId) log := by
  induction log using reverseRecOn with
  | nil => rfl
  | append_singleton log r ih =>
  rw [runsOf_concat, reported_concat, ← ih]
  cases r with
  | resume => rfl
  | report report =>
  rw [step, record, RunRecord.statusBy, namesAgent]
  cases notifiedStatus report.status with
  | none => rw [ite_self, Option.none_or]
  | some status =>
    rw [get?_insert]
    by_cases hagent : agentId = report.taskId
    · simp [hagent]
    · simp [hagent, Ne.symm hagent]

lemma mem_resumes_runsOf {resume : String × String} :
    resume ∈ (runsOf log).resumes ↔ resume.1 ∈ resumesOf resume.2 log := by
  induction log using reverseRecOn with
  | nil => exact iff_of_false not_mem_nil not_mem_nil
  | append_singleton log r ih =>
  rw [runsOf_concat, resumesOf, filterMap_append, mem_append, ← resumesOf, ← ih]
  cases r with
  | report report =>
    rw [step, record]
    split <;> simp
  | resume call agent =>
    rw [step, recordResume, mem_append, mem_singleton, Prod.ext_iff]
    by_cases hagent : agent = resume.2
    · simp [hagent]
    · simp [hagent, Ne.symm hagent]

lemma resumed_iff : (runsOf log).resumed agentId = true ↔
    ∃ call ∈ resumesOf agentId log, reported (namesCall call) log = none := by
  unfold resumed
  simp only [any_eq_true, Bool.and_eq_true, decide_eq_true_eq, Bool.not_eq_true', Table.contains,
    Option.isSome_eq_false_iff, Option.isNone_iff_eq_none, byToolUse_runsOf, mem_resumes_runsOf]
  constructor
  · rintro ⟨resume, hmem, rfl, hnone⟩
    exact ⟨resume.1, hmem, hnone⟩
  · rintro ⟨call, hmem, hnone⟩
    exact ⟨(call, agentId), hmem, rfl, hnone⟩

lemma reported_ne_running (names : TaskReport → Bool) (log : List RunRecord) :
    reported names log ≠ some .running := by
  intro h
  obtain ⟨r, -, h⟩ := exists_of_findSome?_eq_some h
  unfold RunRecord.statusBy at h
  split at h
  · split at h
    · unfold notifiedStatus at h
      split at h <;> cases h
    · cases h
  · cases h

/-! ## The latest run of an item's agent -/

/-- The calls that resumed the item's agent. -/
def itemResumes (log : List RunRecord) (item : SubagentItem) : List String :=
  (item.agentThreadId.bind agentIdOf).elim [] fun agentId => resumesOf agentId log

/-- The final status of the run the item's call started: as a report names that call, or else the
agent. -/
def spawnedStatus (log : List RunRecord) (itemId : String) (item : SubagentItem) :
    Option SubagentStatus :=
  (reported (namesCall itemId) log).or
    ((item.agentThreadId.bind agentIdOf).bind fun agentId => reported (namesAgent agentId) log)

/-- The final status of the agent's latest run. -/
def latestStatus (log : List RunRecord) (itemId : String) (item : SubagentItem) :
    Option SubagentStatus :=
  match (itemResumes log item).getLast? with
  | some call => reported (namesCall call) log
  | none => spawnedStatus log itemId item

def Unreported (log : List RunRecord) (item : SubagentItem) : Prop :=
  ∃ call ∈ itemResumes log item, reported (namesCall call) log = none

/-- The item shows its agent's latest run. -/
def ShowsLatest (log : List RunRecord) (itemId : String) (item shown : SubagentItem) : Prop :=
  (Unreported log item → shown = withStatus item .running) ∧
  (¬ Unreported log item →
    shown = withStatus item ((latestStatus log itemId item).getD item.status))

/-- What is read for the item is what the latest run was reported to end with: of a running item
its call's report, of another one its own status. -/
def LatestRead (log : List RunRecord) (itemId : String) (item : SubagentItem) : Prop :=
  Unreported log item ∨
    if item.status = .running then spawnedStatus log itemId item = latestStatus log itemId item
    else latestStatus log itemId item = none ∨ latestStatus log itemId item = some item.status

lemma any_resumed_iff : (item.agentThreadId.bind agentIdOf).any (runsOf log).resumed = true ↔
    Unreported log item := by
  unfold Unreported itemResumes
  cases item.agentThreadId.bind agentIdOf with
  | none => exact iff_of_false Bool.false_ne_true fun ⟨_, h, _⟩ => absurd h not_mem_nil
  | some agentId => exact resumed_iff

lemma apply_of_reported (h : ¬ Unreported log item) : (runsOf log).apply itemId item =
    withStatus item (if item.status = .running
      then (spawnedStatus log itemId item).getD item.status else item.status) := by
  unfold apply
  rw [if_neg (fun hany => h (any_resumed_iff.mp hany))]
  by_cases hrun : item.status = .running
  · have hread : ((runsOf log).byToolUse.get? itemId).or ((item.agentThreadId.bind agentIdOf).bind
        (runsOf log).byAgent.get?) = spawnedStatus log itemId item := by
      rw [spawnedStatus, byToolUse_runsOf]
      exact congrArg _ (congrArg _ (funext fun agentId => byAgent_runsOf log agentId))
    rw [if_neg (not_not.mpr hrun), if_pos hrun]
    simp only [hread]
    cases spawnedStatus log itemId item <;> rfl
  · rw [if_pos hrun, if_neg hrun]
    rfl

lemma latestStatus_ne_running : latestStatus log itemId item ≠ some .running ∧
    spawnedStatus log itemId item ≠ some .running := by
  have hspawned : spawnedStatus log itemId item ≠ some .running := by
    intro h
    rcases Option.or_eq_some_iff.mp h with h | ⟨-, h⟩
    · exact reported_ne_running _ _ h
    · obtain ⟨agentId, -, h⟩ := Option.bind_eq_some_iff.mp h
      exact reported_ne_running _ _ h
  refine ⟨?_, hspawned⟩
  unfold latestStatus
  split
  · exact reported_ne_running _ _
  · exact hspawned

lemma withStatus_inj {status other : SubagentStatus} :
    withStatus item status = withStatus item other ↔ status = other :=
  ⟨fun h => congrArg SubagentItem.status h, fun h => by rw [h]⟩

/-- A status other than running is known from its absence. -/
lemma getD_running_inj {a b : Option SubagentStatus} (ha : a ≠ some .running)
    (hb : b ≠ some .running) : a.getD .running = b.getD .running ↔ a = b := by
  refine ⟨fun h => ?_, fun h => by rw [h]⟩
  cases a <;> cases b
  · rfl
  · exact absurd (congrArg some h.symm) hb
  · exact absurd (congrArg some h) ha
  · exact congrArg some h

/-- An item shows its agent's latest run exactly when what is read for it is that run's status. -/
theorem apply_showsLatest_iff (log : List RunRecord) (itemId : String) (item : SubagentItem) :
    ShowsLatest log itemId item ((runsOf log).apply itemId item) ↔ LatestRead log itemId item := by
  unfold ShowsLatest LatestRead
  by_cases hopen : Unreported log item
  · refine iff_of_true ⟨fun _ => ?_, fun h => absurd hopen h⟩ (.inl hopen)
    unfold apply
    rw [if_pos (any_resumed_iff.mpr hopen)]
  rw [apply_of_reported hopen]
  simp only [withStatus_inj, hopen, false_or, not_false_eq_true, true_implies, false_implies,
    true_and]
  obtain ⟨hlat, hspawned⟩ := @latestStatus_ne_running log itemId item
  by_cases hrun : item.status = .running
  · rw [if_pos hrun, if_pos hrun, hrun]
    exact getD_running_inj hspawned hlat
  · rw [if_neg hrun, if_neg hrun]
    cases latestStatus log itemId item with
    | none => exact iff_of_true rfl (.inl rfl)
    | some status =>
      exact ⟨fun h => .inr (congrArg some h.symm), fun h => h.elim (fun h => by cases h) fun h =>
        (Option.some.inj h).symm⟩

def finishedAgent : SubagentItem :=
  ⟨some "s:agent:a", none, false, "", none, "", none, .completed⟩

def failedResume : List RunRecord :=
  [.resume "m" "a", .report ⟨"a", some "m", some "failed", none, none, none, none, none⟩]

/-- The agent's second run has failed, and its item still shows that the first has completed. -/
theorem failedResume_not_shown :
    ¬ ShowsLatest failedResume "i" finishedAgent
      ((runsOf failedResume).apply "i" finishedAgent) := by
  intro h
  have hshown := h.2 (by simp [Unreported, itemResumes, failedResume, finishedAgent]; decide)
  exact absurd (congrArg SubagentItem.status hshown) (by decide +kernel)

end CodeWide.Transcript
