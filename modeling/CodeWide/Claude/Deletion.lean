import CodeWide.Claude.Lifecycle

/-!
# Deleting a thread

The calls of the thread service for one thread id, step by step, beside the thread's session
actor.
-/

namespace CodeWide.Claude

open Lib

/-! ## What a session keeps through its turns -/

namespace Session

variable {env : Surroundings} {s : Session}

def tag (s : Session) : Bool × Presence := (s.disposed, s.presence)

lemma tag_of_turns {t : Session} (h : t.turns = s.turns) : t.tag = s.tag :=
  Prod.ext (congrArg TurnView.disposed h) (congrArg TurnView.presence h)

lemma tag_answer (s : Session) (requestId : String) (reply : Reply) :
    (s.answer requestId reply).tag = s.tag := tag_of_turns (turns_answer s requestId reply)

lemma tag_closeQuery (s : Session) : s.closeQuery.tag = s.tag := tag_of_turns (turns_closeQuery s)

lemma tag_applyPendingSettings (s : Session) : s.applyPendingSettings.tag = s.tag :=
  tag_of_turns (turns_applyPendingSettings s)

lemma tag_ensureQuery (env : Surroundings) (s : Session) : (s.ensureQuery env).tag = s.tag :=
  tag_of_turns (turns_ensureQuery env s)

lemma tag_updateSettings (s : Session) (next : ThreadSettings) :
    (s.updateSettings next).tag = s.tag := tag_of_turns (turns_updateSettings s next)

lemma tag_finishTurn (env : Surroundings) (s : Session) (outcome : TurnOutcome) :
    (s.finishTurn env outcome).tag = s.tag := by
  cases hacti : s.active with
  | none =>
    unfold finishTurn
    rw [hacti]
  | some active =>
    have hturns := turns_finishTurn env hacti outcome
    exact Prod.ext (congrArg TurnView.disposed hturns) (congrArg TurnView.presence hturns)

lemma tag_emitItems (s : Session) (items : List String) : (s.emitItems items).tag = s.tag := by
  unfold emitItems
  split <;> rfl

lemma tag_activeOrWake (env : Surroundings) (s : Session) : (s.activeOrWake env).tag = s.tag := by
  unfold activeOrWake
  split <;> rfl

lemma tag_startTurn (env : Surroundings) (s : Session) (user : Bool) :
    (s.startTurn env user).1.tag = s.tag := by
  cases hacti : s.active with
  | some active =>
    unfold startTurn
    rw [hacti]
  | none =>
  rw [startTurn_of_idle hacti]
  have hready : (s.applyPendingSettings.reopenForClientTools env).tag = s.tag :=
    (tag_of_turns (turns_reopenForClientTools env _)).trans (tag_applyPendingSettings s)
  generalize s.applyPendingSettings.reopenForClientTools env = ready at hready
  have hopen := (tag_ensureQuery env
    (({ ready with uuids := ready.uuids + 1 } : Session).beginTurn env ready.uuids user true))
  simp only
  split
  · exact ((tag_finishTurn env _ _).trans hopen).trans hready
  · exact hopen.trans hready

lemma tag_steer (s : Session) (expected : Uuid) : (s.steer env expected).tag = s.tag := by
  unfold steer
  split
  · split
    · exact tag_emitItems _ _
    · rfl
  · rfl

lemma tag_requestInterrupt (s : Session) (runningCommand : Bool) :
    (s.requestInterrupt env runningCommand).tag = s.tag := by
  unfold requestInterrupt
  have hcanc : s.cancelToolCalls.tag = s.tag := tag_of_turns (turns_cancelToolCalls s)
  generalize s.cancelToolCalls = cancelled at hcanc
  simp only
  split
  · exact hcanc
  · split
    · exact (tag_finishTurn env _ _).trans hcanc
    · exact hcanc

lemma tag_interrupt (s : Session) (turnId : Option Uuid) (runningCommand : Bool) :
    (s.interrupt env turnId runningCommand).tag = s.tag := by
  unfold interrupt
  split
  · rfl
  · split
    · exact tag_requestInterrupt s runningCommand
    · rfl

lemma tag_onInterruptTimeout (s : Session) : (s.onInterruptTimeout env).tag = s.tag := by
  unfold onInterruptTimeout
  split
  · rfl
  · split
    · exact (tag_finishTurn env _ _).trans (tag_closeQuery _)
    · rfl

lemma tag_onResult (s : Session) (frame : ResultFrame) : (s.onResult env frame).tag = s.tag := by
  unfold onResult
  split
  · rfl
  split
  · unfold replaceLostSession
    split
    · rfl
    split
    · exact (tag_finishTurn env _ _).trans (tag_closeQuery s)
    · next active hacti _ =>
      exact tag_closeQuery ({ s with active := some { active with
        sessionReplacements := active.sessionReplacements + 1 } } : Session)
  · split
    · rfl
    · exact tag_finishTurn env s _

lemma tag_offerReplacement (s : Session) (turnId : Uuid) :
    (s.offerReplacement env turnId).tag = s.tag := by
  unfold offerReplacement
  split
  · rfl
  simp only
  split
  · rfl
  · split
    · exact tag_ensureQuery env _
    · rfl

lemma tag_startTool (s : Session) (request : ToolRequest) :
    (s.startTool env request).tag = s.tag := by
  unfold startTool
  split
  · rfl
  · exact tag_emitItems s _

lemma tag_openRequest (s : Session) (request : ToolRequest) (kind : PendingKind) :
    (s.openRequest env request kind).tag = s.tag := by
  unfold openRequest
  have hwoken := tag_activeOrWake env s
  generalize s.activeOrWake env = woken at hwoken
  simp only
  split
  · exact (tag_answer woken _ _).trans hwoken
  · exact hwoken

lemma tag_askApproval (s : Session) (request : ToolRequest) :
    (s.askApproval env request).tag = s.tag := by
  unfold askApproval
  simp only
  split
  · exact tag_answer s _ _
  · split
    · exact (tag_answer _ _ _).trans (tag_startTool s request)
    · exact (tag_openRequest _ request _).trans (tag_startTool s request)

lemma tag_canUseTool (s : Session) (request : ToolRequest) :
    (s.canUseTool env request).tag = s.tag := by
  unfold canUseTool
  have hwoken : (if request.subagent then s else s.activeOrWake env).tag = s.tag := by
    split
    · rfl
    · exact tag_activeOrWake env s
  generalize (if request.subagent then s else s.activeOrWake env) = woken at hwoken
  rw [← hwoken]
  simp only
  split
  · exact tag_answer woken _ _
  split
  · exact ((tag_answer _ _ _).trans (tag_startTool _ request)).trans (tag_activeOrWake env woken)
  split
  · exact (tag_answer _ _ _).trans (tag_startTool woken request)
  · exact tag_openRequest woken request _
  · exact tag_askApproval woken request
  · exact tag_askApproval woken request

lemma tag_callClientTool (s : Session) (requestId : String) (openItems : List String) :
    (s.callClientTool requestId openItems).tag = s.tag := by
  unfold callClientTool
  split
  · exact tag_answer s _ _
  have hclaim : (s.claim openItems).2.tag = s.tag := by
    unfold claim
    split <;> rfl
  generalize s.claim openItems = pair at hclaim
  obtain ⟨callId, claimed⟩ := pair
  exact hclaim

lemma tag_onMcpMessage (s : Session) (requestId serverName : String) (message : McpMessage) :
    (s.onMcpMessage requestId serverName message).tag = s.tag := by
  unfold onMcpMessage
  split
  · exact tag_answer s _ _
  split
  · split
    · exact tag_callClientTool s _ _
    · exact tag_answer s _ _
  · exact tag_answer s _ _

lemma tag_onQueryEvent (s : Session) (event : QueryEvent) :
    (s.onQueryEvent env event).tag = s.tag := by
  cases event with
  | backgroundTasks count =>
    unfold onQueryEvent onBackgroundTasks
    simp only
    split
    · exact tag_applyPendingSettings ({ s with backgroundTasks := count } : Session)
    · rfl
  | task => exact tag_emitItems s _
  | content topLevel =>
    unfold onQueryEvent onContent
    simp only
    split
    · exact (tag_emitItems _ _).trans (tag_activeOrWake env s)
    · rfl
  | result frame => exact tag_onResult s frame
  | canUseTool request => exact tag_canUseTool s request
  | namesNoToolUse requestId | otherRequest requestId subtype => exact tag_answer s _ _
  | mcpMessage requestId serverName message => exact tag_onMcpMessage s _ _ _
  | cancelled requestId =>
    unfold onQueryEvent onRequestCancelled
    simp only
    split
    · rfl
    · split <;> rfl
  | exited outcome =>
  unfold onQueryEvent onQueryEnded
  simp only
  split
  · rfl
  · split
    · rfl
    · exact tag_finishTurn env ({ s with query := none, generation := s.generation + 1 } : Session) _

def Act.ofActor : Act → Bool
  | .startTurn _ | .updateSettings _ | .edit _ | .dispose => false
  | _ => true

lemma tag_step (s : Session) {act : Act} (hact : Act.ofActor act = true) :
    (s.step (env, act)).tag = s.tag := by
  cases act with
  | startTurn user | updateSettings next | edit presence | dispose => cases hact
  | steer expected => exact tag_steer s expected
  | interrupt turnId runningCommand => exact tag_interrupt s turnId runningCommand
  | respond key response =>
    unfold step respond
    simp only
    split
    · rfl
    · exact tag_answer _ _ _
  | query event =>
    rw [step]
    split
    · rfl
    · exact tag_onQueryEvent s event
  | toolCallDone callId requestId success text =>
    unfold step onToolCallDone
    simp only
    split
    · exact tag_answer _ _ _
    · rfl
  | modeChangeFailed generation =>
    unfold step onModeChangeFailed
    simp only
    split
    · exact tag_applyPendingSettings ({ s with queryModeOutdated := true } : Session)
    · rfl
  | historyLines turnId =>
    rw [step]
    split
    · exact tag_offerReplacement ({ s with histories := s.histories.erase turnId } : Session) turnId
    · rfl
  | interruptTimeout => exact tag_onInterruptTimeout s
  | idleTimer deferred =>
  rw [step, onIdleTimer]
  split
  · rfl
  · split
    · rfl
    · exact tag_closeQuery s

/-! ## A session with neither a turn nor a query -/

def Quiet (s : Session) : Prop := s.active = none ∧ s.query = none

instance (s : Session) : Decidable s.Quiet := inferInstanceAs (Decidable (_ ∧ _))

lemma Quiet.of_turns (h : s.Quiet) {t : Session} (hturns : t.turns = s.turns)
    (hquery : t.query = none) : t.Quiet :=
  ⟨(congrArg TurnView.active hturns).trans h.1, hquery⟩

lemma quiet_applyPendingSettings (h : s.Quiet) : s.applyPendingSettings.Quiet :=
  h.of_turns (turns_applyPendingSettings s) (query_applyPendingSettings_of_none h.2)

lemma quiet_updateSettings (h : s.Quiet) (next : ThreadSettings) :
    (s.updateSettings next).Quiet := by
  unfold updateSettings
  split
  · exact h
  · have hpend : ({ s with pendingSettings := some next } : Session).Quiet := h
    exact quiet_applyPendingSettings (hpend.of_turns (turns_switchPermissionsLive _)
      ((query_switchPermissionsLive _).trans hpend.2))

lemma quiet_step (h : s.Quiet) {act : Act} (hact : Act.ofActor act = true) :
    (s.step (env, act)).Quiet := by
  obtain ⟨hacti, hquery⟩ := h
  cases act with
  | startTurn user | updateSettings next | edit presence | dispose => cases hact
  | steer expected =>
    rw [step, steer, hquery]
    exact ⟨hacti, hquery⟩
  | interrupt turnId runningCommand =>
    rw [step, interrupt, hacti]
    exact ⟨hacti, hquery⟩
  | respond key response =>
    unfold step respond
    simp only
    split
    · exact ⟨hacti, hquery⟩
    · exact ⟨(congrArg TurnView.active (turns_answer _ _ _)).trans hacti,
        (query_answer _ _ _).trans hquery⟩
  | query event =>
    rw [step, if_pos hquery]
    exact ⟨hacti, hquery⟩
  | toolCallDone callId requestId success text =>
    unfold step onToolCallDone
    simp only
    split
    · exact ⟨(congrArg TurnView.active (turns_answer _ _ _)).trans hacti,
        (query_answer _ _ _).trans hquery⟩
    · exact ⟨hacti, hquery⟩
  | modeChangeFailed generation =>
    unfold step onModeChangeFailed
    simp only
    split
    · have houtdated : ({ s with queryModeOutdated := true } : Session).Quiet := ⟨hacti, hquery⟩
      exact quiet_applyPendingSettings houtdated
    · exact ⟨hacti, hquery⟩
  | historyLines turnId =>
    rw [step]
    split
    · rw [offerReplacement]
      split
      · exact ⟨hacti, hquery⟩
      · simp only [hacti]
        exact ⟨rfl, hquery⟩
    · exact ⟨hacti, hquery⟩
  | interruptTimeout =>
    rw [step, onInterruptTimeout, hacti]
    exact ⟨hacti, hquery⟩
  | idleTimer deferred =>
    rw [step, onIdleTimer, if_pos (.inr (.inr hquery))]
    exact ⟨hacti, hquery⟩

lemma quiet_dispose (env : Surroundings) (s : Session) : (s.dispose env).Quiet := by
  unfold dispose
  simp only
  split
  · next active hacti =>
    have hcl : ({ s with
        disposed := true, active := some { active with interruptRequested := true } } :
        Session).closeQuery.active = some { active with interruptRequested := true } :=
      congrArg TurnView.active (turns_closeQuery _)
    have hfin := congrArg TurnView.active (turns_finishTurn env hcl .interrupted)
    exact ⟨(congrArg TurnView.active (turns_closeQuery _)).trans hfin, query_closeQuery _⟩
  · next hacti =>
    exact ⟨(congrArg TurnView.active (turns_closeQuery _)).trans hacti, query_closeQuery _⟩

lemma tag_dispose (env : Surroundings) (s : Session) : (s.dispose env).tag = (true, s.presence) := by
  unfold dispose
  simp only
  split
  · exact ((tag_closeQuery _).trans (tag_finishTurn env _ _)).trans (tag_closeQuery _)
  · exact tag_closeQuery _

end Session

def Presence.isDeleted : Presence → Bool
  | .deleted _ => true
  | .listed _ => false

def Presence.isArchived : Presence → Bool
  | .listed archived => archived
  | .deleted _ => false

/-! ## The service's calls -/

inductive Call where
  | create
  | fork
  | forkFrom
  | rename
  | archive (archived : Bool)
  | settings (next : ThreadSettings)
  | turnStart (user : Bool)
  | delete (deletedAt : Int)
  deriving DecidableEq

inductive Reached where
  | ok
  | notFound
  | failed
  deriving DecidableEq

inductive Pc where
  | resolving (call : Call)
  /-- The registry has no such thread: Claude's store is read. -/
  | refreshing (call : Call)
  | adopting (call : Call)
  | adding
  | holding (call : Call)
  | editing (archived : Bool)
  | disposing (deletedAt : Int)
  | marking (deletedAt : Int)
  | answered (call : Call) (reached : Reached)
  deriving DecidableEq

structure Service where
  session : Option Session
  calls : Table Nat Pc

inductive Move where
  | begin (n : Nat) (call : Call)
  | go (n : Nat) (env : Surroundings) (settings : ThreadSettings) (found proceed : Bool)
  | actor (env : Surroundings) (act : Act)

namespace Service

/-- The thread is shown to clients: by its metadata, else as a session of Claude's store. -/
def visible (s : Service) (found : Bool) : Bool :=
  match s.session with
  | some a => !a.presence.isDeleted
  | none => found

def put (s : Service) (n : Nat) (pc : Pc) : Service := { s with calls := s.calls.insert n pc }

def become (s : Service) (session : Session) : Service := { s with session := some session }

/-- What a session that is registered already answers a create or a fork. -/
def existing (a : Session) : Reached := if a.presence.isDeleted then .notFound else .ok

def adoptedPresence : Call → Presence
  | .delete deletedAt => .deleted deletedAt
  | _ => .listed false

def afterLookup (a : Session) (call : Call) : Pc :=
  match call with
  | .delete _ => .holding call
  | _ => if a.presence.isDeleted then .answered call .notFound else .holding call

def resolve (s : Service) (n : Nat) (settings : ThreadSettings) (proceed : Bool) (call : Call) :
    Service :=
  match call, s.session with
  | .create, some a => s.put n (.answered call (existing a))
  | .create, none => (s.become (.spawn (.listed false) settings)).put n (.answered call .ok)
  | .fork, some a => s.put n (.answered call (existing a))
  | .fork, none => s.put n (if proceed then .adding else .answered call .failed)
  | _, some a => s.put n (afterLookup a call)
  | _, none => s.put n (if proceed then .refreshing call else .answered call .notFound)

/-- `adopt`: under the lock, so that the session of another call that came first is found. -/
def adopt (s : Service) (n : Nat) (settings : ThreadSettings) (call : Call) : Service :=
  match s.session with
  | some _ => s.put n (.holding call)
  | none => (s.become (.spawn (adoptedPresence call) settings)).put n (.holding call)

def act (s : Service) (n : Nat) (env : Surroundings) (proceed : Bool) (a : Session) (call : Call) :
    Service :=
  match call with
  | .archive archived =>
    if a.presence.isArchived ≠ archived then s.put n (.editing archived)
    else s.put n (.answered call .ok)
  | .settings next =>
    if proceed then (s.become (a.updateSettings next)).put n (.answered call .ok)
    else s.put n (.answered call .failed)
  | .turnStart user =>
    if proceed then (s.become (a.startTurn env user).1).put n (.answered call .ok)
    else s.put n (.answered call .failed)
  | .delete deletedAt =>
    if a.presence.isDeleted then s.put n (.answered call .ok) else s.put n (.disposing deletedAt)
  | _ => s.put n (.answered call .ok)

def go (s : Service) (n : Nat) (env : Surroundings) (settings : ThreadSettings)
    (found proceed : Bool) : Service :=
  match s.calls.get? n, s.session with
  | some (.resolving call), _ => s.resolve n settings proceed call
  | some (.refreshing call), _ =>
    s.put n (if found then .adopting call else .answered call .notFound)
  | some (.adopting call), _ =>
    -- a rename in Claude's store adopts nothing
    if call = .rename ∧ proceed = false then s.put n (.answered call .ok)
    else s.adopt n settings call
  | some .adding, some a => s.put n (.answered .fork (existing a))
  | some .adding, none => (s.become (.spawn (.listed false) settings)).put n (.answered .fork .ok)
  | some (.holding call), some a => s.act n env proceed a call
  | some (.editing archived), some a =>
    (s.become (a.step (env, .edit (.listed archived)))).put n (.answered (.archive archived) .ok)
  | some (.disposing deletedAt), some a =>
    (s.become (a.step (env, .dispose))).put n (.marking deletedAt)
  | some (.marking deletedAt), some a =>
    (s.become (a.step (env, .edit (.deleted deletedAt)))).put n (.answered (.delete deletedAt) .ok)
  | _, _ => s

def step (s : Service) : Move → Service
  | .begin n call => if s.calls.contains n then s else s.put n (.resolving call)
  | .go n env settings found proceed => s.go n env settings found proceed
  | .actor env act =>
    match s.session with
    | some a => if Session.Act.ofActor act then s.become (a.step (env, act)) else s
    | none => s

def start (metadata : Option (Presence × ThreadSettings)) : Service :=
  ⟨metadata.map fun entry => .spawn entry.1 entry.2, ∅⟩

def Meets (s : Service) : Move → Prop
  | .go n _ _ _ proceed =>
    match s.calls.get? n, s.session with
    | some (.editing _), some a => a.presence.isDeleted = false
    | some (.holding (.turnStart _)), some a =>
      proceed = true → a.disposed = false ∧ a.presence.isDeleted = false
    | _, _ => True
  | _ => True

/-! ## What a deletion leaves behind -/

/-- A session that a deletion has come to. -/
def Ended (a : Session) : Prop := a.disposed = true ∨ a.presence.isDeleted = true

def Keeps (old new : Option Session) : Prop :=
  ∀ a, old = some a → ∃ b, new = some b ∧ (a.disposed = true → b.disposed = true) ∧
    (a.presence.isDeleted = true → b.presence.isDeleted = true)

def Says (session : Option Session) : Pc → Prop
  | .marking _ => ∃ a, session = some a ∧ a.disposed = true
  | .answered (.delete _) .ok => ∃ a, session = some a ∧ a.presence.isDeleted = true
  | _ => True

structure Inv (s : Service) : Prop where
  quiet : ∀ a, s.session = some a → Ended a → a.Quiet
  said : ∀ n pc, s.calls.get? n = some pc → Says s.session pc

variable {s : Service}

variable {session : Option Session}

lemma Keeps.of_none : Keeps none session :=
  fun _ ha => (by cases ha)

lemma Keeps.of_tag {a b : Session} (h : b.tag = a.tag) : Keeps (some a) (some b) := by
  intro c hc
  cases hc
  obtain ⟨hdisp, hpresence⟩ := Prod.mk.inj h
  exact ⟨b, rfl, fun ha => hdisp.trans ha,
    fun ha => (congrArg Presence.isDeleted hpresence).trans ha⟩

lemma Says.mono {old new : Option Session} (hkeeps : Keeps old new) {pc : Pc}
    (h : Says old pc) : Says new pc := by
  unfold Says at h
  split at h
  · obtain ⟨a, ha, hdisp⟩ := h
    obtain ⟨b, hb, hkept, -⟩ := hkeeps a ha
    exact ⟨b, hb, hkept hdisp⟩
  · obtain ⟨a, ha, hdel⟩ := h
    obtain ⟨b, hb, -, hkept⟩ := hkeeps a ha
    exact ⟨b, hb, hkept hdel⟩
  next hmarking hdel =>
  unfold Says
  split
  · next deletedAt => exact (hmarking deletedAt rfl).elim
  · next deletedAt => exact (hdel deletedAt rfl).elim
  · trivial

lemma Inv.put (h : Inv s) (n : Nat) {pc : Pc} (hpc : Says s.session pc) : Inv (s.put n pc) where
  quiet := h.quiet
  said := by
    intro k held hheld
    rw [Service.put, Table.get?_insert] at hheld
    split at hheld
    · cases hheld
      exact hpc
    · exact h.said k held hheld

variable {a : Session}

lemma Inv.become (h : Inv s) (hkeeps : Keeps s.session (some a))
    (hquiet : Ended a → a.Quiet) : Inv (s.become a) where
  quiet := by
    intro b hb
    cases hb
    exact hquiet
  said := fun n pc hpc => (h.said n pc hpc).mono hkeeps

lemma Inv.become_of_tag (h : Inv s) {a b : Session} (ha : s.session = some a)
    (htag : b.tag = a.tag) (hquiet : a.Quiet → b.Quiet) : Inv (s.become b) := by
  refine h.become (ha ▸ Keeps.of_tag htag) fun hended => hquiet (h.quiet a ha ?_)
  obtain ⟨hdisp, hpresence⟩ := Prod.mk.inj htag
  exact hended.imp hdisp.symm.trans (congrArg Presence.isDeleted hpresence).symm.trans

lemma Inv.adopted (h : Inv s) (hsess : s.session = none) (presence : Presence)
    (settings : ThreadSettings) : Inv (s.become (.spawn presence settings)) :=
  h.become (hsess ▸ Keeps.of_none) fun _ => ⟨rfl, rfl⟩

lemma inv_start (metadata : Option (Presence × ThreadSettings)) : Inv (start metadata) where
  quiet := by
    intro a ha _
    obtain ⟨entry, -, rfl⟩ := Option.map_eq_some_iff.mp ha
    exact ⟨rfl, rfl⟩
  said := fun n pc hpc => by cases hpc

variable {call : Call}

lemma says_answered (reached : Reached)
    (h : ∀ deletedAt, call ≠ .delete deletedAt) : Says session (.answered call reached) := by
  cases call with
  | delete deletedAt => exact absurd rfl (h deletedAt)
  | _ => trivial

lemma says_notFound (call : Call) : Says session (.answered call .notFound) := by
  cases call <;> trivial

lemma inv_resolve (h : Inv s) (n : Nat) (settings : ThreadSettings) (proceed : Bool)
    (call : Call) : Inv (s.resolve n settings proceed call) := by
  unfold resolve
  split
  · exact h.put n trivial
  · next hsess => exact (h.adopted hsess _ _).put n trivial
  · exact h.put n trivial
  · refine h.put n ?_
    split <;> trivial
  · next a _ _ _ =>
    refine h.put n ?_
    unfold afterLookup
    split
    · trivial
    next hcall =>
    split
    · exact says_answered _ hcall
    · trivial
  refine h.put n ?_
  split
  · trivial
  · exact says_notFound _

lemma inv_adopt (h : Inv s) (n : Nat) (settings : ThreadSettings) (call : Call) :
    Inv (s.adopt n settings call) := by
  unfold adopt
  split
  · exact h.put n trivial
  · next hsess => exact (h.adopted hsess _ _).put n trivial

lemma inv_act (h : Inv s) {n : Nat} {env : Surroundings} {proceed : Bool} (ha : s.session = some a)
    (hstarts : ∀ user, call = .turnStart user → proceed = true →
      a.disposed = false ∧ a.presence.isDeleted = false) : Inv (s.act n env proceed a call) := by
  cases call with
  | archive archived =>
    unfold act
    simp only
    split <;> exact h.put n trivial
  | settings next =>
    unfold act
    simp only
    split
    · exact (h.become_of_tag ha (Session.tag_updateSettings a next)
        fun hquiet => Session.quiet_updateSettings hquiet next).put n trivial
    · exact h.put n trivial
  | turnStart user =>
    unfold act
    simp only
    split
    · next hproceed =>
      obtain ⟨hdisp, hdel⟩ := hstarts user rfl hproceed
      have htag := Session.tag_startTurn env a user
      obtain ⟨hdisp', hpresence'⟩ := Prod.mk.inj htag
      refine (h.become (ha ▸ Keeps.of_tag htag) ?_).put n trivial
      rintro (hended | hended)
      · exact absurd (hdisp'.symm.trans hended) (by simp [hdisp])
      · exact absurd ((congrArg Presence.isDeleted hpresence').symm.trans hended) (by simp [hdel])
    · exact h.put n trivial
  | delete deletedAt =>
    unfold act
    simp only
    split
    · next hdel => exact h.put n ⟨a, ha, hdel⟩
    · exact h.put n trivial
  | create | fork | forkFrom | rename => exact h.put n trivial

lemma inv_go (h : Inv s) {n : Nat} {env : Surroundings} {settings : ThreadSettings}
    {found proceed : Bool} (hmeets : Meets s (.go n env settings found proceed)) :
    Inv (s.go n env settings found proceed) := by
  unfold go
  split
  · exact inv_resolve h n settings proceed _
  · refine h.put n ?_
    split
    · trivial
    · exact says_notFound _
  · split
    · next hcall => exact h.put n (says_answered _ fun deletedAt heq => (by simp [heq] at hcall))
    · exact inv_adopt h n settings _
  · exact h.put n trivial
  · next hsess => exact (h.adopted hsess _ _).put n trivial
  · next call a hcall ha =>
    refine inv_act h ha fun user hstart hproceed => ?_
    subst hstart
    simp only [Meets, hcall, ha] at hmeets
    exact hmeets hproceed
  · next archived a hcall ha =>
    simp only [Meets, hcall, ha] at hmeets
    refine (h.become ?_ ?_).put n trivial
    · intro c hc
      cases ha.symm.trans hc
      exact ⟨_, rfl, id, fun hdel => absurd hdel (by simp [hmeets])⟩
    · rintro (hended | hended)
      · exact h.quiet a ha (.inl hended)
      · cases hended
  · next deletedAt a hcall ha =>
    have htag := Session.tag_dispose env a
    have hdisp : (a.step (env, .dispose)).disposed = true := congrArg Prod.fst htag
    refine (h.become ?_ fun _ => Session.quiet_dispose env a).put n ⟨_, rfl, hdisp⟩
    intro c hc
    cases ha.symm.trans hc
    exact ⟨_, rfl, fun _ => hdisp,
      fun hdel => (congrArg (fun t => Presence.isDeleted t.2) htag).trans hdel⟩
  · next deletedAt a hcall ha =>
    obtain ⟨b, hb, hdisp⟩ := h.said n _ hcall
    cases ha.symm.trans hb
    have hkept : Inv (s.become (a.step (env, .edit (.deleted deletedAt)))) := by
      refine h.become ?_ fun _ => h.quiet a ha (.inl hdisp)
      intro c hc
      cases ha.symm.trans hc
      exact ⟨_, rfl, id, fun _ => rfl⟩
    exact hkept.put n ⟨_, rfl, rfl⟩
  · exact h

lemma inv_step (h : Inv s) {move : Move} (hmeets : Meets s move) : Inv (s.step move) := by
  cases move with
  | begin n call =>
    unfold step
    simp only
    split
    · exact h
    · exact h.put n trivial
  | go n env settings found proceed => exact inv_go h hmeets
  | actor env act =>
  unfold step
  simp only
  split
  · next a ha =>
    split
    · next hact =>
      exact h.become_of_tag ha (Session.tag_step a hact)
        fun hquiet => Session.quiet_step hquiet hact
    · exact h
  · exact h

/-! ## Finality -/

lemma answered_step (s : Service) (move : Move) {n : Nat} {reached : Reached}
    (h : s.calls.get? n = some (.answered call reached)) :
    (s.step move).calls.get? n = some (.answered call reached) := by
  have hput (t : Service) (ht : t.calls = s.calls) {k : Nat} (pc : Pc) (hk : k ≠ n) :
      (t.put k pc).calls.get? n = some (.answered call reached) := by
    rw [put, Table.get?_insert_of_ne _ _ hk.symm, ht, h]
  cases move with
  | begin k called =>
    unfold step
    simp only
    split
    · exact h
    next hcalled =>
    refine hput s rfl _ fun heq => hcalled ?_
    rw [Table.contains, heq, h]
    rfl
  | go k env settings found proceed =>
    by_cases hk : k = n
    · subst hk
      have hgo : s.go k env settings found proceed = s := by
        unfold go
        rw [h]
      exact (congrArg (fun t => t.calls.get? k) hgo).trans h
    unfold step go
    simp only
    split
    · unfold resolve
      split <;> exact hput _ rfl _ hk
    · exact hput _ rfl _ hk
    · split
      · exact hput _ rfl _ hk
      · unfold adopt
        split <;> exact hput _ rfl _ hk
    · exact hput _ rfl _ hk
    · exact hput _ rfl _ hk
    · unfold act
      split <;> first | exact hput _ rfl _ hk | split <;> exact hput _ rfl _ hk
    · exact hput _ rfl _ hk
    · exact hput _ rfl _ hk
    · exact hput _ rfl _ hk
    · exact h
  | actor env act =>
  unfold step
  simp only
  split
  · split <;> exact h
  · exact h

lemma resolve_of_deleted (ha : s.session = some a)
    (hdel : a.presence.isDeleted = true) (n : Nat) (settings : ThreadSettings)
    (proceed : Bool) (hcall : ∀ deletedAt, call ≠ .delete deletedAt) :
    (s.resolve n settings proceed call).calls.get? n = some (.answered call .notFound) := by
  cases call with
  | delete deletedAt => exact absurd rfl (hcall deletedAt)
  | _ => simp [resolve, ha, put, existing, afterLookup, hdel]

/-- A deleted thread stays deleted, without a turn or a query, and its calls answer not found. -/
theorem deletion_is_final (metadata : Option (Presence × ThreadSettings)) (run : List Move)
    (h : Always step Meets (start metadata) run) (before after : List Move)
    (hsplit : before ++ after = run) (n : Nat) (deletedAt : Int)
    (hreturned : (exec step (start metadata) before).calls.get? n =
      some (.answered (.delete deletedAt) .ok)) :
    ∃ a, (exec step (start metadata) run).session = some a ∧ a.presence.isDeleted = true ∧
      a.active = none ∧ a.query = none ∧
      (∀ found, (exec step (start metadata) run).visible found = false) ∧
      ∀ k env settings found proceed call, (∀ deletedAt, call ≠ .delete deletedAt) →
        (exec step (start metadata) run).calls.get? k = some (.resolving call) →
        ((exec step (start metadata) run).step (.go k env settings found proceed)).calls.get? k =
          some (.answered call .notFound) := by
  have hinv : Inv (exec step (start metadata) run) :=
    exec_invariant_of_always (P := Inv) (fun _ _ hs hmeets => inv_step hs hmeets)
      (inv_start metadata) h
  have hlater : (exec step (start metadata) run).calls.get? n =
      some (.answered (.delete deletedAt) .ok) := by
    rw [← hsplit, exec_append]
    exact exec_invariant
      (P := fun t : Service => t.calls.get? n = some (.answered (.delete deletedAt) .ok))
      (fun t move ht => answered_step t move ht) hreturned after
  generalize exec step (start metadata) run = s at hinv hlater
  obtain ⟨a, ha, hdel⟩ := hinv.said n _ hlater
  obtain ⟨hacti, hquery⟩ := hinv.quiet a ha (.inr hdel)
  refine ⟨a, ha, hdel, hacti, hquery, ?_, ?_⟩
  · intro found
    rw [visible, ha]
    simp only [hdel, Bool.not_true]
  · intro k env settings found proceed call hcall hres
    rw [step, go, hres]
    exact resolve_of_deleted ha hdel k settings proceed hcall

def deletion : List Move :=
  let go : Move := .go 1 (Session.surroundings true) Session.workspaceSettings true true
  [.begin 1 (.delete 9), go, go, go, go]

def around (call : Call) (steps : Nat) : List Move :=
  let go : Move := .go 0 (Session.surroundings true) Session.workspaceSettings true true
  .begin 0 call :: List.replicate steps go ++ deletion ++ [go]

def listed : Option (Presence × ThreadSettings) := some (.listed false, Session.workspaceSettings)

theorem deletion_is_final_of_created :
    ∃ a, (exec step (start none) (around .create 1)).session = some a ∧
      a.presence.isDeleted = true := by
  have hmeets : Always step Meets (start none) (around .create 1) :=
    ⟨trivial, trivial, trivial, trivial, trivial, trivial, trivial, trivial, trivial⟩
  obtain ⟨a, ha, hdel, -⟩ := deletion_is_final none (around .create 1) hmeets
    (around .create 1) [] (List.append_nil _) 1 9 (by decide)
  exact ⟨a, ha, hdel⟩

/-- An archive that looked at the thread before its deletion lists it again afterwards. -/
theorem deleted_thread_comes_back :
    ((exec step (start listed) (around (.archive true) 2)).calls.get? 1 =
        some (.answered (.delete 9) .ok) ∧
      (exec step (start listed) (around (.archive true) 2)).visible false = true) ∧
    ((exec step (start listed) (around (.turnStart true) 1)).calls.get? 1 =
        some (.answered (.delete 9) .ok) ∧
      (exec step (start listed) (around (.turnStart true) 1)).session.map (·.presence) =
        some (.deleted 9) ∧
      (exec step (start listed) (around (.turnStart true) 1)).session.map (·.query) =
        some (some ⟨1⟩)) := by
  refine ⟨⟨by decide, by decide⟩, by decide, by decide, by decide⟩

end Service

end CodeWide.Claude
