import CodeWide.Claude.Session
import Mathlib.Data.Finset.Insert
import Mathlib.Data.Finset.Basic

/-!
# The life of a turn

A turn begins with its `turn.started`, its items and requests come while it runs, and
`turn.completed` ends it, once and with no request left open.
-/

namespace CodeWide.Claude

open Lib List Table

/-- What a client knows after some events. -/
structure Following where
  active : Option Uuid
  waiting : Finset String
  begun : List Uuid

namespace Following

def start : Following := ⟨none, ∅, []⟩

def follow (m : Following) : Event → Option Following
  | .turnStarted turnId =>
    if m.active = none ∧ turnId ∉ m.begun then some ⟨some turnId, ∅, turnId :: m.begun⟩ else none
  | .item turnId _ => if m.active = some turnId then some m else none
  | .requestOpened turnId requestId =>
    if m.active = some turnId ∧ requestId ∉ m.waiting then
      some { m with waiting := insert requestId m.waiting }
    else none
  | .requestResolved requestId _ =>
    if requestId ∈ m.waiting then some { m with waiting := m.waiting.erase requestId } else none
  | .turnCompleted turnId _ =>
    if m.active = some turnId ∧ m.waiting = ∅ then some { m with active := none } else none

def followAll (m : Following) (events : List Event) : Option Following := events.foldlM follow m

variable {m : Following}

lemma followAll_append (first second : List Event) :
    m.followAll (first ++ second) = (m.followAll first).bind (fun after => after.followAll second) :=
  foldlM_append

variable {turnId : Uuid}

lemma followAll_items (h : m.active = some turnId) (items : List String) :
    m.followAll (items.map (Event.item turnId)) = some m := by
  induction items with
  | nil => rfl
  | cons item rest ih =>
  rw [followAll] at ih ⊢
  rw [map_cons, foldlM_cons, follow, if_pos h]
  exact ih

lemma followAll_started (hact : m.active = none) (hnew : turnId ∉ m.begun) (items : List String) :
    m.followAll (.turnStarted turnId :: items.map (Event.item turnId)) =
      some ⟨some turnId, ∅, turnId :: m.begun⟩ := by
  rw [followAll, foldlM_cons, follow, if_pos ⟨hact, hnew⟩]
  exact followAll_items rfl items

lemma followAll_resolved {keys : List String} (hkeys : keys.Nodup)
    (hwait : ∀ key, key ∈ m.waiting ↔ key ∈ keys) (reason : RequestResolution) :
    m.followAll (keys.map (fun key => Event.requestResolved key reason)) =
      some { m with waiting := ∅ } := by
  induction keys generalizing m with
  | nil =>
    have hempty : m.waiting = ∅ :=
      Finset.eq_empty_of_forall_notMem (fun key hkey => not_mem_nil ((hwait key).mp hkey))
    rw [← hempty]
    rfl
  | cons key rest ih =>
  rw [nodup_cons] at hkeys
  rw [followAll, map_cons, foldlM_cons, follow, if_pos ((hwait key).mpr mem_cons_self)]
  refine ih (m := { m with waiting := m.waiting.erase key }) hkeys.2 (fun other => ?_)
  rw [Finset.mem_erase, hwait, mem_cons]
  constructor
  · rintro ⟨hne, heq | hmem⟩
    · exact absurd heq hne
    · exact hmem
  · intro hmem
    exact ⟨fun heq => hkeys.1 (heq ▸ hmem), .inr hmem⟩

lemma followAll_completed (hact : m.active = some turnId)
    (hwait : m.waiting = ∅) (items : List String) (outcome : TurnOutcome) :
    m.followAll (items.map (Event.item turnId) ++ [.turnCompleted turnId outcome]) =
      some { m with active := none } := by
  rw [followAll_append, followAll_items hact]
  show (follow m (.turnCompleted turnId outcome)).bind _ = _
  rw [follow, if_pos ⟨hact, hwait⟩]
  rfl

lemma active_mem_begun {events : List Event} {after : Following}
    (h : ∀ turnId, m.active = some turnId → turnId ∈ m.begun)
    (hfollow : m.followAll events = some after) :
    ∀ turnId, after.active = some turnId → turnId ∈ after.begun := by
  induction events generalizing m with
  | nil =>
    cases hfollow
    exact h
  | cons event rest ih =>
  rw [followAll, foldlM_cons] at hfollow
  obtain ⟨next, hnext, hrest⟩ := Option.bind_eq_some_iff.mp hfollow
  refine ih (fun turnId hact => ?_) hrest
  cases event with
  | turnStarted id =>
    rw [follow] at hnext
    split at hnext
    · cases hnext
      cases hact
      exact mem_cons_self
    · cases hnext
  | item id item | requestOpened id key | requestResolved key reason =>
    rw [follow] at hnext
    split at hnext
    · cases hnext
      exact h turnId hact
    · cases hnext
  | turnCompleted id outcome =>
  rw [follow] at hnext
  split at hnext
  · cases hnext
    cases hact
  · cases hnext

end Following

/-! ## What the turns are made of -/

/-- The part of a session that its events speak about, and what outlives its turns. -/
structure TurnView where
  outputs : List Event
  active : Option ActiveTurn
  pending : Table String PendingRequest
  uuids : Nat
  disposed : Bool
  histories : List Uuid
  presence : Presence

namespace Session

variable {env : Surroundings} {s : Session}

def turns (s : Session) : TurnView :=
  ⟨s.outputs, s.active, s.pending, s.uuids, s.disposed, s.histories, s.presence⟩

lemma turns_answer (s : Session) (requestId : String) (reply : Reply) :
    (s.answer requestId reply).turns = s.turns := by
  unfold answer
  split <;> rfl

lemma turns_closeQuery (s : Session) : s.closeQuery.turns = s.turns := by
  unfold closeQuery
  split <;> rfl

lemma query_closeQuery (s : Session) : s.closeQuery.query = none := by
  unfold closeQuery
  split
  · rfl
  · next h => exact h

lemma turns_ensureQuery (env : Surroundings) (s : Session) :
    (s.ensureQuery env).turns = s.turns := by
  unfold ensureQuery
  split
  · rfl
  · split <;> rfl

lemma turns_applyPendingSettings (s : Session) : s.applyPendingSettings.turns = s.turns := by
  unfold applyPendingSettings
  split
  · rfl
  · split
    · exact turns_closeQuery s
    · exact turns_closeQuery s

lemma query_applyPendingSettings_of_none (h : s.query = none) :
    s.applyPendingSettings.query = none := by
  unfold applyPendingSettings
  split
  · exact h
  · split
    · exact query_closeQuery s
    · exact query_closeQuery s

variable {active : ActiveTurn}

lemma query_applyPendingSettings_of_active (h : s.active = some active) :
    s.applyPendingSettings = s := by
  unfold applyPendingSettings
  rw [if_pos (.inr (.inl (by rw [h]; exact Option.some_ne_none active)))]

lemma turns_switchPermissionsLive (s : Session) : s.switchPermissionsLive.turns = s.turns := by
  unfold switchPermissionsLive
  split
  · rfl
  · split
    · rfl
    · split <;> rfl

lemma query_switchPermissionsLive (s : Session) : s.switchPermissionsLive.query = s.query := by
  unfold switchPermissionsLive
  split
  · rfl
  · split
    · rfl
    · split <;> rfl

lemma turns_updateSettings (s : Session) (next : ThreadSettings) :
    (s.updateSettings next).turns = s.turns := by
  unfold updateSettings
  split
  · rfl
  · rw [turns_applyPendingSettings, turns_switchPermissionsLive]
    rfl

lemma turns_reopenForClientTools (env : Surroundings) (s : Session) :
    (s.reopenForClientTools env).turns = s.turns := by
  unfold reopenForClientTools
  split
  · rfl
  · exact turns_closeQuery s

lemma turns_cancelEach (s : Session) (running : List (CallId × String)) :
    (s.cancelEach running).turns = s.turns := by
  induction running generalizing s with
  | nil => rfl
  | cons entry rest ih => rw [cancelEach, ih, turns_answer]

lemma turns_cancelToolCalls (s : Session) : s.cancelToolCalls.turns = s.turns :=
  turns_cancelEach _ _

lemma query_answer (s : Session) (requestId : String) (reply : Reply) :
    (s.answer requestId reply).query = s.query := by
  unfold answer
  split <;> rfl

lemma query_cancelEach (s : Session) (running : List (CallId × String)) :
    (s.cancelEach running).query = s.query := by
  induction running generalizing s with
  | nil => rfl
  | cons entry rest ih => rw [cancelEach, ih, query_answer]

lemma query_cancelToolCalls (s : Session) : s.cancelToolCalls.query = s.query :=
  query_cancelEach _ _

lemma turns_emit (s : Session) (events : List Event) :
    (s.emit events).turns = { s.turns with outputs := s.turns.outputs ++ events } := rfl

lemma turns_resolveEach (s : Session) (reason : RequestResolution)
    (entries : List (String × PendingRequest)) :
    (resolveEach reason s entries).turns = { s.turns with
        outputs := s.outputs ++
          (entries.map Prod.fst).map (fun key => Event.requestResolved key reason) } := by
  induction entries generalizing s with
  | nil =>
    rw [resolveEach, map_nil, map_nil, append_nil]
    rfl
  | cons entry rest ih =>
  obtain ⟨key, request⟩ := entry
  rw [resolveEach, ih]
  have hans := turns_answer (s.resolveRequest key reason) request.claudeRequestId cancelledDecision
  have houtputs : ((s.resolveRequest key reason).answer request.claudeRequestId
      cancelledDecision).outputs = s.outputs ++ [.requestResolved key reason] :=
    congrArg TurnView.outputs hans
  rw [hans, houtputs, append_assoc]
  rfl

lemma query_resolveEach (s : Session) (reason : RequestResolution)
    (entries : List (String × PendingRequest)) :
    (resolveEach reason s entries).query = s.query := by
  induction entries generalizing s with
  | nil => rfl
  | cons entry rest ih =>
    rw [resolveEach, ih, query_answer]
    rfl

lemma turns_resolveAllPending (s : Session) (reason : RequestResolution) :
    (s.resolveAllPending reason).turns = { s.turns with
        outputs := s.turns.outputs ++
          (s.turns.pending.entries.map Prod.fst).map (fun key => Event.requestResolved key reason)
        pending := ∅ } := by
  unfold resolveAllPending
  rw [turns_resolveEach]
  rfl

def endEvents (env : Surroundings) (s : Session) (active : ActiveTurn) (outcome : TurnOutcome) :
    List Event :=
  (s.pending.entries.map Prod.fst).map (fun key => Event.requestResolved key
      (if outcome = .interrupted then .cancelled else .turnEnded)) ++
    (env.closed.map (Event.item active.turnId) ++ [.turnCompleted active.turnId outcome])

lemma turns_finishTurn (env : Surroundings) (h : s.active = some active) (outcome : TurnOutcome) :
    (s.finishTurn env outcome).turns = { s.turns with
        outputs := s.outputs ++ s.endEvents env active outcome
        active := none
        pending := ∅ } := by
  unfold finishTurn
  rw [h]
  simp only
  have hcl : ∀ t : Session, (if active.releaseAfter then t.closeQuery else t).turns = t.turns := by
    intro t
    split
    · exact turns_closeQuery t
    · rfl
  have hres : (({ s with active := none } : Session).cancelToolCalls.resolveAllPending
      (if outcome = .interrupted then .cancelled else .turnEnded)).turns =
      { s.turns with
        outputs := s.outputs ++ (s.pending.entries.map Prod.fst).map (fun key =>
          Event.requestResolved key (if outcome = .interrupted then .cancelled else .turnEnded))
        active := none
        pending := ∅ } := by
    rw [turns_resolveAllPending, turns_cancelToolCalls]
    rfl
  rw [turns_applyPendingSettings, hcl, turns_emit, hres]
  simp only [append_assoc, endEvents]

lemma query_finishTurn_of_none (h : s.active = some active)
    (hquery : s.query = none) (outcome : TurnOutcome) :
    (s.finishTurn env outcome).query = none := by
  unfold finishTurn
  rw [h]
  simp only
  apply query_applyPendingSettings_of_none
  have hended : (({ s with active := none } : Session).cancelToolCalls.resolveAllPending
      (if outcome = .interrupted then .cancelled else .turnEnded)).query = none := by
    unfold resolveAllPending
    rw [query_resolveEach]
    exact (query_cancelToolCalls _).trans hquery
  split
  · exact query_closeQuery _
  · exact hended

/-! ## Followed to the active turn -/

structure Follows (v : TurnView) (m : Following) : Prop where
  followed : Following.start.followAll v.outputs = some m
  active : m.active = v.active.map ActiveTurn.turnId
  waiting : ∀ key, key ∈ m.waiting ↔ (v.pending.get? key).isSome
  begun : ∀ turnId ∈ m.begun, turnId < v.uuids
  idle : v.active = none → m.waiting = ∅

variable {m : Following}

open Following

lemma Follows.append {v w : TurnView} (h : Follows v m) {events : List Event} {after : Following}
    (hevs : m.followAll events = some after) (houtputs : w.outputs = v.outputs ++ events)
    (hact : after.active = w.active.map ActiveTurn.turnId)
    (hwait : ∀ key, key ∈ after.waiting ↔ (w.pending.get? key).isSome)
    (hbegun : ∀ turnId ∈ after.begun, turnId < w.uuids)
    (hidle : w.active = none → after.waiting = ∅) : Follows w after where
  followed := by
    rw [houtputs, followAll_append, h.followed]
    exact hevs
  active := hact
  waiting := hwait
  begun := hbegun
  idle := hidle

/-- Nothing that the events speak about has changed, but for the ids that have been drawn. -/
lemma Follows.of_eq {v w : TurnView} (h : Follows v m) (houtputs : w.outputs = v.outputs)
    (hact : w.active.map ActiveTurn.turnId = v.active.map ActiveTurn.turnId)
    (hpend : w.pending = v.pending) (huuids : v.uuids ≤ w.uuids) : Follows w m where
  followed := houtputs ▸ h.followed
  active := h.active.trans hact.symm
  waiting := hpend ▸ h.waiting
  begun turnId hmem := Nat.lt_of_lt_of_le (h.begun turnId hmem) huuids
  idle hnone := h.idle (by
    rw [hnone] at hact
    exact Option.map_eq_none_iff.mp hact.symm)

variable {v : TurnView}

section

variable (h : Follows v m)
include h

lemma follows_items (hact : v.active = some active) (items : List String) :
    Follows { v with outputs := v.outputs ++ items.map (Event.item active.turnId) } m :=
  h.append (followAll_items (by rw [h.active, hact]; rfl) items) rfl h.active h.waiting
    h.begun h.idle

lemma follows_started (hact : v.active = none)
    (hpend : v.pending = ∅) (hid : active.turnId = v.uuids)
    (items : List String) :
    Follows { v with
      outputs := v.outputs ++ (.turnStarted v.uuids :: items.map (Event.item v.uuids))
      active := some active
      uuids := v.uuids + 1 } ⟨some v.uuids, ∅, v.uuids :: m.begun⟩ := by
  have hstarted : m.followAll (.turnStarted v.uuids :: items.map (Event.item v.uuids)) = _ :=
    followAll_started (by rw [h.active, hact]; rfl)
      (fun hmem => Nat.lt_irrefl _ (h.begun _ hmem)) items
  refine h.append hstarted rfl (by rw [Option.map_some, hid]) (fun key => ?_)
    (fun turnId hmem => ?_) (fun hnone => by cases hnone)
  · rw [hpend]
    simp
  · rcases mem_cons.mp hmem with rfl | hold
    · exact Nat.lt_succ_self _
    · exact Nat.lt_succ_of_lt (h.begun turnId hold)

lemma follows_finish
    (hact : v.active = some active) (reason : RequestResolution) (items : List String)
    (outcome : TurnOutcome) :
    Follows { v with
      outputs := v.outputs ++
        ((v.pending.entries.map Prod.fst).map (fun key => Event.requestResolved key reason) ++
          (items.map (Event.item active.turnId) ++ [.turnCompleted active.turnId outcome]))
      active := none
      pending := ∅ } { m with active := none, waiting := ∅ } := by
  have hkeys : ∀ key, key ∈ m.waiting ↔ key ∈ v.pending.entries.map Prod.fst := by
    intro key
    rw [h.waiting, mem_map, Option.isSome_iff_exists]
    constructor
    · rintro ⟨request, hreq⟩
      exact ⟨(key, request), mem_entries_iff.mpr hreq, rfl⟩
    · rintro ⟨⟨_, request⟩, hreq, rfl⟩
      exact ⟨request, mem_entries_iff.mp hreq⟩
  refine h.append ?_ rfl rfl (fun key => ?_) h.begun (fun _ => rfl)
  · rw [followAll_append, followAll_resolved (keys_nodup v.pending) hkeys reason]
    exact followAll_completed (by rw [h.active, hact]; rfl) rfl items outcome
  · simp

lemma follows_opened
    (hact : v.active = some active) {key : String} (hnew : v.pending.get? key = none)
    (request : PendingRequest) :
    Follows { v with
      outputs := v.outputs ++ [.requestOpened active.turnId key]
      pending := v.pending.insert key request } { m with waiting := insert key m.waiting } := by
  have hnot : key ∉ m.waiting := fun hmem => by
    rw [h.waiting, hnew] at hmem
    cases hmem
  refine h.append ?_ rfl h.active (fun other => ?_) h.begun (fun hnone => by
    rw [hact] at hnone
    cases hnone)
  · show (m.follow (.requestOpened active.turnId key)).bind _ = _
    rw [follow, if_pos ⟨by rw [h.active, hact]; rfl, hnot⟩]
    rfl
  rw [Finset.mem_insert, h.waiting, get?_insert]
  by_cases heq : other = key
  · simp [heq]
  · simp [heq]

lemma follows_resolved {key : String}
    {request : PendingRequest} (hpend : v.pending.get? key = some request)
    (reason : RequestResolution) :
    Follows { v with
      outputs := v.outputs ++ [.requestResolved key reason]
      pending := v.pending.erase key } { m with waiting := m.waiting.erase key } := by
  have hmem : key ∈ m.waiting := by
    rw [h.waiting, hpend]
    rfl
  refine h.append ?_ rfl h.active (fun other => ?_) h.begun (fun hnone => ?_)
  · show (m.follow (.requestResolved key reason)).bind _ = _
    rw [follow, if_pos hmem]
    rfl
  · rw [Finset.mem_erase, h.waiting, get?_erase]
    by_cases heq : other = key
    · simp [heq]
    · simp [heq]
  · show m.waiting.erase key = ∅
    rw [h.idle hnone]
    rfl

/-! ## The invariant -/

end

/-- An active turn has a query or waits for a history; a disposed session has neither. -/
structure Inv (s : Session) : Prop where
  follows : ∃ m, Follows s.turns m
  live : ∀ active, s.active = some active → s.query ≠ none ∨ active.turnId ∈ s.histories
  offer : ∀ active, s.active = some active → active.turnId ∈ s.histories → active.firstOffer = true
  known : ∀ turnId ∈ s.histories, turnId < s.uuids
  disposed : s.disposed = true → s.active = none ∧ s.query = none

lemma pending_of_idle (h : Follows v m) (hact : v.active = none) : v.pending = ∅ := by
  refine ext_get? (fun key => ?_)
  have hwait := h.waiting key
  rw [h.idle hact] at hwait
  rw [get?_empty]
  exact Option.not_isSome_iff_eq_none.mp (fun hsome => Finset.notMem_empty key (hwait.mpr hsome))

lemma Inv.turnId_lt (h : s.Inv) (hact : s.active = some active) : active.turnId < s.uuids := by
  obtain ⟨m, hm⟩ := h.follows
  refine hm.begun _ (active_mem_begun (fun turnId hnone => by cases hnone) hm.followed _ ?_)
  rw [hm.active]
  show s.active.map ActiveTurn.turnId = _
  rw [hact]
  rfl

lemma Inv.of_turns (h : s.Inv) {t : Session} (hturns : t.turns = s.turns)
    (hquery : s.active ≠ none → t.query = none → s.query = none)
    (hcl : s.disposed = true → t.query = none) : t.Inv := by
  have hact : t.active = s.active := congrArg TurnView.active hturns
  have hhistories : t.histories = s.histories := congrArg TurnView.histories hturns
  have hdisp : t.disposed = s.disposed := congrArg TurnView.disposed hturns
  have huuids : t.uuids = s.uuids := congrArg TurnView.uuids hturns
  refine ⟨hturns ▸ h.follows, fun active ha => ?_, fun active ha hid => ?_, fun turnId hid => ?_,
    fun hd => ?_⟩
  · rw [hact] at ha
    rw [hhistories]
    refine (h.live active ha).imp_left (fun hopen hnone => hopen (hquery ?_ hnone))
    rw [ha]
    exact Option.some_ne_none active
  · exact h.offer active (hact ▸ ha) (hhistories ▸ hid)
  · rw [huuids]
    exact h.known turnId (hhistories ▸ hid)
  · rw [hdisp] at hd
    rw [hact]
    exact ⟨(h.disposed hd).1, hcl hd⟩

lemma inv_answer (h : s.Inv) (requestId : String) (reply : Reply) :
    (s.answer requestId reply).Inv :=
  h.of_turns (turns_answer s requestId reply) (fun _ hnone => (query_answer s _ _).symm.trans hnone)
    (fun hd => (query_answer s _ _).trans (h.disposed hd).2)

lemma inv_closeQuery (h : s.Inv) (hact : s.active = none) : s.closeQuery.Inv :=
  h.of_turns (turns_closeQuery s) (fun hne _ => absurd hact hne) (fun _ => query_closeQuery s)

lemma inv_applyPendingSettings (h : s.Inv) : s.applyPendingSettings.Inv := by
  refine h.of_turns (turns_applyPendingSettings s) (fun hne hnone => ?_)
    (fun hd => query_applyPendingSettings_of_none (h.disposed hd).2)
  obtain ⟨active, hact⟩ := Option.ne_none_iff_exists'.mp hne
  rwa [query_applyPendingSettings_of_active hact] at hnone

lemma inv_finishTurn (hfol : ∃ m, Follows s.turns m)
    (hact : s.active = some active) (hknown : ∀ turnId ∈ s.histories, turnId < s.uuids)
    (hcl : s.disposed = true → s.query = none) (outcome : TurnOutcome) :
    (s.finishTurn env outcome).Inv := by
  obtain ⟨m, hm⟩ := hfol
  have hturns := turns_finishTurn env hact outcome
  have hnone : (s.finishTurn env outcome).active = none := congrArg TurnView.active hturns
  have hdisp : (s.finishTurn env outcome).disposed = s.disposed :=
    congrArg TurnView.disposed hturns
  have hhistories : (s.finishTurn env outcome).histories = s.histories :=
    congrArg TurnView.histories hturns
  have huuids : (s.finishTurn env outcome).uuids = s.uuids := congrArg TurnView.uuids hturns
  refine ⟨⟨_, hturns ▸ follows_finish hm hact _ env.closed outcome⟩, fun other hother => ?_,
    fun other hother => ?_, fun turnId hid => ?_, fun hd => ?_⟩
  · rw [hnone] at hother
    cases hother
  · rw [hnone] at hother
    cases hother
  · rw [huuids]
    exact hknown turnId (hhistories ▸ hid)
  · exact ⟨hnone, query_finishTurn_of_none hact (hcl (hdisp ▸ hd)) outcome⟩

lemma inv_emitItems (h : s.Inv) (items : List String) : (s.emitItems items).Inv := by
  unfold emitItems
  split
  · next active hact =>
    obtain ⟨m, hm⟩ := h.follows
    exact ⟨⟨m, follows_items hm hact items⟩, h.live, h.offer, h.known, h.disposed⟩
  · exact h

/-! ## A turn begins -/

section Begin

variable (user firstOffer : Bool)

lemma follows_beginTurn (hm : Follows s.turns m) (hact : s.active = none) :
    ∃ m', Follows (({ s with uuids := s.uuids + 1 } : Session).beginTurn env s.uuids user
      firstOffer).turns m' :=
  ⟨_, follows_started hm hact (pending_of_idle hm hact) rfl env.begun⟩

lemma inv_beginTurn (h : s.Inv) (hact : s.active = none) (hquery : s.query ≠ none) :
    (({ s with uuids := s.uuids + 1 } : Session).beginTurn env s.uuids user firstOffer).Inv := by
  obtain ⟨m, hm⟩ := h.follows
  refine ⟨follows_beginTurn user firstOffer hm hact, fun _ _ => .inl hquery,
    fun active ha hid => ?_, fun turnId hid => Nat.lt_succ_of_lt (h.known turnId hid), fun hd => ?_⟩
  · cases ha
    exact absurd (h.known _ hid) (Nat.lt_irrefl _)
  · exact absurd (h.disposed hd).2 hquery

end Begin

lemma inv_activeOrWake (env : Surroundings) (h : s.Inv) (hquery : s.query ≠ none) : (s.activeOrWake env).Inv := by
  unfold activeOrWake
  split
  · exact h
  · next hact => exact inv_beginTurn false false h hact hquery

lemma query_activeOrWake (env : Surroundings) (s : Session) : (s.activeOrWake env).query = s.query := by
  unfold activeOrWake
  split <;> rfl

lemma pending_activeOrWake (env : Surroundings) (s : Session) : (s.activeOrWake env).pending = s.pending := by
  unfold activeOrWake
  split <;> rfl

lemma active_activeOrWake (env : Surroundings) (s : Session) : ∃ active, (s.activeOrWake env).active = some active := by
  unfold activeOrWake
  split
  · next active hact => exact ⟨active, hact⟩
  · exact ⟨_, rfl⟩

lemma inv_opened (hfol : ∃ m, Follows s.turns m)
    (hact : s.active = some active) (hnew : active.turnId ∉ s.histories)
    (hknown : ∀ turnId ∈ s.histories, turnId < s.uuids) (hdisp : s.disposed = false)
    (outcome : TurnOutcome) :
    (if (s.ensureQuery env).query = none then (s.ensureQuery env).finishTurn env outcome
      else s.ensureQuery env).Inv := by
  have hturns := turns_ensureQuery env s
  generalize s.ensureQuery env = opened at hturns
  have hopened : opened.active = some active := (congrArg TurnView.active hturns).trans hact
  have hhistories : opened.histories = s.histories := congrArg TurnView.histories hturns
  have huuids : opened.uuids = s.uuids := congrArg TurnView.uuids hturns
  have hfalse : opened.disposed = false := (congrArg TurnView.disposed hturns).trans hdisp
  rw [← hturns] at hfol
  rw [← hhistories, ← huuids] at hknown
  rw [← hhistories] at hnew
  split
  · exact inv_finishTurn hfol hopened hknown
      (fun hd => absurd (hfalse.symm.trans hd) Bool.false_ne_true) outcome
  next hquery =>
  refine ⟨hfol, fun _ _ => .inl hquery, fun other hother hid => ?_, hknown,
    fun hd => absurd (hfalse.symm.trans hd) Bool.false_ne_true⟩
  cases hopened.symm.trans hother
  exact absurd hid hnew

lemma startTurn_of_idle (hact : s.active = none) (user : Bool) : (s.startTurn env user).1 =
      let ready := s.applyPendingSettings.reopenForClientTools env
      let begun := ({ ready with uuids := ready.uuids + 1 } : Session).beginTurn env ready.uuids
        user true
      if (begun.ensureQuery env).query = none then
        (begun.ensureQuery env).finishTurn env (.failed processExitedMessage)
      else begun.ensureQuery env := by
  unfold startTurn
  rw [hact]
  simp only
  split <;> rfl

lemma inv_startTurn (h : s.Inv) (hdisp : s.disposed = false) (user : Bool) :
    (s.startTurn env user).1.Inv := by
  cases hact : s.active with
  | some active =>
    unfold startTurn
    rw [hact]
    exact h
  | none =>
  rw [startTurn_of_idle hact]
  have hready : (s.applyPendingSettings.reopenForClientTools env).turns = s.turns :=
    (turns_reopenForClientTools env _).trans (turns_applyPendingSettings s)
  generalize s.applyPendingSettings.reopenForClientTools env = ready at hready
  obtain ⟨m, hm⟩ := h.follows
  have hnone : ready.active = none := (congrArg TurnView.active hready).trans hact
  have hhistories : ready.histories = s.histories := congrArg TurnView.histories hready
  have huuids : ready.uuids = s.uuids := congrArg TurnView.uuids hready
  have hknown : ∀ turnId ∈ ready.histories, turnId < ready.uuids := by
    rw [hhistories, huuids]
    exact h.known
  exact inv_opened (follows_beginTurn user true (hready ▸ hm) hnone) rfl
    (fun hid => Nat.lt_irrefl _ (hknown _ hid))
    (fun turnId hid => Nat.lt_succ_of_lt (hknown turnId hid))
    ((congrArg TurnView.disposed hready).trans hdisp) _

/-! ## A turn goes on and ends -/

lemma inv_steer (h : s.Inv) (expected : Uuid) : (s.steer env expected).Inv := by
  unfold steer
  split
  · next query active hquery hact =>
    split
    · apply inv_emitItems
      obtain ⟨m, hm⟩ := h.follows
      refine ⟨⟨m, hm.of_eq rfl ?_ rfl (Nat.le_succ _)⟩, fun _ _ => .inl ?_, fun other hother hid => ?_,
        fun turnId hid => Nat.lt_succ_of_lt (h.known turnId hid), fun hd => ?_⟩
      · show _ = s.active.map ActiveTurn.turnId
        rw [hact]
        rfl
      · show s.query ≠ none
        rw [hquery]
        exact Option.some_ne_none query
      · cases hother
        exact h.offer active hact hid
      · rw [(h.disposed hd).1] at hact
        cases hact
    · exact h
  · exact h

lemma Inv.of_active (h : s.Inv) {active after : ActiveTurn} (hact : s.active = some active)
    (hid : after.turnId = active.turnId) (hoffer : after.firstOffer = active.firstOffer) :
    ({ s with active := some after } : Session).Inv := by
  obtain ⟨m, hm⟩ := h.follows
  refine ⟨⟨m, hm.of_eq rfl ?_ rfl le_rfl⟩, fun other hother => ?_, fun other hother hmem => ?_,
    h.known, fun hd => ?_⟩
  · show some after.turnId = s.active.map ActiveTurn.turnId
    rw [hact, hid]
    rfl
  · cases hother
    show s.query ≠ none ∨ _
    rw [hid]
    exact h.live active hact
  · cases hother
    rw [hoffer]
    exact h.offer active hact (hid ▸ hmem)
  · rw [(h.disposed hd).1] at hact
    cases hact

lemma inv_finish_of_inv (h : s.Inv) (hact : s.active = some active)
    (outcome : TurnOutcome) : (s.finishTurn env outcome).Inv :=
  inv_finishTurn h.follows hact h.known (fun hd => (h.disposed hd).2) outcome

lemma inv_cancelToolCalls (h : s.Inv) : s.cancelToolCalls.Inv :=
  h.of_turns (turns_cancelToolCalls s) (fun _ hnone => (query_cancelToolCalls s).symm.trans hnone)
    (fun hd => (query_cancelToolCalls s).trans (h.disposed hd).2)

lemma inv_requestInterrupt (h : s.Inv) (runningCommand : Bool) :
    (s.requestInterrupt env runningCommand).Inv := by
  unfold requestInterrupt
  have hcanc := inv_cancelToolCalls h
  generalize s.cancelToolCalls = cancelled at hcanc
  simp only
  split
  · exact hcanc
  next active hact =>
  have hasked : ({ cancelled with
      active := some { active with interruptRequested := true, releaseAfter := runningCommand } } :
      Session).Inv := hcanc.of_active hact rfl rfl
  split
  · exact inv_finish_of_inv hasked rfl _
  · exact hcanc.of_active hact rfl rfl

lemma inv_interrupt (h : s.Inv) (turnId : Option Uuid) (runningCommand : Bool) :
    (s.interrupt env turnId runningCommand).Inv := by
  unfold interrupt
  split
  · exact h
  · split
    · exact inv_requestInterrupt h runningCommand
    · exact h

lemma inv_close_finish (env : Surroundings) (hfol : ∃ m, Follows s.turns m)
    (hact : s.active = some active) (hknown : ∀ turnId ∈ s.histories, turnId < s.uuids)
    (outcome : TurnOutcome) : (s.closeQuery.finishTurn env outcome).Inv := by
  have hturns := turns_closeQuery s
  have hcl := query_closeQuery s
  generalize s.closeQuery = closed at hturns hcl
  have hhistories : closed.histories = s.histories := congrArg TurnView.histories hturns
  have huuids : closed.uuids = s.uuids := congrArg TurnView.uuids hturns
  refine inv_finishTurn (hturns ▸ hfol) ((congrArg TurnView.active hturns).trans hact) ?_
    (fun _ => hcl) outcome
  rw [hhistories, huuids]
  exact hknown

lemma inv_onInterruptTimeout (h : s.Inv) : (s.onInterruptTimeout env).Inv := by
  unfold onInterruptTimeout
  split
  · exact h
  next active hact =>
  split
  · have hafter : ({ s with active := some { active with interruptDeadline := false } } :
        Session).Inv := h.of_active hact rfl rfl
    exact inv_close_finish env hafter.follows rfl h.known _
  · exact h

lemma inv_replaceLostSession (h : s.Inv) : (s.replaceLostSession env).Inv := by
  unfold replaceLostSession
  split
  · exact h
  next active hact =>
  split
  · exact inv_close_finish env h.follows hact h.known _
  next hreplace =>
  have hafter : ({ s with
      active := some { active with sessionReplacements := active.sessionReplacements + 1 } } :
      Session).Inv := h.of_active hact rfl rfl
  have hturns := turns_closeQuery ({ s with
      active := some { active with sessionReplacements := active.sessionReplacements + 1 } } :
      Session)
  simp only
  generalize ({ s with
      active := some { active with sessionReplacements := active.sessionReplacements + 1 } } :
      Session).closeQuery = closed at hturns
  have hcl : closed.active = some
      { active with sessionReplacements := active.sessionReplacements + 1 } :=
    congrArg TurnView.active hturns
  have hhistories : closed.histories = s.histories := congrArg TurnView.histories hturns
  have huuids : closed.uuids = s.uuids := congrArg TurnView.uuids hturns
  have hdisp : closed.disposed = s.disposed := congrArg TurnView.disposed hturns
  obtain ⟨m, hm⟩ := hafter.follows
  rw [not_or, Bool.not_eq_false] at hreplace
  refine ⟨⟨m, (hturns ▸ hm).of_eq rfl rfl rfl (Nat.le_succ _)⟩, fun other hother => ?_,
    fun other hother _ => ?_, fun turnId hid => ?_, fun hd => ?_⟩
  · cases hcl.symm.trans hother
    exact .inr mem_concat_self
  · cases hcl.symm.trans hother
    exact hreplace.2
  · show turnId < closed.uuids + 1
    rw [huuids]
    rcases mem_concat.mp hid with hold | hnew
    · exact Nat.lt_succ_of_lt (h.known turnId (hhistories ▸ hold))
    · rw [hnew]
      exact Nat.lt_succ_of_lt (h.turnId_lt hact)
  · have hnone := (h.disposed (hdisp.symm.trans hd)).1
    rw [hact] at hnone
    cases hnone

lemma isIntermediateResult_turn {active after : ActiveTurn} {frame : ResultFrame}
    (h : isIntermediateResult active frame = some after) :
    after.turnId = active.turnId ∧ after.firstOffer = active.firstOffer := by
  unfold isIntermediateResult at h
  split at h
  · cases h
  split at h
  · cases h
    exact ⟨rfl, rfl⟩
  split at h
  · cases h
    exact ⟨rfl, rfl⟩
  · cases h

lemma inv_onResult (h : s.Inv) (frame : ResultFrame) : (s.onResult env frame).Inv := by
  unfold onResult
  split
  · exact h
  next active hact =>
  split
  · exact inv_replaceLostSession h
  split
  · next after hafter =>
    obtain ⟨hid, hoffer⟩ := isIntermediateResult_turn hafter
    exact h.of_active hact hid hoffer
  · exact inv_finish_of_inv h hact _

lemma inv_onQueryEnded (h : s.Inv) (exited : TurnOutcome) : (s.onQueryEnded env exited).Inv := by
  unfold onQueryEnded
  split
  · exact h
  simp only
  split
  · next hact =>
    exact h.of_turns (t := { s with query := none, generation := s.generation + 1 }) rfl
      (fun hne _ => absurd hact hne) (fun _ => rfl)
  · next active hact =>
    exact inv_finishTurn (s := { s with query := none, generation := s.generation + 1 })
      h.follows hact h.known (fun _ => rfl) _

lemma inv_dispose (h : s.Inv) : (s.dispose env).Inv := by
  have hfol : ∃ m, Follows ({ s with disposed := true } : Session).turns m := by
    obtain ⟨m, hm⟩ := h.follows
    exact ⟨m, hm.of_eq rfl rfl rfl le_rfl⟩
  unfold dispose
  simp only
  split
  · next active hact =>
    have hasked : ∃ m, Follows ({ s with
        disposed := true, active := some { active with interruptRequested := true } } :
        Session).turns m := by
      obtain ⟨m, hm⟩ := hfol
      refine ⟨m, hm.of_eq rfl ?_ rfl le_rfl⟩
      show _ = s.active.map ActiveTurn.turnId
      rw [hact]
      rfl
    have hfin := inv_close_finish env hasked rfl h.known .interrupted
    have hcl : ({ s with
        disposed := true, active := some { active with interruptRequested := true } } :
        Session).closeQuery.active = some { active with interruptRequested := true } :=
      congrArg TurnView.active (turns_closeQuery _)
    have hturns := turns_finishTurn env hcl .interrupted
    exact inv_closeQuery hfin (congrArg TurnView.active hturns)
  next hact =>
  obtain ⟨m, hm⟩ := hfol
  have hturns := turns_closeQuery ({ s with disposed := true } : Session)
  have hnone : ({ s with disposed := true } : Session).closeQuery.active = none :=
    (congrArg TurnView.active hturns).trans hact
  refine ⟨⟨m, hturns ▸ hm⟩, fun other hother => ?_, fun other hother => ?_, fun turnId hid => ?_,
    fun _ => ⟨hnone, query_closeQuery _⟩⟩
  · rw [hnone] at hother
    cases hother
  · rw [hnone] at hother
    cases hother
  have huuids : ({ s with disposed := true } : Session).closeQuery.uuids = s.uuids :=
    congrArg TurnView.uuids hturns
  have hhistories : ({ s with disposed := true } : Session).closeQuery.histories = s.histories :=
    congrArg TurnView.histories hturns
  rw [huuids]
  exact h.known turnId (hhistories ▸ hid)

/-! ## Requests -/

variable {request : ToolRequest}

lemma inv_openRequest (h : s.Inv) (hquery : s.query ≠ none)
    (hnew : s.pending.get? (pendingId request.toolUseId) = none) (kind : PendingKind) :
    (s.openRequest env request kind).Inv := by
  unfold openRequest
  have hwoken := inv_activeOrWake env h hquery
  have hpend := pending_activeOrWake env s
  generalize s.activeOrWake env = woken at hwoken hpend
  simp only
  split
  · exact inv_answer hwoken _ _
  next active hact =>
  obtain ⟨m, hm⟩ := hwoken.follows
  rw [← hpend] at hnew
  exact ⟨⟨_, follows_opened hm hact hnew _⟩, hwoken.live, hwoken.offer, hwoken.known,
    hwoken.disposed⟩

lemma inv_startTool (h : s.Inv) (request : ToolRequest) : (s.startTool env request).Inv := by
  unfold startTool
  split
  · exact h
  · exact inv_emitItems h _

lemma query_emitItems (s : Session) (items : List String) :
    (s.emitItems items).query = s.query := by
  unfold emitItems
  split <;> rfl

lemma pending_emitItems (s : Session) (items : List String) :
    (s.emitItems items).pending = s.pending := by
  unfold emitItems
  split <;> rfl

lemma query_startTool (s : Session) (request : ToolRequest) :
    (s.startTool env request).query = s.query := by
  unfold startTool
  split
  · rfl
  · exact query_emitItems s _

lemma pending_startTool (s : Session) (request : ToolRequest) :
    (s.startTool env request).pending = s.pending := by
  unfold startTool
  split
  · rfl
  · exact pending_emitItems s _

def AsksUser (s : Session) (request : ToolRequest) : Prop :=
  Transcript.parseId request.toolUseId ≠ none ∧ s.ownsClientTool request.toolName = false ∧
    (toolDisposition request.toolName = .question ∨
      toolDisposition request.toolName ≠ .exitPlan ∧
        profileAllowsTool (profileOf s.settings.permissionProfile) request.toolName = true ∧
        profileOf s.settings.permissionProfile ≠ .fullAccess)

instance (s : Session) (request : ToolRequest) : Decidable (s.AsksUser request) :=
  inferInstanceAs (Decidable (_ ∧ _ ∧ _))

lemma inv_askApproval (h : s.Inv) (hquery : s.query ≠ none)
    (hnew : profileAllowsTool (profileOf s.settings.permissionProfile) request.toolName = true →
      profileOf s.settings.permissionProfile ≠ .fullAccess →
        s.pending.get? (pendingId request.toolUseId) = none) : (s.askApproval env request).Inv := by
  unfold askApproval
  simp only
  split
  · exact inv_answer h _ _
  next hallow =>
  split
  · exact inv_answer (inv_startTool h request) _ _
  next hprof =>
  apply inv_openRequest (inv_startTool h request)
  · rw [query_startTool]
    exact hquery
  · rw [pending_startTool]
    exact hnew (Bool.not_eq_false _ ▸ hallow) hprof

lemma woken_kept (env : Surroundings) (s : Session) :
    (s.activeOrWake env).settings = s.settings ∧ (s.activeOrWake env).queryTools = s.queryTools := by
  unfold activeOrWake
  split <;> exact ⟨rfl, rfl⟩

section

variable (h : s.Inv)
include h

lemma inv_canUseTool (hquery : s.query ≠ none) {request : ToolRequest}
    (hnew : s.AsksUser request → s.pending.get? (pendingId request.toolUseId) = none) :
    (s.canUseTool env request).Inv := by
  unfold canUseTool
  have hwoken : (if request.subagent then s else s.activeOrWake env).Inv := by
    split
    · exact h
    · exact inv_activeOrWake env h hquery
  have hkept : (if request.subagent then s else s.activeOrWake env).query = s.query ∧
      (if request.subagent then s else s.activeOrWake env).pending = s.pending ∧
      (if request.subagent then s else s.activeOrWake env).settings = s.settings ∧
      (if request.subagent then s else s.activeOrWake env).queryTools = s.queryTools := by
    split
    · exact ⟨rfl, rfl, rfl, rfl⟩
    · exact ⟨query_activeOrWake env s, pending_activeOrWake env s, woken_kept env s⟩
  generalize (if request.subagent then s else s.activeOrWake env) = woken at hwoken hkept
  obtain ⟨hq, hp, hset, htools⟩ := hkept
  have howns : woken.ownsClientTool request.toolName = s.ownsClientTool request.toolName := by
    unfold ownsClientTool
    rw [htools]
  rw [← hq] at hquery
  rw [← hp] at hnew
  simp only
  split
  · exact inv_answer hwoken _ _
  next hid =>
  split
  · exact inv_answer (inv_startTool (inv_activeOrWake env hwoken hquery) request) _ _
  next hother =>
  rw [howns, Bool.not_eq_true] at hother
  split
  · exact inv_answer (inv_startTool hwoken request) _ _
  · next hquest =>
    exact inv_openRequest hwoken hquery (hnew ⟨hid, hother, .inl hquest⟩) _
  · next hitem =>
    refine inv_askApproval hwoken hquery (fun hallow hprof => hnew ⟨hid, hother, .inr ?_⟩)
    rw [hset] at hallow hprof
    exact ⟨by rw [hitem]; decide, hallow, hprof⟩
  next hplan =>
  refine inv_askApproval hwoken hquery (fun hallow hprof => hnew ⟨hid, hother, .inr ?_⟩)
  rw [hset] at hallow hprof
  exact ⟨by rw [hplan]; decide, hallow, hprof⟩

lemma inv_resolved {key : String} {request : PendingRequest}
    (hpend : s.pending.get? key = some request) (reason : RequestResolution) :
    (({ s with pending := s.pending.erase key } : Session).resolveRequest key reason).Inv := by
  obtain ⟨m, hm⟩ := h.follows
  exact ⟨⟨_, follows_resolved hm hpend reason⟩, h.live, h.offer, h.known, h.disposed⟩

lemma inv_respond (key : String) (response : RuntimeResponse) : (s.respond key response).Inv := by
  unfold respond
  split
  · exact h
  · next pending hpend => exact inv_answer (inv_resolved h hpend _) _ _

lemma inv_onRequestCancelled (requestId : String) : (s.onRequestCancelled requestId).Inv := by
  unfold onRequestCancelled
  split
  · next key pending hfind =>
    exact inv_resolved h (mem_entries_iff.mp (mem_of_find?_eq_some hfind)) _
  · split
    · exact ⟨h.follows, h.live, h.offer, h.known, h.disposed⟩
    · exact h

lemma inv_claim (openItems : List String) : (s.claim openItems).2.Inv := by
  unfold claim
  split
  · exact ⟨h.follows, h.live, h.offer, h.known, h.disposed⟩
  · obtain ⟨m, hm⟩ := h.follows
    exact ⟨⟨m, hm.of_eq rfl rfl rfl (Nat.le_succ _)⟩, h.live, h.offer,
      fun turnId hid => Nat.lt_succ_of_lt (h.known turnId hid), h.disposed⟩

lemma inv_callClientTool (requestId : String) (openItems : List String) :
    (s.callClientTool requestId openItems).Inv := by
  unfold callClientTool
  split
  · exact inv_answer h _ _
  have hclaim := inv_claim h openItems
  generalize s.claim openItems = pair at hclaim ⊢
  obtain ⟨callId, claimed⟩ := pair
  exact ⟨hclaim.follows, hclaim.live, hclaim.offer, hclaim.known, hclaim.disposed⟩

lemma inv_onMcpMessage (requestId serverName : String) (message : McpMessage) :
    (s.onMcpMessage requestId serverName message).Inv := by
  unfold onMcpMessage
  split
  · exact inv_answer h _ _
  split
  · split
    · exact inv_callClientTool h _ _
    · exact inv_answer h _ _
  · exact inv_answer h _ _

lemma inv_onToolCallDone (callId : CallId) (requestId : String) (success : Bool)
    (text : String) : (s.onToolCallDone callId requestId success text).Inv := by
  unfold onToolCallDone
  split
  · have herased : ({ s with toolCalls :=
        { s.toolCalls with running := s.toolCalls.running.erase callId } } : Session).Inv :=
      ⟨h.follows, h.live, h.offer, h.known, h.disposed⟩
    exact inv_answer herased _ _
  · exact h

/-! ## The other steps -/

lemma inv_updateSettings (next : ThreadSettings) : (s.updateSettings next).Inv := by
  unfold updateSettings
  split
  · exact h
  apply inv_applyPendingSettings
  have hpend : ({ s with pendingSettings := some next } : Session).Inv :=
    ⟨h.follows, h.live, h.offer, h.known, h.disposed⟩
  exact hpend.of_turns (turns_switchPermissionsLive _)
    (fun _ hnone => (query_switchPermissionsLive _).symm.trans hnone)
    (fun hd => (query_switchPermissionsLive _).trans (hpend.disposed hd).2)

lemma inv_onModeChangeFailed (generation : Nat) : (s.onModeChangeFailed generation).Inv := by
  unfold onModeChangeFailed
  split
  · have houtdated : ({ s with queryModeOutdated := true } : Session).Inv :=
      ⟨h.follows, h.live, h.offer, h.known, h.disposed⟩
    exact inv_applyPendingSettings houtdated
  · exact h

lemma inv_onBackgroundTasks (count : Nat) : (s.onBackgroundTasks count).Inv := by
  have hcount : ({ s with backgroundTasks := count } : Session).Inv :=
    ⟨h.follows, h.live, h.offer, h.known, h.disposed⟩
  unfold onBackgroundTasks
  simp only
  split
  · exact inv_applyPendingSettings hcount
  · exact hcount

lemma inv_onIdleTimer (deferred : Bool) : (s.onIdleTimer deferred).Inv := by
  unfold onIdleTimer
  split
  · exact h
  next hidle =>
  split
  · exact h
  · exact inv_closeQuery h (not_not.mp (fun hne => hidle (.inl hne)))

lemma inv_onContent (hquery : s.query ≠ none) (topLevel : Bool) :
    (s.onContent env topLevel).Inv := by
  unfold onContent
  split
  · exact inv_emitItems (inv_activeOrWake env h hquery) _
  · exact h

lemma inv_historyLines {turnId : Uuid}
    (hopens : s.active.map ActiveTurn.turnId = some turnId → s.query = none → env.opens = true) :
    (({ s with histories := s.histories.erase turnId } : Session).offerReplacement env turnId).Inv := by
  unfold offerReplacement
  have hknown : ∀ id ∈ s.histories.erase turnId, id < s.uuids :=
    fun id hid => h.known id (mem_of_mem_erase hid)
  split
  · next hd =>
    have hnone := (h.disposed hd).1
    refine ⟨?_, fun active hact => ?_, fun active hact => ?_, hknown, h.disposed⟩
    · obtain ⟨m, hm⟩ := h.follows
      exact ⟨m, hm.of_eq rfl rfl rfl le_rfl⟩
    · cases hnone.symm.trans hact
    · cases hnone.symm.trans hact
  next hd =>
  have hfol : ∃ m, Follows ({ s with
      histories := s.histories.erase turnId, uuids := s.uuids + 1 } : Session).turns m := by
    obtain ⟨m, hm⟩ := h.follows
    exact ⟨m, hm.of_eq rfl rfl rfl (Nat.le_succ _)⟩
  simp only
  split
  · next hnone =>
    refine ⟨hfol, fun active hact => ?_, fun active hact => ?_,
      fun id hid => Nat.lt_succ_of_lt (hknown id hid), h.disposed⟩
    · cases hnone.symm.trans hact
    · cases hnone.symm.trans hact
  next active hact =>
  have hold : s.active = some active := hact
  split
  · next hsame =>
    have hopened : (({ s with
        histories := s.histories.erase turnId, uuids := s.uuids + 1 } : Session).ensureQuery
        env).query ≠ none := by
      unfold ensureQuery
      split
      · next query hquery =>
        rw [hquery]
        exact Option.some_ne_none query
      · next hquery =>
        rw [hopens (by rw [hold, Option.map_some, hsame.1]) hquery, if_pos rfl]
        exact Option.some_ne_none _
    have hturns := turns_ensureQuery env ({ s with
      histories := s.histories.erase turnId, uuids := s.uuids + 1 } : Session)
    generalize (({ s with
      histories := s.histories.erase turnId, uuids := s.uuids + 1 } : Session).ensureQuery
      env) = opened at hopened hturns
    have hopenedActive : opened.active = s.active := congrArg TurnView.active hturns
    have hhistories : opened.histories = s.histories.erase turnId :=
      congrArg TurnView.histories hturns
    have huuids : opened.uuids = s.uuids + 1 := congrArg TurnView.uuids hturns
    have hdisp : opened.disposed = s.disposed := congrArg TurnView.disposed hturns
    refine ⟨hturns ▸ hfol, fun _ _ => .inl hopened, fun other hother hid => ?_,
      fun id hid => ?_, fun hdisposedOpened => absurd (hdisp.symm.trans hdisposedOpened) hd⟩
    · rw [hopenedActive] at hother
      exact h.offer other hother (mem_of_mem_erase (hhistories ▸ hid))
    · rw [huuids]
      exact Nat.lt_succ_of_lt (hknown id (hhistories ▸ hid))
  next hother =>
  refine ⟨hfol, fun other heq => ?_, fun other heq hid => ?_,
    fun id hid => Nat.lt_succ_of_lt (hknown id hid), h.disposed⟩
  · cases hact.symm.trans heq
    refine (h.live active hold).imp_right (fun hid => ?_)
    have hne : active.turnId ≠ turnId := fun hsame => hother ⟨hsame, h.offer active hold hid⟩
    exact (mem_erase_of_ne hne).mpr hid
  · exact h.offer other heq (mem_of_mem_erase hid)

/-! ## Runs -/

end

/-- The step starts no turn after the disposal and puts no request to the user under a waiting key.
-/
def Meets (s : Session) : Surroundings × Act → Prop
  | (_, .startTurn _) => s.disposed = false
  | (env, .historyLines turnId) =>
    turnId ∈ s.histories → s.active.map ActiveTurn.turnId = some turnId → s.query = none →
      env.opens = true
  | (_, .query (.canUseTool request)) =>
    s.query ≠ none → s.AsksUser request → s.pending.get? (pendingId request.toolUseId) = none
  | _ => True

variable {input : Surroundings × Act}

lemma inv_step (h : s.Inv) (hmeets : s.Meets input) : (s.step input).Inv := by
  obtain ⟨env, act⟩ := input
  cases act with
  | startTurn user => exact inv_startTurn h hmeets user
  | steer expected => exact inv_steer h expected
  | interrupt turnId runningCommand => exact inv_interrupt h turnId runningCommand
  | respond key response => exact inv_respond h key response
  | updateSettings next => exact inv_updateSettings h next
  | edit presence =>
    obtain ⟨m, hm⟩ := h.follows
    exact ⟨⟨m, hm.of_eq rfl rfl rfl le_rfl⟩, h.live, h.offer, h.known, h.disposed⟩
  | dispose => exact inv_dispose h
  | query event =>
    rw [step]
    split
    · exact h
    next hquery =>
    cases event with
    | backgroundTasks count => exact inv_onBackgroundTasks h count
    | task => exact inv_emitItems h _
    | content topLevel => exact inv_onContent h hquery topLevel
    | result frame => exact inv_onResult h frame
    | canUseTool request => exact inv_canUseTool h hquery (hmeets hquery)
    | namesNoToolUse requestId | otherRequest requestId subtype => exact inv_answer h _ _
    | mcpMessage requestId serverName message => exact inv_onMcpMessage h _ _ _
    | cancelled requestId => exact inv_onRequestCancelled h requestId
    | exited outcome => exact inv_onQueryEnded h outcome
  | toolCallDone callId requestId success text => exact inv_onToolCallDone h _ _ _ _
  | modeChangeFailed generation => exact inv_onModeChangeFailed h generation
  | historyLines turnId =>
    rw [step]
    split
    · next hread => exact inv_historyLines h (hmeets hread)
    · exact h
  | interruptTimeout => exact inv_onInterruptTimeout h
  | idleTimer deferred => exact inv_onIdleTimer h deferred

lemma inv_spawn (presence : Presence) (settings : ThreadSettings) :
    (spawn presence settings).Inv where
  follows := ⟨start, rfl, rfl, fun key => (by simp [start, turns, spawn]),
    fun turnId hid => (by cases hid), fun _ => rfl⟩
  live active hact := by cases hact
  offer active hact := by cases hact
  known turnId hid := by cases hid
  disposed hd := by cases hd

lemma outputs_step_of_disposed (h : s.Inv) (hd : s.disposed = true)
    (hmeets : s.Meets input) : (s.step input).outputs = s.outputs := by
  obtain ⟨hact, hquery⟩ := h.disposed hd
  obtain ⟨m, hm⟩ := h.follows
  have hpend : s.pending = ∅ := pending_of_idle hm hact
  obtain ⟨env, act⟩ := input
  cases act with
  | startTurn user => exact absurd hd (by rw [show s.disposed = false from hmeets]; decide)
  | steer expected => simp only [step, steer, hquery]
  | interrupt turnId runningCommand => simp only [step, interrupt, hact]
  | respond key response => simp only [step, respond, hpend, get?_empty]
  | updateSettings next => exact congrArg TurnView.outputs (turns_updateSettings s next)
  | edit presence => rfl
  | dispose =>
    simp only [step, dispose, hact]
    exact congrArg TurnView.outputs (turns_closeQuery _)
  | query event => rw [step, if_pos hquery]
  | toolCallDone callId requestId success text =>
    rw [step, onToolCallDone]
    split
    · exact congrArg TurnView.outputs (turns_answer _ _ _)
    · rfl
  | modeChangeFailed generation =>
    rw [step, onModeChangeFailed]
    split
    · exact congrArg TurnView.outputs (turns_applyPendingSettings _)
    · rfl
  | historyLines turnId =>
    rw [step]
    split
    · rw [offerReplacement, if_pos hd]
    · rfl
  | interruptTimeout => simp only [step, onInterruptTimeout, hact]
  | idleTimer deferred => rw [step, onIdleTimer, if_pos (.inr (.inr hquery))]

/-- The events can be followed to the active turn, and after the disposal nothing is open. -/
theorem turns_run_their_course (presence : Presence) (settings : ThreadSettings)
    (run : List (Surroundings × Act)) (h : Always step Meets (spawn presence settings) run) :
    ∀ done rest, run = done ++ rest →
      let s := exec step (spawn presence settings) done
      (∃ m, start.followAll s.outputs = some m ∧
        m.active = s.active.map ActiveTurn.turnId) ∧
      (∀ active, s.active = some active →
        (∀ env user, s.startTurn env user = (s, .busy active.turnId)) ∧
        (s.query ≠ none ∨ active.turnId ∈ s.histories)) ∧
      (s.disposed = true → s.query = none ∧
        ∀ input ∈ rest.head?, (s.step input).outputs = s.outputs) := by
  intro done rest hrun
  rw [hrun, always_append] at h
  obtain ⟨hdone, hrest⟩ := h
  have hinv : Inv (exec step (spawn presence settings) done) :=
    exec_invariant_of_always (P := Inv) (Q := Meets) (fun _ _ hs hmeets => inv_step hs hmeets)
      (inv_spawn presence settings) hdone
  obtain ⟨m, hm⟩ := hinv.follows
  refine ⟨⟨m, hm.followed, hm.active⟩, fun active hact => ⟨fun env user => ?_, hinv.live active hact⟩,
    fun hd => ⟨(hinv.disposed hd).2, fun input hinput => ?_⟩⟩
  · unfold startTurn
    rw [hact]
  · obtain ⟨tail, rfl⟩ := head?_eq_some_iff.mp hinput
    exact outputs_step_of_disposed hinv hd hrest.1

def workspaceSettings : ThreadSettings := ⟨"sonnet", none, ":workspace", none⟩

def surroundings (opens : Bool) : Surroundings := ⟨[], opens, [], [], []⟩

def ran (run : List (Surroundings × Act)) : Session :=
  exec step (spawn (.listed false) workspaceSettings) run

def lostAndReplaced (opens : Bool) : List (Surroundings × Act) :=
  [(surroundings true, .startTurn true),
    (surroundings true, .query (.result ⟨true, false, false, .failed "lost"⟩)),
    (surroundings opens, .historyLines 0)]

theorem turns_run_their_course_of_replaced :
    (ran (lostAndReplaced true)).active ≠ none ∧ (ran (lostAndReplaced true)).query ≠ none := by
  have hmeets : Always step Meets (spawn (.listed false) workspaceSettings) (lostAndReplaced true) :=
    ⟨rfl, trivial, fun _ _ _ => rfl, trivial⟩
  obtain ⟨-, hlive, -⟩ := turns_run_their_course (.listed false) workspaceSettings _ hmeets
    (lostAndReplaced true) [] (append_nil _).symm
  have hact : (ran (lostAndReplaced true)).active =
      some ⟨0, true, true, false, false, false, 0, 1⟩ := rfl
  refine ⟨by rw [hact]; exact Option.some_ne_none _, ?_⟩
  exact (hlive _ hact).2.resolve_right (by decide)

def disposedThenStarted : List (Surroundings × Act) :=
  [(surroundings true, .dispose), (surroundings true, .startTurn true)]

def sameToolUseTwice : List (Surroundings × Act) :=
  [(surroundings true, .startTurn true),
    (surroundings true, .query (.canUseTool ⟨false, "r1", "Bash", "", "t", [], []⟩)),
    (surroundings true, .query (.canUseTool ⟨false, "r2", "Bash", "", "t", [], []⟩))]

/-- The turn stays active without a query, and a start after the disposal opens one. -/
theorem turn_left_without_query :
    ((ran (lostAndReplaced false)).active ≠ none ∧ (ran (lostAndReplaced false)).query = none ∧
      (ran (lostAndReplaced false)).histories = []) ∧
    ((ran disposedThenStarted).disposed = true ∧ (ran disposedThenStarted).active ≠ none ∧
      (ran disposedThenStarted).query ≠ none) ∧
    Following.start.followAll (ran sameToolUseTwice).outputs = none := by
  refine ⟨by decide, by decide, by decide⟩

end Session

end CodeWide.Claude
