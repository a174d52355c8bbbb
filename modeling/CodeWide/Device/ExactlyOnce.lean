import CodeWide.Device.Draining

/-!
# Every call is completed exactly once

`rejectDeferred` clears the queue after the completions of the waiting calls have run, so a call
that one of them queues is lost.
-/

namespace CodeWide.Device

open Lib List Engine LinkedMap

namespace Engine

/-- When the queue is rejected no completion of a waiting call puts a call into it. -/
def Meets (s : Engine) (input : Input × List Bool) : Prop :=
  let s := { s with sends := input.2 }
  let down := { s with upstreamLive := false }
  match input.1 with
  | .close message => Silent (down.rejectInFlight message) (.failure message)
  | .transportState next message =>
    next = "authRequired" → Silent s (.failure (message.getD "Authorization required"))
  | .status next error snapshot flush =>
    if next = "live" then
      let s := performAll { s with upstreamLive := true } snapshot
      s.upstreamLive = true → (flush.take s.deferredRpcs.size).Pairwise
        (fun earlier later => later = true → earlier = true)
    else
      next = "authRequired" → Silent (down.rejectInFlight "Connection unavailable")
        (.failure (error.getD "Authorization required"))
  | _ => True

/-- Between two inputs no call is in hand and every timer is posted. -/
abbrev Settled (s : Engine) : Prop := Inv (fun _ => 0) (fun _ => False) s

namespace Settled

variable {s : Engine}

lemma initial (requestIds : Nat) : Settled (initial requestIds) where
  rpcs _ he := nomatch he
  responses _ he := nomatch he
  deferred _ he := nomatch he
  room := Nat.zero_le _
  order := List.Pairwise.nil
  below _ hc := nomatch hc
  armed _ ht := nomatch ht
  balance _ := rfl

lemma taken {call : Nat} (h : Inv (fun c => 0 - unit call c) (fun _ => False) s)
    (completion : Completion) (outcome : Outcome) : Settled (s.complete call completion outcome) :=
  (h.complete call completion outcome).congr_off (fun c => Int.sub_add_cancel 0 (unit call c))

lemma resolveRpc (h : Settled s) (id : String) (outcome : Outcome) :
    Settled (s.resolveRpc id outcome) := by
  unfold Engine.resolveRpc
  cases hget : s.pendingRpcs.get? id with
  | none => exact h
  | some p =>
  have htimer := (h.rpcs _ (get?_eq_some_iff.mp hget)).1
  have heras := Inv.eraseRpc (h.exempting (fun t ht => .inl ht)) hget
  refine taken (heras.removeCallbacks (fun hmem => ?_)) p.completion outcome
  rw [htimer] at hmem
  exact rpc_mem_timers.mp hmem (get?_erase_self _ id)

lemma resolveServerResponse (h : Settled s) (requestId : RequestId) (accepted : Bool)
    (reason : String) : Settled (s.resolveServerResponse requestId accepted reason) := by
  unfold Engine.resolveServerResponse
  dsimp only
  cases hget : s.pendingServerResponses.get? (requestKey requestId) with
  | none => exact h
  | some p =>
  have htimer := h.responses _ (get?_eq_some_iff.mp hget)
  have heras := Inv.eraseServerResponse (h.exempting (fun t ht => .inl ht)) hget
  refine taken (heras.removeCallbacks (fun hmem => ?_)) p.completion _
  rw [htimer] at hmem
  exact serverResponse_mem_timers.mp hmem (get?_erase_self _ _)

lemma timeout (h : Settled s) (timer : Timer) :
    Settled ((s.removeCallbacks timer).timeout timer) := by
  have hrem : Inv (fun _ => 0) (fun t => False ∨ t = timer) (s.removeCallbacks timer) :=
    Inv.removeCallbacks (h.exempting (fun t ht => .inl ht)) (fun _ => .inr rfl)
  have hgone : timer ∉ s.timers → Settled (s.removeCallbacks timer) := by
    intro hnone
    refine hrem.unexempt (fun t ht heq => hnone ?_)
    rw [← heq]
    exact ht
  cases timer with
  | rpc id =>
    unfold Engine.timeout
    dsimp only
    cases hget : (s.removeCallbacks (.rpc id)).pendingRpcs.get? id with
    | none => exact hgone (fun hmem => rpc_mem_timers.mp hmem hget)
    | some p => exact taken (hrem.eraseRpc hget) p.completion _
  | serverResponse key =>
    unfold Engine.timeout
    dsimp only
    cases hget : (s.removeCallbacks (.serverResponse key)).pendingServerResponses.get? key with
    | none => exact hgone (fun hmem => serverResponse_mem_timers.mp hmem hget)
    | some p => exact taken (hrem.eraseServerResponse hget) p.completion _
  | deferred id =>
  unfold Engine.timeout
  dsimp only
  cases hget : (s.removeCallbacks (.deferred id)).deferredRpcs.get? id with
  | none => exact hgone (fun hmem => deferred_mem_timers.mp hmem hget)
  | some d => exact taken (hrem.eraseDeferred hget) d.completion _

lemma step (h : Settled s) {input : Input × List Bool} (hmeets : Meets s input) :
    Settled (s.step input) := by
  obtain ⟨input, sends⟩ := input
  have hset : Settled { s with sends } := h.setSends sends
  have hdown : Settled { s with sends, upstreamLive := false } := hset.setLive false
  cases input with
  | call action => exact hset.performAll [action]
  | rpcResponse id outcome => exact hset.resolveRpc id outcome
  | serverResponse requestId accepted reason =>
    exact hset.resolveServerResponse requestId accepted reason
  | timeout timer => exact hset.timeout timer
  | socketOpen => exact hdown
  | socketClosed message => exact (hdown.rejectInFlight rfl message).1
  | close message =>
    obtain ⟨hrej, hstill⟩ := hdown.rejectInFlight rfl message
    exact hrej.rejectDeferred hstill hmeets
  | transportState next message =>
    change Settled (({ s with sends }).onTransportState next message)
    unfold onTransportState
    split
    · exact hset
    dsimp only
    split
    · rename_i hauth
      exact hdown.rejectDeferred rfl (hmeets hauth)
    · exact hdown
  | status next error snapshot flush =>
  change Settled (({ s with sends }).handleStatus next error snapshot flush)
  unfold Meets at hmeets
  unfold handleStatus
  dsimp only at hmeets ⊢
  by_cases hlive : next = "live"
  · rw [if_pos hlive] at hmeets ⊢
    exact (((hset.setLive true).performAll snapshot).setSends flush).dispatchDeferredRpcs hmeets
  rw [if_neg hlive] at hmeets ⊢
  obtain ⟨hrej, hstill⟩ := hdown.rejectInFlight rfl "Connection unavailable"
  split
  · rename_i hauth
    exact hrej.rejectDeferred hstill (hmeets hauth)
  · exact hrej

end Settled

lemma completed_deferRpc (s : Engine) (rpc : Rpc) : (s.deferRpc rpc).1.completed = s.completed := by
  rcases deferRpc_cases s rpc with ⟨-, heq⟩ | ⟨-, heq⟩ <;> rw [heq]; rfl

lemma completed_dispatchRpc (s : Engine) (rpc : Rpc) (deferred : Bool) :
    (s.dispatchRpc rpc deferred).1.completed = s.completed := by
  rcases dispatchRpc_cases s rpc deferred with ⟨-, heq⟩ | ⟨-, heq⟩
  · rw [heq]
    rfl
  rw [heq]
  split
  · rfl
  · exact completed_deferRpc (s.unsent rpc) rpc

lemma completed_rpc (s : Engine) (method : String) (params : Json) (timeoutMs : Nat)
    (completion : Completion) : (s.rpc method params timeoutMs completion).1.completed =
      s.completed := by
  unfold rpc
  dsimp only
  split
  · split
    · rfl
    · exact completed_deferRpc _ _
  · exact completed_dispatchRpc _ _ false

lemma completed_respondToServerRequest (s : Engine) (requestId : RequestId) (result : Json)
    (completion : Completion) :
    (s.respondToServerRequest requestId result completion).1.completed = s.completed := by
  rcases respondToServerRequest_cases s requestId result completion with
    ⟨outcome, heq⟩ | ⟨-, -, heq | heq⟩ <;> rw [heq] <;> rfl

lemma completed_ended (call : Nat) (r : Engine × Option Outcome) :
    r.1.completed <+: (ended call r).completed := by
  obtain ⟨next, outcome⟩ := r
  cases outcome with
  | none => exact prefix_refl _
  | some outcome => exact prefix_append _ _

lemma completed_performAll (s : Engine) (actions : List Action) :
    s.completed <+: (performAll s actions).completed := by
  refine @performAll_preserves (fun next => s.completed <+: next.completed) ?_ ?_ ?_ s actions
    (prefix_refl _)
  · intro next method params timeoutMs completion h
    rw [← completed_rpc next method params timeoutMs completion] at h
    exact h.trans (completed_ended _ _)
  · intro next requestId result completion h
    rw [← completed_respondToServerRequest next requestId result completion] at h
    exact h.trans (completed_ended _ _)
  · exact fun _ h => h

lemma done_complete (s : Engine) (call : Nat) (completion : Completion) (outcome : Outcome) :
    0 < (s.complete call completion outcome).done call := by
  have hprefix := completed_performAll (s.note call outcome) (completion outcome)
  refine count_pos_iff.mpr (mem_map.mpr ⟨(call, outcome), hprefix.mem ?_, rfl⟩)
  exact mem_concat_self

/-- Every call made was completed once or is kept once, with a timer, and waiting calls go in order.
-/
structure ExactlyOnce (s : Engine) : Prop where
  once : ∀ call < s.made, s.done call + s.kept call = 1
  unmade : ∀ call, s.made ≤ call → s.done call = 0
  ends : ∀ call, 0 < s.kept call → ∃ timer ∈ s.posted.map Prod.fst,
    ∀ sends, (s.step (.timeout timer, sends)).done call = 1
  order : (s.recovered ++ s.waiting).Pairwise (· < ·)

lemma kept_cases {s : Engine} {call : Nat} (hkept : 0 < s.kept call) :
    ∃ timer ∈ s.timers, ∀ sends, 0 < (s.step (.timeout timer, sends)).done call := by
  unfold kept at hkept
  have hwhere : call ∈ callsOf s.pendingRpcs ∨ call ∈ callsOf s.pendingServerResponses ∨
      call ∈ s.waiting := by
    simp only [← count_pos_iff]
    omega
  rcases hwhere with hmem | hmem | hmem
  · obtain ⟨p, hp, rfl⟩ := mem_map.mp hmem
    obtain ⟨id, hentry⟩ := mem_values.mp hp
    have hget := get?_eq_some_iff.mpr hentry
    refine ⟨.rpc id, rpc_mem_timers.mpr (by rw [hget]; exact Option.some_ne_none p), fun sends => ?_⟩
    simp only [step, run, timeout, hget]
    exact done_complete _ _ _ _
  · obtain ⟨p, hp, rfl⟩ := mem_map.mp hmem
    obtain ⟨key, hentry⟩ := mem_values.mp hp
    have hget := get?_eq_some_iff.mpr hentry
    refine ⟨.serverResponse key,
      serverResponse_mem_timers.mpr (by rw [hget]; exact Option.some_ne_none p), fun sends => ?_⟩
    simp only [step, run, timeout, hget]
    exact done_complete _ _ _ _
  obtain ⟨d, hd, rfl⟩ := mem_map.mp hmem
  obtain ⟨id, hentry⟩ := mem_values.mp hd
  have hget := get?_eq_some_iff.mpr hentry
  refine ⟨.deferred id, deferred_mem_timers.mpr (by rw [hget]; exact Option.some_ne_none d),
    fun sends => ?_⟩
  simp only [step, run, timeout, hget]
  exact done_complete _ _ _ _

namespace Settled

variable {s : Engine}

lemma done_le_one (h : Settled s) (call : Nat) : s.done call ≤ 1 := by
  have hbal := h.balance call
  split at hbal <;> omega

lemma exactlyOnce (h : Settled s) : ExactlyOnce s where
  once call hcall := by
    have hbal := h.balance call
    rw [if_pos hcall] at hbal
    omega
  unmade call hcall := by
    have hbal := h.balance call
    rw [if_neg (Nat.not_lt.mpr hcall)] at hbal
    omega
  ends call hkept := by
    obtain ⟨timer, htimer, hdone⟩ := kept_cases hkept
    refine ⟨timer, (h.armed timer htimer).resolve_left id, fun sends => ?_⟩
    have hset : Settled { s with sends } := h.setSends sends
    have hle := (hset.timeout timer).done_le_one call
    have hlt := hdone sends
    change (s.step (.timeout timer, sends)).done call ≤ 1 at hle
    omega
  order := h.order

end Settled

end Engine

open Engine

/-- In every run whose steps meet the condition, whatever completions do. -/
theorem calls_complete_once (requestIds : Nat) (inputs : List (Input × List Bool))
    (hmeets : Always Engine.step Meets (Engine.initial requestIds) inputs) :
    ExactlyOnce (exec Engine.step (Engine.initial requestIds) inputs) :=
  (exec_invariant_of_always (P := Settled) (fun _ _ h hmeets => h.step hmeets)
    (Settled.initial requestIds) hmeets).exactlyOnce

def retry : Completion
  | .failure _ => [.rpc "thread/read" .null rpcTimeoutMs (fun _ => [])]
  | _ => []

def retriedRun : List (Input × List Bool) :=
  [(.call (.rpc "thread/read" .null rpcTimeoutMs retry), []),
    (.status "live" none [] [true], []),
    (.rpcResponse "native:2" (.success .null), []),
    (.call (.rpc "thread/read" .null rpcTimeoutMs retry), [true]),
    (.socketClosed "Connection interrupted", [])]

theorem calls_complete_once_retried :
    ExactlyOnce (exec Engine.step (Engine.initial 0) retriedRun) := by
  refine calls_complete_once 0 retriedRun ⟨trivial, ?_, trivial, trivial, trivial, trivial⟩
  simp only [Meets, if_true]
  exact fun _ => by decide

/-- The call that the completion makes while the queue is rejected. -/
def closedRun : List (Input × List Bool) :=
  [(.call (.rpc "thread/read" .null rpcTimeoutMs retry), []),
    (.close "Connection session closed", [])]

/-- Two calls wait, and in the flush the send of the first fails and that of the second
does not. -/
def overtakenRun : List (Input × List Bool) :=
  [(.call (.rpc "thread/read" .null rpcTimeoutMs retry), []),
    (.call (.rpc "thread/list" .null rpcTimeoutMs retry), []),
    (.status "live" none [] [false, true], [])]

theorem close_loses_retried_call :
    ((exec Engine.step (Engine.initial 0) closedRun).made = 2 ∧
      (exec Engine.step (Engine.initial 0) closedRun).done 1 = 0 ∧
      (exec Engine.step (Engine.initial 0) closedRun).kept 1 = 0 ∧
      ¬ ExactlyOnce (exec Engine.step (Engine.initial 0) closedRun)) ∧
    (exec Engine.step (Engine.initial 0) overtakenRun).recovered = [1] ∧
      (exec Engine.step (Engine.initial 0) overtakenRun).waiting = [0] ∧
      ¬ ExactlyOnce (exec Engine.step (Engine.initial 0) overtakenRun) := by
  refine ⟨⟨by decide, by decide, by decide, fun h => ?_⟩,
    by decide, by decide, fun h => ?_⟩
  · exact absurd (h.once 1 (by decide)) (by decide)
  · exact absurd h.order (by decide)

end CodeWide.Device
