import CodeWide.Device.Engine
import Mathlib

/-!
# Where every call of the engine is

`Inv` says what the collections of the engine hold, and how many calls are completed and kept.
-/

namespace CodeWide.Device

open Lib List LinkedMap

lemma nativeId_inj {m n : Nat} (h : nativeId m = nativeId n) : m = n :=
  Nat.repr_inj.mp ((String.append_right_inj "native:").mp h)

lemma deferredId_inj {m n : Nat} (h : deferredId m = deferredId n) : m = n :=
  Nat.repr_inj.mp ((String.append_right_inj "deferred:").mp h)

namespace Engine

def callsOf (pending : LinkedMap String PendingRpc) : List Nat := pending.values.map PendingRpc.call

def waiting (s : Engine) : List Nat := s.deferredRpcs.values.map (fun d => d.call)

def recovered (s : Engine) : List Nat := (s.sent.filter SentRpc.deferred).map SentRpc.call

/-- How often the completion of a call was invoked. -/
def done (s : Engine) (call : Nat) : Nat := (s.completed.map Prod.fst).count call

def kept (s : Engine) (call : Nat) : Nat :=
  (callsOf s.pendingRpcs).count call + (callsOf s.pendingServerResponses).count call +
    s.waiting.count call

def timers (s : Engine) : List Timer :=
  s.pendingRpcs.entries.map (fun e => .rpc e.1) ++
    s.pendingServerResponses.entries.map (fun e => .serverResponse e.1) ++
    s.deferredRpcs.entries.map (fun e => .deferred e.1)

def unit (call : Nat) (x : Nat) : Int := if x = call then 1 else 0

def tally (calls : List Nat) (x : Nat) : Int := calls.count x

lemma tally_cons (call : Nat) (calls : List Nat) :
    tally (call :: calls) = fun x => unit call x + tally calls x := by
  funext x
  unfold tally unit
  rw [count_cons]
  by_cases h : call = x
  · subst h
    simp [Int.add_comm]
  · simp [h, Ne.symm h]

lemma rpc_mem_timers {s : Engine} {id : String} :
    Timer.rpc id ∈ s.timers ↔ s.pendingRpcs.get? id ≠ none := by
  rw [Ne, get?_eq_none_iff, not_not]
  simp [timers]

lemma serverResponse_mem_timers {s : Engine} {key : String} :
    Timer.serverResponse key ∈ s.timers ↔ s.pendingServerResponses.get? key ≠ none := by
  rw [Ne, get?_eq_none_iff, not_not]
  simp [timers]

lemma deferred_mem_timers {s : Engine} {id : String} :
    Timer.deferred id ∈ s.timers ↔ s.deferredRpcs.get? id ≠ none := by
  rw [Ne, get?_eq_none_iff, not_not]
  simp [timers]

structure Inv (off : Nat → Int) (exempt : Timer → Prop) (s : Engine) : Prop where
  rpcs : ∀ e ∈ s.pendingRpcs.entries, e.2.timeout = .rpc e.1 ∧ ∃ n ≤ s.requestIds, e.1 = nativeId n
  responses : ∀ e ∈ s.pendingServerResponses.entries, e.2.timeout = .serverResponse e.1
  deferred : ∀ e ∈ s.deferredRpcs.entries, e.2.liveTimeout = .deferred e.1 ∧
    (∃ n ≤ s.requestIds, e.1 = deferredId n) ∧ isEphemeral e.2.method = false
  room : s.deferredRpcs.size ≤ maxDeferredRpcs
  order : (s.recovered ++ s.waiting).Pairwise (· < ·)
  below : ∀ c ∈ s.recovered ++ s.waiting, c < s.made
  armed : ∀ t ∈ s.timers, exempt t ∨ t ∈ s.posted.map Prod.fst
  balance : ∀ c, (s.done c : Int) + s.kept c = (if c < s.made then 1 else 0) + off c

namespace Inv

variable {off : Nat → Int} {exempt : Timer → Prop} {s : Engine}

section

variable (h : Inv off exempt s)
include h

lemma congr_off {off' : Nat → Int} (hoff : ∀ c, off c = off' c) : Inv off' exempt s := by
  rw [← funext hoff]
  exact h

lemma setLive (upstreamLive : Bool) : Inv off exempt { s with upstreamLive } :=
  ⟨h.rpcs, h.responses, h.deferred, h.room, h.order, h.below, h.armed, h.balance⟩

lemma setSends (sends : List Bool) : Inv off exempt { s with sends } :=
  ⟨h.rpcs, h.responses, h.deferred, h.room, h.order, h.below, h.armed, h.balance⟩

lemma exempting {exempt' : Timer → Prop} (hmore : ∀ t, exempt t → exempt' t) : Inv off exempt' s :=
  ⟨h.rpcs, h.responses, h.deferred, h.room, h.order, h.below,
    fun t ht => (h.armed t ht).imp (hmore t) id, h.balance⟩

lemma make : Inv (fun c => off c - unit s.made c) exempt { s with made := s.made + 1 } := by
  refine ⟨h.rpcs, h.responses, h.deferred, h.room, h.order, ?_, h.armed, ?_⟩
  · intro c hc
    have hlt := h.below c hc
    change c < s.made + 1
    omega
  intro c
  have hbal := h.balance c
  change (s.done c : Int) + s.kept c = (if c < s.made + 1 then 1 else 0) + (off c - unit s.made c)
  unfold unit
  split at hbal <;> split <;> split <;> omega

lemma note (call : Nat) (outcome : Outcome) :
    Inv (fun c => off c + unit call c) exempt (s.note call outcome) := by
  refine ⟨h.rpcs, h.responses, h.deferred, h.room, h.order, h.below, h.armed, ?_⟩
  intro c
  have hbal := h.balance c
  have hdone : ((s.note call outcome).done c : Int) = s.done c + unit call c := by
    unfold Engine.done Engine.note unit
    rw [map_append, count_append]
    by_cases hc : c = call
    · subst hc
      simp
    · simp [hc, Ne.symm hc]
  change ((s.note call outcome).done c : Int) + s.kept c =
    (if c < s.made then 1 else 0) + (off c + unit call c)
  rw [hdone]
  omega

lemma removeCallbacks {timer : Timer}
    (htimer : timer ∈ s.timers → exempt timer) : Inv off exempt (s.removeCallbacks timer) := by
  refine ⟨h.rpcs, h.responses, h.deferred, h.room, h.order, h.below, ?_, h.balance⟩
  intro t ht
  by_cases heq : t = timer
  · subst heq
    exact .inl (htimer ht)
  · refine (h.armed t ht).imp id (fun hposted => ?_)
    obtain ⟨e, he, rfl⟩ := mem_map.mp hposted
    exact mem_map_of_mem (mem_filter.mpr ⟨he, decide_eq_true heq⟩)

end

end Inv

def enqueued (s : Engine) (rpc : Rpc) : Engine :=
  let id := deferredId (s.requestIds + 1)
  { s with
    requestIds := s.requestIds + 1
    deferredRpcs := s.deferredRpcs.put id { rpc with liveTimeout := .deferred id }
    posted := s.posted ++ [(.deferred id, rpcLiveWaitTimeoutMs)] }

def dispatched (s : Engine) (rpc : Rpc) (deferred : Bool) : Engine :=
  let id := nativeId (s.requestIds + 1)
  { s with
    requestIds := s.requestIds + 1
    pendingRpcs := s.pendingRpcs.put id ⟨rpc.method, rpc.call, .rpc id, rpc.completion⟩
    posted := s.posted ++ [(.rpc id, rpc.timeoutMs)]
    sends := s.sends.tail
    sent := s.sent ++ [⟨id, rpc.method, rpc.params, rpc.call, deferred⟩] }

def unsent (s : Engine) (rpc : Rpc) : Engine :=
  let id := nativeId (s.requestIds + 1)
  { s with
    requestIds := s.requestIds + 1
    pendingRpcs :=
      (s.pendingRpcs.put id ⟨rpc.method, rpc.call, .rpc id, rpc.completion⟩).erase id
    posted := (s.posted ++ [(Timer.rpc id, rpc.timeoutMs)]).filter (fun e => decide (e.1 ≠ Timer.rpc id))
    upstreamLive := false
    sends := s.sends.tail }

lemma deferRpc_cases (s : Engine) (rpc : Rpc) :
    (maxDeferredRpcs ≤ s.deferredRpcs.size ∧ s.deferRpc rpc = (s, some queueFull)) ∨
      (s.deferredRpcs.size < maxDeferredRpcs ∧ s.deferRpc rpc = (s.enqueued rpc, none)) := by
  unfold deferRpc
  by_cases hfull : s.deferredRpcs.size ≥ maxDeferredRpcs
  · exact .inl ⟨hfull, if_pos hfull⟩
  · exact .inr ⟨Nat.lt_of_not_le hfull, if_neg hfull⟩

lemma dispatchRpc_cases (s : Engine) (rpc : Rpc) (deferred : Bool) :
    (s.sends.head? = some true ∧ s.dispatchRpc rpc deferred = (s.dispatched rpc deferred, none)) ∨
      (s.sends.head? ≠ some true ∧ s.dispatchRpc rpc deferred = if isEphemeral rpc.method then
          (s.unsent rpc, some (.failure "Live control transport interrupted"))
        else (s.unsent rpc).deferRpc rpc) := by
  obtain ⟨requestIds, pending, responses, waiting, live, posted, sends, made, completed, sent,
    answered⟩ := s
  cases sends with
  | nil => exact .inr ⟨by simp, rfl⟩
  | cons answer rest =>
  cases answer with
  | true => exact .inl ⟨rfl, rfl⟩
  | false => exact .inr ⟨by simp, rfl⟩

def responding (s : Engine) (requestId : RequestId) (result : Json) (completion : Completion) :
    Engine :=
  let key := requestKey requestId
  { s with
    made := s.made + 1
    pendingServerResponses := s.pendingServerResponses.put key
      ⟨"serverResponse", s.made, .serverResponse key, completion⟩
    posted := s.posted ++ [(.serverResponse key, rpcTimeoutMs)]
    sends := s.sends.tail
    answered := s.answered ++ [(requestId, result)] }

def unresponded (s : Engine) (requestId : RequestId) (completion : Completion) : Engine :=
  let key := requestKey requestId
  let timeout := Timer.serverResponse key
  { s with
    made := s.made + 1
    pendingServerResponses := (s.pendingServerResponses.put key
      ⟨"serverResponse", s.made, timeout, completion⟩).erase key
    posted := (s.posted ++ [(timeout, rpcTimeoutMs)]).filter (fun e => decide (e.1 ≠ timeout))
    sends := s.sends.tail }

lemma respondToServerRequest_cases (s : Engine) (requestId : RequestId) (result : Json)
    (completion : Completion) :
    (∃ outcome, s.respondToServerRequest requestId result completion =
        ({ s with made := s.made + 1 }, some outcome)) ∨
      (s.upstreamLive = true ∧ s.pendingServerResponses.get? (requestKey requestId) = none ∧
        (s.respondToServerRequest requestId result completion =
            (s.responding requestId result completion, none) ∨
          s.respondToServerRequest requestId result completion =
            (s.unresponded requestId completion, some notLive))) := by
  obtain ⟨requestIds, pending, responses, waiting, live, posted, sends, made, completed, sent,
    answered⟩ := s
  cases live with
  | false => exact .inl ⟨notLive, rfl⟩
  | true =>
  unfold respondToServerRequest
  dsimp only
  by_cases hpend : responses.contains (requestKey requestId) = true
  · exact .inl ⟨_, if_pos hpend⟩
  refine .inr ⟨rfl, ?_, ?_⟩
  · unfold LinkedMap.contains at hpend
    rwa [Option.isSome_iff_ne_none, not_not] at hpend
  rw [if_neg (by simp), if_neg hpend]
  cases sends with
  | nil => exact .inr rfl
  | cons answer rest =>
  cases answer with
  | true => exact .inl rfl
  | false => exact .inr rfl

lemma recovered_dispatched (s : Engine) (rpc : Rpc) (deferred : Bool) :
    (s.dispatched rpc deferred).recovered = s.recovered ++ if deferred then [rpc.call] else [] := by
  unfold recovered dispatched
  rw [filter_append, map_append]
  cases deferred <;> rfl

lemma waiting_enqueued {s : Engine}
    (hfresh : s.deferredRpcs.get? (deferredId (s.requestIds + 1)) = none) (rpc : Rpc) :
    (s.enqueued rpc).waiting = s.waiting ++ [rpc.call] := by
  unfold waiting enqueued
  rw [values_put_of_new _ hfresh, map_append]
  rfl

lemma callsOf_put {pending : LinkedMap String PendingRpc} {key : String} (p : PendingRpc)
    (h : pending.get? key = none) (c : Nat) :
    ((callsOf (pending.put key p)).count c : Int) = (callsOf pending).count c + unit p.call c := by
  unfold callsOf unit
  rw [values_put_of_new p h, map_append, count_append]
  by_cases hc : c = p.call
  · subst hc
    simp
  · simp [hc, Ne.symm hc]

namespace Inv

variable {off : Nat → Int} {exempt : Timer → Prop} {s : Engine}

lemma fresh_native (h : Inv off exempt s) :
    s.pendingRpcs.get? (nativeId (s.requestIds + 1)) = none := by
  rw [get?_eq_none_iff, mem_map]
  rintro ⟨e, he, hkey⟩
  obtain ⟨-, n, hle, hn⟩ := h.rpcs e he
  have heq := nativeId_inj (hn.symm.trans hkey)
  omega

lemma fresh_deferred (h : Inv off exempt s) :
    s.deferredRpcs.get? (deferredId (s.requestIds + 1)) = none := by
  rw [get?_eq_none_iff, mem_map]
  rintro ⟨e, he, hkey⟩
  obtain ⟨-, ⟨n, hle, hn⟩, -⟩ := h.deferred e he
  have heq := deferredId_inj (hn.symm.trans hkey)
  omega

lemma drawn {n requestIds : Nat} (hn : n ≤ requestIds) : n ≤ requestIds + 1 :=
  Nat.le_succ_of_le hn

lemma not_armed_native (h : Inv off exempt s) :
    Timer.rpc (nativeId (s.requestIds + 1)) ∉ s.timers :=
  fun hmem => rpc_mem_timers.mp hmem h.fresh_native

lemma unsent (h : Inv off exempt s) (rpc : Rpc) : Inv off exempt (s.unsent rpc) := by
  have hsame : s.unsent rpc = { s with
        requestIds := s.requestIds + 1
        posted := (s.posted ++ [(Timer.rpc (nativeId (s.requestIds + 1)), rpc.timeoutMs)]).filter
          (fun e => decide (e.1 ≠ Timer.rpc (nativeId (s.requestIds + 1))))
        upstreamLive := false
        sends := s.sends.tail } := by
    unfold Engine.unsent
    dsimp only
    rw [erase_put_of_new _ h.fresh_native]
  rw [hsame]
  refine ⟨fun e he => ?_, h.responses, fun e he => ?_, h.room, h.order, h.below, fun t ht => ?_,
    h.balance⟩
  · obtain ⟨htimer, n, hle, hn⟩ := h.rpcs e he
    exact ⟨htimer, n, drawn hle, hn⟩
  · obtain ⟨htimer, ⟨n, hle, hn⟩, hmeth⟩ := h.deferred e he
    exact ⟨htimer, ⟨n, drawn hle, hn⟩, hmeth⟩
  refine (h.armed t ht).imp id (fun hposted => ?_)
  obtain ⟨e, he, rfl⟩ := mem_map.mp hposted
  refine mem_map_of_mem (mem_filter.mpr ⟨mem_append_left _ he, ?_⟩)
  refine decide_eq_true (fun heq => ?_)
  exact h.not_armed_native (heq ▸ ht)

lemma enqueued (h : Inv off exempt s) {rpc : Rpc} (hroom : s.deferredRpcs.size < maxDeferredRpcs)
    (hmeth : isEphemeral rpc.method = false) (hlast : ∀ c ∈ s.recovered ++ s.waiting, c < rpc.call)
    (hmade : rpc.call < s.made) :
    Inv (fun c => off c + unit rpc.call c) exempt (s.enqueued rpc) := by
  have hfresh := h.fresh_deferred
  have hent := entries_put_of_new
    ({ rpc with liveTimeout := .deferred (deferredId (s.requestIds + 1)) } : DeferredRpc) hfresh
  have hwait := waiting_enqueued hfresh rpc
  have hrecov : (s.enqueued rpc).recovered = s.recovered := rfl
  refine ⟨fun e he => ?_, h.responses, fun e he => ?_, ?_, ?_, ?_, fun t ht => ?_, fun c => ?_⟩
  · obtain ⟨htimer, n, hle, hn⟩ := h.rpcs e he
    exact ⟨htimer, n, drawn hle, hn⟩
  · change e ∈ (s.deferredRpcs.put _ _).entries at he
    rw [hent] at he
    rcases mem_concat.mp he with he | rfl
    · obtain ⟨htimer, ⟨n, hle, hn⟩, hmeth⟩ := h.deferred e he
      exact ⟨htimer, ⟨n, drawn hle, hn⟩, hmeth⟩
    · exact ⟨rfl, ⟨s.requestIds + 1, le_rfl, rfl⟩, hmeth⟩
  · change (s.deferredRpcs.put _ _).size ≤ _
    rw [size_put_of_new _ hfresh]
    exact hroom
  · rw [hwait, hrecov, ← append_assoc]
    refine pairwise_append.mpr ⟨h.order, pairwise_singleton _ _, fun a ha b hb => ?_⟩
    rw [mem_singleton.mp hb]
    exact hlast a ha
  · rw [hwait, hrecov, ← append_assoc]
    intro c hc
    rcases mem_concat.mp hc with hc | hc
    · exact h.below c hc
    · rw [hc]
      exact hmade
  · change t ∈ _ ++ _ ++ (s.deferredRpcs.put _ _).entries.map _ at ht
    change exempt t ∨ t ∈ (s.posted ++ [_]).map Prod.fst
    rw [hent, map_append, ← append_assoc] at ht
    rw [map_append]
    rcases mem_append.mp ht with ht | ht
    · exact (h.armed t ht).imp id (mem_append_left _)
    · exact .inr (mem_append_right _ ht)
  have hbal := h.balance c
  have hcount : ((s.enqueued rpc).waiting.count c : Int) = s.waiting.count c + unit rpc.call c := by
    rw [hwait, count_append]
    unfold unit
    by_cases hc : c = rpc.call
    · subst hc
      simp
    · simp [hc, Ne.symm hc]
  change (s.done c : Int) + ((((callsOf s.pendingRpcs).count c +
    (callsOf s.pendingServerResponses).count c + (s.enqueued rpc).waiting.count c : Nat)) : Int) =
      (if c < s.made then 1 else 0) + (off c + unit rpc.call c)
  unfold kept at hbal
  omega

/-- A call is sent. One that had waited comes behind all that were sent so and before all
that still wait. -/
lemma dispatched (h : Inv off exempt s) {rpc : Rpc} (hmade : rpc.call < s.made) {deferred : Bool}
    (horder : deferred = true → (∀ c ∈ s.recovered, c < rpc.call) ∧ ∀ c ∈ s.waiting, rpc.call < c) :
    Inv (fun c => off c + unit rpc.call c) exempt (s.dispatched rpc deferred) := by
  have hfresh := h.fresh_native
  have hent := entries_put_of_new (⟨rpc.method, rpc.call,
    .rpc (nativeId (s.requestIds + 1)), rpc.completion⟩ : PendingRpc) hfresh
  have hwait : (s.dispatched rpc deferred).waiting = s.waiting := rfl
  have hrecov := recovered_dispatched s rpc deferred
  refine ⟨fun e he => ?_, h.responses, fun e he => ?_, h.room, ?_, ?_, fun t ht => ?_, fun c => ?_⟩
  · change e ∈ (s.pendingRpcs.put _ _).entries at he
    rw [hent] at he
    rcases mem_concat.mp he with he | rfl
    · obtain ⟨htimer, n, hle, hn⟩ := h.rpcs e he
      exact ⟨htimer, n, drawn hle, hn⟩
    · exact ⟨rfl, s.requestIds + 1, le_rfl, rfl⟩
  · obtain ⟨htimer, ⟨n, hle, hn⟩, hmeth⟩ := h.deferred e he
    exact ⟨htimer, ⟨n, drawn hle, hn⟩, hmeth⟩
  · rw [hwait, hrecov]
    cases deferred with
    | false =>
      rw [if_neg (by simp), append_nil]
      exact h.order
    | true =>
    obtain ⟨hsent, hwaits⟩ := horder rfl
    obtain ⟨hleft, hright, hcross⟩ := pairwise_append.mp h.order
    rw [if_pos rfl, append_assoc]
    refine pairwise_append.mpr ⟨hleft, pairwise_cons.mpr ⟨hwaits, hright⟩, ?_⟩
    intro a ha b hb
    rcases mem_cons.mp hb with rfl | hb
    · exact hsent a ha
    · exact hcross a ha b hb
  · rw [hwait, hrecov]
    intro c hc
    rcases mem_append.mp hc with hc | hc
    · rcases mem_append.mp hc with hc | hc
      · exact h.below c (mem_append_left _ hc)
      cases deferred with
      | false => cases hc
      | true =>
        rw [mem_singleton.mp hc]
        exact hmade
    · exact h.below c (mem_append_right _ hc)
  · change t ∈ (s.pendingRpcs.put _ _).entries.map _ ++ _ ++ _ at ht
    change exempt t ∨ t ∈ (s.posted ++ [_]).map Prod.fst
    rw [hent, map_append] at ht
    rw [map_append]
    have hcases : t ∈ s.timers ∨ t = .rpc (nativeId (s.requestIds + 1)) := by
      simp only [mem_append, map_cons, map_nil, mem_singleton] at ht
      simp only [timers, mem_append]
      tauto
    rcases hcases with ht | rfl
    · exact (h.armed t ht).imp id (mem_append_left _)
    · exact .inr mem_concat_self
  have hbal := h.balance c
  have hcount := callsOf_put (⟨rpc.method, rpc.call, .rpc (nativeId (s.requestIds + 1)),
    rpc.completion⟩ : PendingRpc) hfresh c
  change (s.done c : Int) + ((((callsOf (s.pendingRpcs.put _ _)).count c +
    (callsOf s.pendingServerResponses).count c + s.waiting.count c : Nat)) : Int) =
      (if c < s.made then 1 else 0) + (off c + unit rpc.call c)
  unfold kept at hbal
  dsimp only at hcount
  omega

variable {requestId : RequestId}

lemma responding (h : Inv off exempt s)
    (hnew : s.pendingServerResponses.get? (requestKey requestId) = none) (result : Json)
    (completion : Completion) : Inv off exempt (s.responding requestId result completion) := by
  have hmade := h.make
  have hent := entries_put_of_new (⟨"serverResponse", s.made,
    .serverResponse (requestKey requestId), completion⟩ : PendingRpc) hnew
  refine ⟨h.rpcs, fun e he => ?_, h.deferred, h.room, h.order, hmade.below, fun t ht => ?_,
    fun c => ?_⟩
  · change e ∈ (s.pendingServerResponses.put _ _).entries at he
    rw [hent] at he
    rcases mem_concat.mp he with he | rfl
    · exact h.responses e he
    · rfl
  · change t ∈ _ ++ (s.pendingServerResponses.put _ _).entries.map _ ++ _ at ht
    change exempt t ∨ t ∈ (s.posted ++ [_]).map Prod.fst
    rw [hent, map_append] at ht
    rw [map_append]
    have hcases : t ∈ s.timers ∨ t = .serverResponse (requestKey requestId) := by
      simp only [mem_append, map_cons, map_nil, mem_singleton] at ht
      simp only [timers, mem_append]
      tauto
    rcases hcases with ht | rfl
    · exact (h.armed t ht).imp id (mem_append_left _)
    · exact .inr mem_concat_self
  have hbal := hmade.balance c
  have hcount := callsOf_put (⟨"serverResponse", s.made,
    .serverResponse (requestKey requestId), completion⟩ : PendingRpc) hnew c
  change (s.done c : Int) + ((((callsOf s.pendingRpcs).count c +
    (callsOf (s.pendingServerResponses.put _ _)).count c + s.waiting.count c : Nat)) : Int) =
      (if c < s.made + 1 then 1 else 0) + off c
  change (s.done c : Int) + ((((callsOf s.pendingRpcs).count c +
    (callsOf s.pendingServerResponses).count c + s.waiting.count c : Nat)) : Int) =
      (if c < s.made + 1 then 1 else 0) + (off c - unit s.made c) at hbal
  dsimp only at hcount
  omega

lemma unresponded (h : Inv off exempt s)
    (hnew : s.pendingServerResponses.get? (requestKey requestId) = none)
    (completion : Completion) :
    Inv (fun c => off c - unit s.made c) exempt (s.unresponded requestId completion) := by
  have hsame : s.unresponded requestId completion = { s with
        made := s.made + 1
        posted := (s.posted ++ [(Timer.serverResponse (requestKey requestId), rpcTimeoutMs)]).filter
          (fun e => decide (e.1 ≠ Timer.serverResponse (requestKey requestId)))
        sends := s.sends.tail } := by
    unfold Engine.unresponded
    dsimp only
    rw [erase_put_of_new _ hnew]
  have hmade := h.make
  rw [hsame]
  refine ⟨h.rpcs, h.responses, h.deferred, h.room, h.order, hmade.below, fun t ht => ?_,
    hmade.balance⟩
  refine (h.armed t ht).imp id (fun hposted => ?_)
  obtain ⟨e, he, rfl⟩ := mem_map.mp hposted
  refine mem_map_of_mem (mem_filter.mpr ⟨mem_append_left _ he, ?_⟩)
  refine decide_eq_true (fun heq => ?_)
  exact serverResponse_mem_timers.mp (heq ▸ ht) hnew

end Inv

def ended (call : Nat) : Engine × Option Outcome → Engine
  | (next, some outcome) => next.note call outcome
  | (next, none) => next

/-- A call in hand is either kept now or still in hand with its result. -/
def Placed (off : Nat → Int) (exempt : Timer → Prop) (call : Nat) :
    Engine × Option Outcome → Prop
  | (next, some _) => Inv (fun c => off c - unit call c) exempt next
  | (next, none) => Inv off exempt next

section Placing

variable {off : Nat → Int} {exempt : Timer → Prop} {s : Engine}

lemma Placed.ended {call : Nat} {r : Engine × Option Outcome} (h : Placed off exempt call r) :
    Inv off exempt (ended call r) := by
  obtain ⟨next, outcome⟩ := r
  cases outcome with
  | none => exact h
  | some outcome =>
    exact (Inv.note h call outcome).congr_off (fun c => Int.sub_add_cancel (off c) (unit call c))

lemma placed_deferRpc {rpc : Rpc} (h : Inv (fun c => off c - unit rpc.call c) exempt s)
    (hmeth : isEphemeral rpc.method = false) (hlast : ∀ c ∈ s.recovered ++ s.waiting, c < rpc.call)
    (hmade : rpc.call < s.made) : Placed off exempt rpc.call (s.deferRpc rpc) := by
  rcases deferRpc_cases s rpc with ⟨-, heq⟩ | ⟨hroom, heq⟩
  · rw [heq]
    exact h
  · rw [heq]
    exact (h.enqueued hroom hmeth hlast hmade).congr_off
      (fun c => Int.sub_add_cancel (off c) (unit rpc.call c))

lemma placed_dispatchRpc {rpc : Rpc} (h : Inv (fun c => off c - unit rpc.call c) exempt s)
    (hlast : isEphemeral rpc.method = false → ∀ c ∈ s.recovered ++ s.waiting, c < rpc.call)
    (hmade : rpc.call < s.made) : Placed off exempt rpc.call (s.dispatchRpc rpc false) := by
  rcases dispatchRpc_cases s rpc false with ⟨-, heq⟩ | ⟨-, heq⟩
  · rw [heq]
    exact (@Inv.dispatched _ exempt s h rpc hmade false (fun hno => by cases hno)).congr_off
      (fun c => Int.sub_add_cancel (off c) (unit rpc.call c))
  rw [heq]
  cases hmeth : isEphemeral rpc.method with
  | true =>
    rw [if_pos rfl]
    exact h.unsent rpc
  | false =>
    rw [if_neg (by simp)]
    exact placed_deferRpc (h.unsent rpc) hmeth (hlast hmeth) hmade

lemma placed_rpc (h : Inv off exempt s) (method : String) (params : Json) (timeoutMs : Nat)
    (completion : Completion) :
    Placed off exempt s.made (s.rpc method params timeoutMs completion) := by
  have hmade := h.make
  have hlast : ∀ c ∈ s.recovered ++ s.waiting, c < s.made := h.below
  unfold rpc
  dsimp only
  by_cases hlive : s.upstreamLive = true
  · rw [if_neg (by simp [hlive])]
    exact @placed_dispatchRpc off exempt _ ⟨method, params, effectiveTimeoutMs method timeoutMs,
      s.made, completion⟩ hmade (fun _ => hlast) (Nat.lt_succ_self _)
  rw [if_pos (by simp [hlive])]
  cases hmeth : isEphemeral method with
  | true =>
    rw [if_pos rfl]
    exact hmade
  | false =>
  rw [if_neg (by simp)]
  exact @placed_deferRpc off exempt _ ⟨method, params, effectiveTimeoutMs method timeoutMs,
    s.made, completion⟩ hmade hmeth hlast (Nat.lt_succ_self _)

lemma placed_respondToServerRequest (h : Inv off exempt s) (requestId : RequestId)
    (result : Json) (completion : Completion) :
    Placed off exempt s.made (s.respondToServerRequest requestId result completion) := by
  rcases respondToServerRequest_cases s requestId result completion with
    ⟨outcome, heq⟩ | ⟨-, hnew, heq | heq⟩
  · rw [heq]
    exact h.make
  · rw [heq]
    exact h.responding hnew result completion
  · rw [heq]
    exact h.unresponded hnew completion

end Placing

lemma performAll_preserves {P : Engine → Prop} (hrpc : ∀ s method params timeoutMs completion, P s →
      P (ended s.made (s.rpc method params timeoutMs completion)))
    (hrespond : ∀ s requestId result completion, P s →
      P (ended s.made (s.respondToServerRequest requestId result completion)))
    (hfailed : ∀ s, P s → P { s with upstreamLive := false }) (s : Engine) (actions : List Action)
    (hs : P s) : P (performAll s actions) := by
  induction s, actions using performAll.induct (fun s action => P s → P (perform s action)) with
  | case1 s method params timeoutMs completion next outcome heq ih hs =>
    have hended := hrpc s method params timeoutMs completion hs
    rw [heq] at hended
    rw [perform, heq]
    exact ih hended
  | case2 s method params timeoutMs completion next heq hs =>
    have hended := hrpc s method params timeoutMs completion hs
    rw [heq] at hended
    rw [perform, heq]
    exact hended
  | case3 s requestId result completion next outcome heq ih hs =>
    have hended := hrespond s requestId result completion hs
    rw [heq] at hended
    rw [perform, heq]
    exact ih hended
  | case4 s requestId result completion next heq hs =>
    have hended := hrespond s requestId result completion hs
    rw [heq] at hended
    rw [perform, heq]
    exact hended
  | case5 s hs => exact hfailed s hs
  | case6 s => exact hs
  | case7 s action rest ih ih' => exact ih' (ih hs)

variable {off : Nat → Int} {exempt : Timer → Prop} {s : Engine}

lemma Inv.performAll (h : Inv off exempt s) (actions : List Action) :
    Inv off exempt (performAll s actions) :=
  @performAll_preserves (Inv off exempt) (fun _ method params timeoutMs completion hs =>
      (placed_rpc hs method params timeoutMs completion).ended)
    (fun _ requestId result completion hs =>
      (placed_respondToServerRequest hs requestId result completion).ended)
    (fun _ hs => hs.setLive false) s actions h

lemma Inv.complete (h : Inv off exempt s) (call : Nat) (completion : Completion)
    (outcome : Outcome) :
    Inv (fun c => off c + unit call c) exempt (s.complete call completion outcome) :=
  (h.note call outcome).performAll (completion outcome)

/-- The upstream is down, and the calls in flight are those of `t`. -/
def Idle (t s : Engine) : Prop :=
  s.upstreamLive = false ∧ s.pendingRpcs = t.pendingRpcs ∧
    s.pendingServerResponses = t.pendingServerResponses

variable {t : Engine}

lemma idle_ended {call : Nat} {next : Engine} {outcome : Option Outcome}
    (h : Idle t next) : Idle t (ended call (next, outcome)) := by
  cases outcome <;> exact h

lemma idle_deferRpc (h : Idle t s) (rpc : Rpc) : Idle t (s.deferRpc rpc).1 := by
  rcases deferRpc_cases s rpc with ⟨-, heq⟩ | ⟨-, heq⟩ <;> rw [heq] <;> exact h

lemma idle_rpc (h : Idle t s) (method : String) (params : Json) (timeoutMs : Nat)
    (completion : Completion) : Idle t (s.rpc method params timeoutMs completion).1 := by
  unfold rpc
  dsimp only
  have hmade : Idle t { s with made := s.made + 1 } := h
  rw [if_pos (by simp [h.1])]
  split
  · exact hmade
  · exact idle_deferRpc hmade _

lemma idle_respondToServerRequest (h : Idle t s) (requestId : RequestId)
    (result : Json) (completion : Completion) :
    Idle t (s.respondToServerRequest requestId result completion).1 := by
  rcases respondToServerRequest_cases s requestId result completion with
    ⟨outcome, heq⟩ | ⟨hlive, -, -⟩
  · rw [heq]
    exact h
  · rw [h.1] at hlive
    cases hlive

lemma Idle.performAll (h : Idle t s) (actions : List Action) : Idle t (performAll s actions) :=
  @performAll_preserves (Idle t) (fun _ method params timeoutMs completion hs =>
      idle_ended (idle_rpc hs method params timeoutMs completion))
    (fun _ requestId result completion hs =>
      idle_ended (idle_respondToServerRequest hs requestId result completion))
    (fun _ hs => ⟨rfl, hs.2⟩) s actions h

end Engine

end CodeWide.Device
