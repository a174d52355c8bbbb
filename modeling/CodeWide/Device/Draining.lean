import CodeWide.Device.Accounts

/-!
# Taking calls out of the collections

A call leaves its collection alone, by a response or a timer, or with all the others.
-/

namespace CodeWide.Device

open Lib List LinkedMap

namespace Engine

lemma tally_erase {ν : Type} {m : LinkedMap String ν} {key : String} {v : ν}
    (h : m.get? key = some v) (call : ν → Nat) (c : Nat) :
    tally (m.values.map call) c = unit (call v) c + tally ((m.erase key).values.map call) c := by
  have hperm := (values_perm_of_get? h).map call
  rw [map_cons] at hperm
  rw [← congrFun (tally_cons (call v) ((m.erase key).values.map call)) c]
  exact congrArg Int.ofNat (hperm.count_eq c)

namespace Inv

variable {off : Nat → Int} {exempt : Timer → Prop} {s : Engine}

lemma shrink (h : Inv off exempt s) {rpcs responses : LinkedMap String PendingRpc}
    {deferred : LinkedMap String DeferredRpc} (hrpcs : rpcs.entries.Sublist s.pendingRpcs.entries)
    (hresp : responses.entries.Sublist s.pendingServerResponses.entries)
    (hdeferred : deferred.entries.Sublist s.deferredRpcs.entries) {off' : Nat → Int}
    (hoff : ∀ c, tally (callsOf s.pendingRpcs) c + tally (callsOf s.pendingServerResponses) c +
      tally s.waiting c - off c = tally (callsOf rpcs) c + tally (callsOf responses) c +
        tally (deferred.values.map (fun d => d.call)) c - off' c) :
    Inv off' exempt { s with
        pendingRpcs := rpcs
        pendingServerResponses := responses
        deferredRpcs := deferred } := by
  have hwait : (deferred.values.map (fun d => d.call)).Sublist s.waiting :=
    (hdeferred.map Prod.snd).map _
  have hqueue := (List.Sublist.refl s.recovered).append hwait
  refine ⟨fun e he => h.rpcs e (hrpcs.mem he), fun e he => h.responses e (hresp.mem he),
    fun e he => h.deferred e (hdeferred.mem he), hdeferred.length_le.trans h.room,
    h.order.sublist hqueue, fun c hc => h.below c (hqueue.mem hc), fun t ht => h.armed t ?_,
    fun c => ?_⟩
  · exact (((hrpcs.map _).append (hresp.map _)).append (hdeferred.map _)).mem ht
  have hbal := h.balance c
  have hkept := hoff c
  change (s.done c : Int) + ((((callsOf rpcs).count c + (callsOf responses).count c +
    (deferred.values.map (fun d => d.call)).count c : Nat)) : Int) =
      (if c < s.made then 1 else 0) + off' c
  unfold kept at hbal
  unfold tally at hkept
  omega

lemma unexempt {gone : Timer → Prop} (h : Inv off (fun t => exempt t ∨ gone t) s)
    (hgone : ∀ t ∈ s.timers, ¬ gone t) : Inv off exempt s :=
  ⟨h.rpcs, h.responses, h.deferred, h.room, h.order, h.below,
    fun t ht => (h.armed t ht).imp (fun hor => hor.resolve_right (hgone t ht)) id, h.balance⟩

lemma eraseRpc {id : String} {p : PendingRpc} (h : Inv off (fun t => exempt t ∨ t = .rpc id) s)
    (hp : s.pendingRpcs.get? id = some p) :
    Inv (fun c => off c - unit p.call c) exempt
      { s with pendingRpcs := s.pendingRpcs.erase id } := by
  refine (h.shrink (entries_erase_sublist _ id) (.refl _) (.refl _) (fun c => ?_)).unexempt ?_
  · have hcount := tally_erase hp PendingRpc.call c
    change tally (callsOf _) c = _ + tally (callsOf _) c at hcount
    change _ = _ + _ + tally s.waiting c - (off c - unit p.call c)
    omega
  · rintro t ht rfl
    exact rpc_mem_timers.mp ht (get?_erase_self _ id)

lemma eraseServerResponse {key : String} {p : PendingRpc}
    (h : Inv off (fun t => exempt t ∨ t = .serverResponse key) s)
    (hp : s.pendingServerResponses.get? key = some p) :
    Inv (fun c => off c - unit p.call c) exempt
      { s with pendingServerResponses := s.pendingServerResponses.erase key } := by
  refine (h.shrink (.refl _) (entries_erase_sublist _ key) (.refl _) (fun c => ?_)).unexempt ?_
  · have hcount := tally_erase hp PendingRpc.call c
    change tally (callsOf _) c = _ + tally (callsOf _) c at hcount
    change _ = _ + _ + tally s.waiting c - (off c - unit p.call c)
    omega
  · rintro t ht rfl
    exact serverResponse_mem_timers.mp ht (get?_erase_self _ key)

lemma eraseDeferred {id : String} {d : DeferredRpc}
    (h : Inv off (fun t => exempt t ∨ t = .deferred id) s) (hd : s.deferredRpcs.get? id = some d) :
    Inv (fun c => off c - unit d.call c) exempt
      { s with deferredRpcs := s.deferredRpcs.erase id } := by
  refine (h.shrink (.refl _) (.refl _) (entries_erase_sublist _ id) (fun c => ?_)).unexempt ?_
  · have hcount := tally_erase hd (fun d => d.call) c
    change tally s.waiting c = _ at hcount
    omega
  · rintro t ht rfl
    exact deferred_mem_timers.mp ht (get?_erase_self _ id)

lemma clearRpcs (h : Inv (fun c => off c + tally (callsOf s.pendingRpcs) c)
      (fun t => exempt t ∨ ∃ id, t = .rpc id) s) : Inv off exempt { s with pendingRpcs := ∅ } := by
  refine (h.shrink (nil_sublist _) (.refl _) (.refl _) (fun c => ?_)).unexempt ?_
  · change _ = tally [] c + _ + tally s.waiting c - off c
    have hnone : tally [] c = 0 := rfl
    omega
  · rintro t ht ⟨id, rfl⟩
    exact rpc_mem_timers.mp ht rfl

lemma clearServerResponses (h : Inv (fun c => off c + tally (callsOf s.pendingServerResponses) c)
      (fun t => exempt t ∨ ∃ key, t = .serverResponse key) s) :
    Inv off exempt { s with pendingServerResponses := ∅ } := by
  refine (h.shrink (.refl _) (nil_sublist _) (.refl _) (fun c => ?_)).unexempt ?_
  · change _ = _ + tally [] c + tally s.waiting c - off c
    have hnone : tally [] c = 0 := rfl
    omega
  · rintro t ht ⟨key, rfl⟩
    exact serverResponse_mem_timers.mp ht rfl

lemma clearDeferred
    (h : Inv (fun c => off c + tally s.waiting c) (fun t => exempt t ∨ ∃ id, t = .deferred id) s) :
    Inv off exempt { s with deferredRpcs := ∅ } := by
  refine (h.shrink (.refl _) (.refl _) (nil_sublist _) (fun c => ?_)).unexempt ?_
  · change _ = _ + _ + tally [] c - off c
    have hnone : tally [] c = 0 := rfl
    omega
  · rintro t ht ⟨id, rfl⟩
    exact deferred_mem_timers.mp ht rfl

end Inv

section Rejecting

variable {off : Nat → Int} {exempt : Timer → Prop} {s t : Engine} {α : Type}
  {timer : α → Timer} {call : α → Nat} {completion : α → Completion} {failure : Outcome}

def reject (timer : α → Timer) (call : α → Nat) (completion : α → Completion) (failure : Outcome)
    (s : Engine) (a : α) : Engine :=
  (s.removeCallbacks (timer a)).complete (call a) (completion a) failure

lemma Inv.foldl_reject (h : Inv off exempt s) {l : List α} (hexempt : ∀ a ∈ l, exempt (timer a)) :
    Inv (fun c => off c + tally (l.map call) c) exempt
      (l.foldl (reject timer call completion failure) s) := by
  induction l generalizing off s with
  | nil => exact h.congr_off (fun c => (Int.add_zero (off c)).symm)
  | cons a rest ih =>
  have hfirst := (h.removeCallbacks (fun _ => hexempt a mem_cons_self)).complete (call a)
    (completion a) failure
  have hrest := ih hfirst (fun b hb => hexempt b (mem_cons_of_mem a hb))
  refine hrest.congr_off (fun c => ?_)
  rw [map_cons, congrFun (tally_cons (call a) (rest.map call)) c]
  omega

lemma Idle.complete (h : Idle t s) (call : Nat) (completion : Completion) (outcome : Outcome) :
    Idle t (s.complete call completion outcome) :=
  Idle.performAll (s := s.note call outcome) h (completion outcome)

lemma Idle.foldl_reject (h : Idle t s) (l : List α) :
    Idle t (l.foldl (reject timer call completion failure) s) := by
  induction l generalizing s with
  | nil => exact h
  | cons a rest ih =>
    have hrem : Idle t (s.removeCallbacks (timer a)) := h
    exact ih (hrem.complete (call a) (completion a) failure)

lemma Inv.rejectInFlight (h : Inv off exempt s) (hdown : s.upstreamLive = false)
    (message : String) :
    Inv off exempt (s.rejectInFlight message) ∧ (s.rejectInFlight message).upstreamLive = false := by
  set failure := Outcome.failure message
  set s₁ := s.pendingRpcs.values.foldl (rejectPending failure) s with hs₁
  have hidle : Idle s s₁ := Idle.foldl_reject ⟨hdown, rfl, rfl⟩ _
  have hrpcs : Inv off exempt { s₁ with pendingRpcs := ∅ } := by
    refine Inv.clearRpcs ?_
    rw [hidle.2.1]
    refine Inv.foldl_reject (h.exempting (fun t ht => .inl ht)) (fun p hp => .inr ?_)
    obtain ⟨id, hmem⟩ := mem_values.mp hp
    exact ⟨id, (h.rpcs _ hmem).1⟩
  set s₂ : Engine := { s₁ with pendingRpcs := ∅ } with hs₂
  set s₃ := s₂.pendingServerResponses.values.foldl (rejectPending failure) s₂ with hs₃
  have hdown₂ : s₂.upstreamLive = false := hidle.1
  have hidle' : Idle s₂ s₃ := Idle.foldl_reject ⟨hdown₂, rfl, rfl⟩ _
  have hresp : Inv off exempt { s₃ with pendingServerResponses := ∅ } := by
    refine Inv.clearServerResponses ?_
    rw [hidle'.2.2]
    refine Inv.foldl_reject (hrpcs.exempting (fun t ht => .inl ht)) (fun p hp => .inr ?_)
    obtain ⟨key, hmem⟩ := mem_values.mp hp
    exact ⟨key, hrpcs.responses _ hmem⟩
  exact ⟨hresp, hidle'.1⟩

end Rejecting

mutual

/-- Without the upstream the action puts no call into the queue, which is full or not. -/
def Quiet (full : Bool) : Action → Prop
  | .rpc method _ _ completion =>
    if isEphemeral method then QuietAll full (completion notLive)
    else full = true ∧ QuietAll full (completion queueFull)
  | .respondToServerRequest _ _ completion => QuietAll full (completion notLive)
  | .snapshotFailed => True

def QuietAll (full : Bool) : List Action → Prop
  | [] => True
  | action :: rest => Quiet full action ∧ QuietAll full rest

end

/-- Whether the queue takes no more calls. -/
def full (s : Engine) : Bool := decide (maxDeferredRpcs ≤ s.deferredRpcs.size)

def Still (t s : Engine) : Prop := s.upstreamLive = false ∧ s.deferredRpcs = t.deferredRpcs

lemma quiet_rpc {t s : Engine} (h : Still t s) {method : String} {params : Json} {timeoutMs : Nat}
    {completion : Completion} (hquiet : Quiet t.full (.rpc method params timeoutMs completion)) :
    ∃ outcome, s.rpc method params timeoutMs completion =
      ({ s with made := s.made + 1 }, some outcome) ∧ QuietAll t.full (completion outcome) := by
  unfold Quiet at hquiet
  unfold rpc
  dsimp only
  rw [if_pos (by simp [h.1])]
  cases hmeth : isEphemeral method with
  | true =>
    rw [if_pos hmeth] at hquiet
    exact ⟨notLive, if_pos rfl, hquiet⟩
  | false =>
  rw [if_neg (by simp [hmeth])] at hquiet
  have hfull : maxDeferredRpcs ≤ s.deferredRpcs.size := by
    rw [h.2]
    exact of_decide_eq_true hquiet.1
  refine ⟨queueFull, ?_, hquiet.2⟩
  rw [if_neg (by simp)]
  exact if_pos hfull

lemma respondToServerRequest_of_down {s : Engine} (hdown : s.upstreamLive = false)
    (requestId : RequestId) (result : Json) (completion : Completion) :
    s.respondToServerRequest requestId result completion =
      ({ s with made := s.made + 1 }, some notLive) := by
  unfold respondToServerRequest
  dsimp only
  rw [if_pos (by simp [hdown])]

lemma Still.performAll {t s : Engine} (h : Still t s) {actions : List Action}
    (hquiet : QuietAll t.full actions) : Still t (performAll s actions) := by
  induction s, actions using performAll.induct
    (fun s action => Still t s → Quiet t.full action → Still t (perform s action)) with
  | case1 s method params timeoutMs completion next outcome heq ih hs hq =>
    have hmade : Still t { s with made := s.made + 1 } := hs
    obtain ⟨failure, hrpc, hnext⟩ := quiet_rpc hs hq
    rw [perform, heq]
    obtain ⟨rfl, hsome⟩ := Prod.mk.inj (hrpc.symm.trans heq)
    cases hsome
    exact ih hmade hnext
  | case2 s method params timeoutMs completion next heq hs hq =>
    obtain ⟨failure, hrpc, -⟩ := quiet_rpc hs hq
    cases (Prod.mk.inj (hrpc.symm.trans heq)).2
  | case3 s requestId result completion next outcome heq ih hs hq =>
    have hmade : Still t { s with made := s.made + 1 } := hs
    have hrespond := respondToServerRequest_of_down hs.1 requestId result completion
    rw [perform, heq]
    obtain ⟨rfl, hsome⟩ := Prod.mk.inj (hrespond.symm.trans heq)
    cases hsome
    exact ih hmade hq
  | case4 s requestId result completion next heq hs hq =>
    have hrespond := respondToServerRequest_of_down hs.1 requestId result completion
    cases (Prod.mk.inj (hrespond.symm.trans heq)).2
  | case5 s hs hq => exact ⟨rfl, hs.2⟩
  | case6 s => exact h
  | case7 s action rest ih ih' => exact ih' (ih h hquiet.1) hquiet.2

/-- No completion of a waiting call puts a call into the queue. -/
def Silent (s : Engine) (failure : Outcome) : Prop :=
  ∀ d ∈ s.deferredRpcs.values, QuietAll s.full (d.completion failure)

lemma Still.foldl_rejectWaiting {t s : Engine} {failure : Outcome} (h : Still t s)
    {l : List DeferredRpc} (hquiet : ∀ d ∈ l, QuietAll t.full (d.completion failure)) :
    Still t (l.foldl (rejectWaiting failure) s) := by
  induction l generalizing s with
  | nil => exact h
  | cons d rest ih =>
  have hnoted : Still t ((s.removeCallbacks d.liveTimeout).note d.call failure) := h
  exact ih (hnoted.performAll (hquiet d mem_cons_self))
    (fun e he => hquiet e (mem_cons_of_mem d he))

lemma Inv.rejectDeferred {off : Nat → Int} {exempt : Timer → Prop} {s : Engine}
    (h : Inv off exempt s) (hdown : s.upstreamLive = false) {message : String}
    (hsilent : Silent s (.failure message)) : Inv off exempt (s.rejectDeferred message) := by
  set s₁ := s.deferredRpcs.values.foldl (rejectWaiting (.failure message)) s with hs₁
  have hstill : Still s s₁ := Still.foldl_rejectWaiting ⟨hdown, rfl⟩ hsilent
  refine Inv.clearDeferred (s := s₁) ?_
  rw [waiting, hstill.2]
  refine Inv.foldl_reject (h.exempting (fun t ht => .inl ht)) (fun d hd => .inr ?_)
  obtain ⟨id, hmem⟩ := mem_values.mp hd
  exact ⟨id, (h.deferred _ hmem).1⟩

/-- The flush has the calls of `rest` before it; after one that could not be sent none is. -/
structure Flushing (drawn : Nat) (rest : List DeferredRpc) (s : Engine) : Prop where
  inv : Inv (fun c => -tally (rest.map (fun d => d.call)) c) (fun _ => False) s
  queued : ∀ d ∈ rest, (∃ n ≤ drawn, d.liveTimeout = .deferred (deferredId n)) ∧
    isEphemeral d.method = false ∧ d.call < s.made
  again : ∀ e ∈ s.deferredRpcs.entries, ∃ n > drawn, e.1 = deferredId n
  ids : drawn ≤ s.requestIds
  order : (s.recovered ++ s.waiting ++ rest.map (fun d => d.call)).Pairwise (· < ·)
  room : s.deferredRpcs.size + rest.length ≤ maxDeferredRpcs
  failed : s.waiting = [] ∨ ∀ answer ∈ s.sends.take rest.length, answer = false
  answers : (s.sends.take rest.length).Pairwise (fun earlier later => later = true → earlier = true)

namespace Flushing

variable {drawn : Nat} {d : DeferredRpc} {rest : List DeferredRpc} {s : Engine}

lemma removed (h : Flushing drawn (d :: rest) s) :
    Flushing drawn (d :: rest) (s.removeCallbacks d.liveTimeout) := by
  refine ⟨h.inv.removeCallbacks (fun hmem => ?_), h.queued, h.again, h.ids, h.order, h.room,
    h.failed, h.answers⟩
  obtain ⟨⟨n, hn, htimer⟩, -, -⟩ := h.queued d mem_cons_self
  rw [htimer, deferred_mem_timers, Ne, get?_eq_none_iff, not_not] at hmem
  obtain ⟨e, he, hid⟩ := mem_map.mp hmem
  obtain ⟨m, hm, hkey⟩ := h.again e he
  have heq := deferredId_inj (hkey.symm.trans hid)
  omega

lemma between (h : Flushing drawn (d :: rest) s) :
    (∀ c ∈ s.recovered ++ s.waiting, c < d.call) ∧ ∀ c ∈ rest.map (fun d => d.call), d.call < c := by
  obtain ⟨-, hrest, hcross⟩ := pairwise_append.mp h.order
  exact ⟨fun c hc => hcross c hc d.call mem_cons_self, fun c hc => (pairwise_cons.mp hrest).1 c hc⟩

lemma balance_cons (d : DeferredRpc) (rest : List DeferredRpc) (c : Nat) :
    -tally ((d :: rest).map (fun d => d.call)) c + unit d.call c =
      -tally (rest.map (fun d => d.call)) c := by
  rw [map_cons, congrFun (tally_cons d.call (rest.map (fun d => d.call))) c]
  omega

lemma sent (h : Flushing drawn (d :: rest) s) (hsend : s.sends.head? = some true) :
    Flushing drawn rest (s.dispatched d.toRpc true) := by
  obtain ⟨hbef, hbeh⟩ := h.between
  obtain ⟨answers, hans⟩ : ∃ answers, s.sends = true :: answers := by
    obtain ⟨answers, h⟩ := head?_eq_some_iff.mp hsend
    exact ⟨answers, h⟩
  have hwait : s.waiting = [] := by
    refine h.failed.resolve_right (fun hfail => ?_)
    rw [hans] at hfail
    cases hfail true mem_cons_self
  have hrecov : (s.dispatched d.toRpc true).recovered = s.recovered ++ [d.call] :=
    recovered_dispatched s d.toRpc true
  refine ⟨?_, fun e he => h.queued e (mem_cons_of_mem d he), h.again, Nat.le_succ_of_le h.ids,
    ?_, ?_, .inl hwait, ?_⟩
  · refine (h.inv.dispatched (h.queued d mem_cons_self).2.2 (fun _ => ⟨?_, ?_⟩)).congr_off
      (balance_cons d rest)
    · exact fun c hc => hbef c (mem_append_left _ hc)
    · rw [hwait]
      exact fun c hc => (nomatch hc)
  · change ((s.dispatched d.toRpc true).recovered ++ s.waiting ++ _).Pairwise (· < ·)
    have horder := h.order
    rw [hwait, append_nil] at horder
    rw [hrecov, hwait, append_nil, append_assoc]
    exact horder
  · have hroom := h.room
    rw [length_cons] at hroom
    change s.deferredRpcs.size + rest.length ≤ maxDeferredRpcs
    omega
  have hrest := h.answers
  rw [hans, length_cons, take_succ_cons] at hrest
  change (s.sends.tail.take rest.length).Pairwise _
  rw [hans]
  exact (pairwise_cons.mp hrest).2

lemma requeued (h : Flushing drawn (d :: rest) s) (hsend : s.sends.head? ≠ some true) :
    Flushing drawn rest ((s.unsent d.toRpc).enqueued d.toRpc) := by
  obtain ⟨hbef, hbeh⟩ := h.between
  obtain ⟨-, hmeth, hmade⟩ := h.queued d mem_cons_self
  have hroom := h.room
  rw [length_cons] at hroom
  have hunsent := h.inv.unsent d.toRpc
  have hfresh := hunsent.fresh_deferred
  have hwait : ((s.unsent d.toRpc).enqueued d.toRpc).waiting = s.waiting ++ [d.call] :=
    waiting_enqueued hfresh d.toRpc
  have hfalse : ∀ answer ∈ s.sends.tail.take rest.length, answer = false := by
    have hrest := h.answers
    cases hsends : s.sends with
    | nil =>
      rw [tail_nil, take_nil]
      exact fun answer hansw => (nomatch hansw)
    | cons first answers =>
    rw [hsends] at hsend
    rw [hsends, length_cons, take_succ_cons] at hrest
    intro answer hansw
    cases answer with
    | false => rfl
    | true => exact absurd (congrArg some ((pairwise_cons.mp hrest).1 true hansw rfl)) hsend
  refine ⟨?_, fun e he => h.queued e (mem_cons_of_mem d he), fun e he => ?_,
    Nat.le_succ_of_le (Nat.le_succ_of_le h.ids), ?_, ?_, .inr hfalse, ?_⟩
  · have hsize : (s.unsent d.toRpc).deferredRpcs.size < maxDeferredRpcs := by
      change s.deferredRpcs.size < maxDeferredRpcs
      omega
    exact (hunsent.enqueued hsize hmeth hbef hmade).congr_off (balance_cons d rest)
  · change e ∈ ((s.unsent d.toRpc).deferredRpcs.put _ _).entries at he
    rw [entries_put_of_new _ hfresh] at he
    rcases mem_concat.mp he with he | rfl
    · exact h.again e he
    · have hids := h.ids
      exact ⟨s.requestIds + 1 + 1, by omega, rfl⟩
  · change (s.recovered ++ ((s.unsent d.toRpc).enqueued d.toRpc).waiting ++ _).Pairwise (· < ·)
    have horder := h.order
    rw [map_cons] at horder
    rw [hwait]
    simpa only [append_assoc, singleton_append, nil_append] using horder
  · change ((s.unsent d.toRpc).deferredRpcs.put _ _).size + rest.length ≤ maxDeferredRpcs
    rw [size_put_of_new _ hfresh]
    change s.deferredRpcs.size + 1 + rest.length ≤ maxDeferredRpcs
    omega
  refine List.Pairwise.imp_of_mem ?_ (pairwise_of_forall (R := fun _ _ => True) (fun _ _ => trivial))
  intro earlier later _ hlater _ htrue
  rw [hfalse later hlater] at htrue
  cases htrue

lemma next (h : Flushing drawn (d :: rest) s) : Flushing drawn rest (s.dispatchDeferred d) := by
  have hrem := h.removed
  unfold dispatchDeferred
  rcases dispatchRpc_cases (s.removeCallbacks d.liveTimeout) d.toRpc true with
    ⟨hsend, heq⟩ | ⟨hsend, heq⟩
  · rw [heq]
    exact hrem.sent hsend
  have hroom := h.room
  rw [length_cons] at hroom
  have hplace : ((s.removeCallbacks d.liveTimeout).unsent d.toRpc).deferRpc d.toRpc =
      (((s.removeCallbacks d.liveTimeout).unsent d.toRpc).enqueued d.toRpc, none) := by
    refine if_neg ?_
    change ¬ s.deferredRpcs.size ≥ maxDeferredRpcs
    omega
  rw [heq, if_neg (by simp [(h.queued d mem_cons_self).2.1]), hplace]
  exact hrem.requeued hsend

lemma foldl (h : Flushing drawn rest s) : Flushing drawn [] (rest.foldl dispatchDeferred s) := by
  induction rest generalizing s with
  | nil => exact h
  | cons d rest ih => exact ih h.next

end Flushing

/-- The waiting calls are sent or wait again in their order. -/
lemma Inv.dispatchDeferredRpcs {s : Engine} (h : Inv (fun _ => 0) (fun _ => False) s)
    (hans : s.upstreamLive = true → (s.sends.take s.deferredRpcs.size).Pairwise
      (fun earlier later => later = true → earlier = true)) :
    Inv (fun _ => 0) (fun _ => False) s.dispatchDeferredRpcs := by
  unfold Engine.dispatchDeferredRpcs
  split
  · exact h
  rename_i hflush
  have hlive : s.upstreamLive = true := by
    cases hlive : s.upstreamLive with
    | true => rfl
    | false => exact absurd (by simp [hlive]) hflush
  have hlen : s.deferredRpcs.values.length = s.deferredRpcs.size := length_map _
  have hstart : Flushing s.requestIds s.deferredRpcs.values { s with deferredRpcs := ∅ } := by
    refine ⟨?_, fun d hd => ?_, fun e he => (nomatch he), le_rfl, ?_, ?_, .inl rfl, ?_⟩
    · refine Inv.clearDeferred ?_
      refine (h.exempting (fun t ht => ht.elim)).congr_off (fun c => ?_)
      exact (Int.add_left_neg _).symm
    · obtain ⟨id, hmem⟩ := mem_values.mp hd
      obtain ⟨htimer, ⟨n, hn, hid⟩, hmeth⟩ := h.deferred _ hmem
      refine ⟨⟨n, hn, htimer.trans (congrArg Timer.deferred hid)⟩, hmeth, ?_⟩
      exact h.below d.call (mem_append_right _ (mem_map_of_mem hd))
    · change (s.recovered ++ [] ++ s.waiting).Pairwise (· < ·)
      rw [append_nil]
      exact h.order
    · have hroom := h.room
      change 0 + s.deferredRpcs.values.length ≤ maxDeferredRpcs
      omega
    · rw [hlen]
      exact hans hlive
  exact hstart.foldl.inv.congr_off (fun c => rfl)

end Engine

end CodeWide.Device
