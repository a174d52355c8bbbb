import CodeWide.Transport.Outcomes
import Mathlib.Data.List.Nodup

/-!
# Responses, refusals and fences

A response is that of the request sent under its id on the same connection, a refusal means that
nothing was written, and a fence parts the notifications before its response from those after it.
-/

namespace CodeWide.Transport

open Lib List Option

def OrderedUpstreamEvent.value : OrderedUpstreamEvent → Json
  | .notification value => value
  | .fence _ response => response

def Phase.pending : Phase → List PendingUpstreamRequest
  | .connected connection => connection.pending
  | _ => []

def Phase.publishing : Phase → Option Entry
  | .connected connection => connection.publishing
  | _ => none

namespace State

variable {render : Json → String} {s s' : State}

/-- The value answers a request that was written before on the connection that delivered it. -/
def Answers (render : Json → String) (s : State) (token : Nat) (value : Json) : Prop :=
  ∃ sent ∈ s.written, ∃ (id : String) (frame : Nat) (received : Received), sent.token = token ∧
    sent.upstreamId = some id ∧ responseId render value = some id ∧
    s.received[frame]? = some received ∧ received.value = value ∧
    received.generation = sent.generation ∧ sent.seen ≤ frame

def Sent (s : State) (pending : PendingUpstreamRequest) : Prop :=
  ∃ sent ∈ s.written, sent.token = pending.token ∧ sent.upstreamId = some pending.upstreamId ∧
    sent.generation = s.generation ∧ sent.seen ≤ s.received.length

def Source (s : State) (entry : Entry) : Prop :=
  ∃ received, s.received[entry.frame]? = some received ∧
    received.stream = some entry.stream ∧ received.value = entry.event.value

def Notified (s : State) (stream frame : Nat) (value : Json) : Prop :=
  ∃ received, s.received[frame]? = some received ∧ received.stream = some stream ∧
    received.value = value ∧ value.method?.isSome = true

structure Protocol (render : Json → String) (s : State) : Prop where
  once : s.answered.Nodup ∧ ∀ token ∈ s.answered, token ∉ s.inFlight
  accounted : ∀ token < s.next, token ∈ s.answered ∨ token ∈ s.inFlight ∨ token ∈ s.cancelled
  /-- Where no connection is left and nothing is queued, every caller is answered or gone. -/
  atRest : (∀ connection, s.phase ≠ .connected connection) → s.commands = [] → s.admitted = [] →
    ∀ token < s.next, token ∈ s.answered ∨ token ∈ s.cancelled
  responses : ∀ token value, (token, .ok (.response value)) ∈ s.outcomes →
    Answers render s token value
  refusals : ∀ answer ∈ s.outcomes, refuses answer.2 = true →
    ∀ sent ∈ s.written, sent.token ≠ answer.1
  fences : ∀ before after fence, s.ordered = before ++ fence :: after →
    ∀ token response, fence.event = .fence token response →
      Source s fence ∧
      (∀ frame < fence.frame, ∀ value, Notified s fence.stream frame value →
        ⟨fence.stream, frame, .notification value⟩ ∈ before) ∧
      (∀ entry ∈ before, entry.frame < fence.frame) ∧
      ∀ entry ∈ after, fence.frame < entry.frame
  generations : s.connections.Pairwise (fun earlier later => earlier < later)

/-! ## The invariant -/

structure Inv (render : Json → String) (s : State) : Prop where
  waiting : ∀ sent ∈ s.written, ∀ call ∈ s.admitted ++ s.commands, sent.token ≠ call.token
  below : ∀ sent ∈ s.written, sent.token < s.next
  refusals : ∀ answer ∈ s.outcomes, refuses answer.2 = true →
    ∀ sent ∈ s.written, sent.token ≠ answer.1
  pending : ∀ pending ∈ s.phase.pending, Sent s pending
  publishing : ∀ entry, s.phase.publishing = some entry →
    entry.frame + 1 = s.received.length ∧ (∀ other ∈ s.ordered, other.frame < entry.frame) ∧
    Source s entry ∧
    ∀ token value, entry.event = .fence token value → Answers render s token value
  responses : ∀ token value, (token, .ok (.response value)) ∈ s.outcomes →
    Answers render s token value
  sorted : s.ordered.Pairwise (fun earlier later => earlier.frame < later.frame)
  source : ∀ entry ∈ s.ordered, Source s entry
  entered : s.phase ≠ .stopped → ∀ stream frame value, Notified s stream frame value →
    stream ∉ s.dropped → ⟨stream, frame, .notification value⟩ ∈ s.ordered ∨
      s.phase.publishing = some ⟨stream, frame, .notification value⟩
  complete : ∀ entry ∈ s.ordered, ∀ frame < entry.frame, ∀ value,
    Notified s entry.stream frame value → ⟨entry.stream, frame, .notification value⟩ ∈ s.ordered
  current : ∀ generation ∈ s.connections, generation ≤ s.generation
  generations : s.connections.Pairwise (fun earlier later => earlier < later)

variable {token : Nat}

lemma Balanced.accounted (h : Balanced s) (hlt : token < s.next) :
    token ∈ s.answered ∨ token ∈ s.inFlight ∨ token ∈ s.cancelled := by
  by_cases hgone : token ∈ s.cancelled
  · exact .inr (.inr hgone)
  have hcount := h.open_ token hgone
  rw [if_pos hlt] at hcount
  by_cases hansw : 0 < s.answered.count token
  · exact .inl (count_pos_iff.mp hansw)
  · exact .inr (.inl (count_pos_iff.mp (by omega)))

lemma Inv.protocol (h : Inv render s) (hbal : Balanced s) : Protocol render s where
  once := by
    constructor
    · rw [nodup_iff_count_le_one]
      intro token
      by_cases hgone : token ∈ s.cancelled
      · have hcount := (hbal.gone token hgone).2.1
        omega
      · have hcount := hbal.open_ token hgone
        split at hcount <;> omega
    intro token hansw hfly
    rw [← count_pos_iff] at hansw hfly
    by_cases hgone : token ∈ s.cancelled
    · have hcount := (hbal.gone token hgone).2.1
      omega
    · have hcount := hbal.open_ token hgone
      split at hcount <;> omega
  accounted := fun _ hlt => hbal.accounted hlt
  atRest := by
    intro hphase hcmds hadm token hlt
    have hnone : s.inFlight = [] := by
      unfold inFlight
      rw [hcmds, hadm]
      cases hcur : s.phase with
      | connected connection => exact absurd hcur (hphase connection)
      | _ => rfl
    rcases hbal.accounted hlt with hansw | hfly | hgone
    · exact .inl hansw
    · rw [hnone] at hfly
      exact absurd hfly not_mem_nil
    · exact .inr hgone
  responses := h.responses
  refusals := h.refusals
  fences := by
    intro before after fence hord token response _
    have hsort := h.sorted
    rw [hord, pairwise_append] at hsort
    obtain ⟨-, htail, hcross⟩ := hsort
    have hbef : ∀ entry ∈ before, entry.frame < fence.frame :=
      fun entry hentry => hcross entry hentry fence mem_cons_self
    have hafter : ∀ entry ∈ after, fence.frame < entry.frame :=
      fun entry hentry => rel_of_pairwise_cons htail hentry
    have hmem : fence ∈ s.ordered := by
      rw [hord]
      exact mem_append_right _ mem_cons_self
    refine ⟨h.source fence hmem, ?_, hbef, hafter⟩
    intro frame hframe value hnotified
    have hentered := h.complete fence hmem frame hframe value hnotified
    rw [hord, mem_append] at hentered
    rcases hentered with hentered | hentered
    · exact hentered
    rcases mem_cons.mp hentered with heq | hlater
    · rw [← heq] at hframe
      exact absurd hframe (Nat.lt_irrefl _)
    · exact absurd (hafter _ hlater) (Nat.not_lt.mpr (Nat.le_of_lt hframe))
  generations := h.generations

lemma Balanced.once (h : Balanced s) (hfly : token ∈ s.inFlight) :
    token ∉ s.answered ∧ s.inFlight.count token = 1 := by
  rw [← count_pos_iff] at hfly ⊢
  by_cases hgone : token ∈ s.cancelled
  · have hcount := h.gone token hgone
    omega
  · have hcount := h.open_ token hgone
    split at hcount <;> omega

lemma Answers.mono {value : Json} (h : Answers render s token value)
    (hwr : ∀ sent ∈ s.written, sent ∈ s'.written)
    (hrecv : ∀ (frame : Nat) (received : Received), s.received[frame]? = some received →
      s'.received[frame]? = some received) : Answers render s' token value := by
  obtain ⟨sent, hsent, id, frame, received, htoken, hid, hresponse, hframe, hrest⟩ := h
  exact ⟨sent, hwr sent hsent, id, frame, received, htoken, hid, hresponse,
    hrecv frame received hframe, hrest⟩

/-! ## Steps that write and receive nothing -/

structure Still (s s' : State) : Prop where
  written : s'.written = s.written
  received : s'.received = s.received
  ordered : s'.ordered = s.ordered
  connections : s'.connections = s.connections
  generation : s'.generation = s.generation
  dropped : ∀ stream ∈ s.dropped, stream ∈ s'.dropped
  publishing : s'.phase.publishing = s.phase.publishing ∨ s'.phase = .stopped
  stopped : s.phase = .stopped → s'.phase = .stopped

def plain : Outcome → Bool
  | .ok (.response _) => false
  | outcome => !refuses outcome

lemma Inv.of_still (h : Inv render s) (hstill : Still s s')
    (hwait : ∀ sent ∈ s.written, ∀ call ∈ s'.admitted ++ s'.commands, sent.token ≠ call.token)
    (hnext : s.next ≤ s'.next) (hpend : ∀ pending ∈ s'.phase.pending, Sent s pending)
    (hrefusals : ∀ answer ∈ s'.outcomes, refuses answer.2 = true →
      ∀ sent ∈ s.written, sent.token ≠ answer.1)
    (hresp : ∀ token value, (token, .ok (.response value)) ∈ s'.outcomes →
      Answers render s token value) : Inv render s' := by
  obtain ⟨hwr, hrecv, hord, hconns, hgen, hdropped, hpub, hstopped⟩ := hstill
  obtain ⟨_, _, _, _, _, _, _, _, _, _, _, _, _, _, _, _⟩ := s'
  subst hwr hrecv hord hconns hgen
  refine ⟨hwait, fun sent hsent => Nat.lt_of_lt_of_le (h.below sent hsent) hnext, hrefusals,
    hpend, fun entry hentry => ?_, hresp, h.sorted, h.source,
    fun hrunn stream frame value hvalue hopen => ?_, h.complete, h.current, h.generations⟩
  · rcases hpub with hsame | hstop
    · exact h.publishing entry (hsame.symm.trans hentry)
    · rw [hstop] at hentry
      exact absurd hentry (some_ne_none entry).symm
  rcases hpub with hsame | hstop
  · rw [hsame]
    exact h.entered (fun hstop => hrunn (hstopped hstop)) stream frame value hvalue
      (fun hmem => hopen (hdropped stream hmem))
  · exact absurd hstop hrunn

lemma mem_finish {tokens : List Nat} {outcome : Outcome} {answer : Nat × Outcome}
    (h : answer ∈ (s.finish tokens outcome).outcomes) :
    answer ∈ s.outcomes ∨ (answer.1 ∈ tokens ∧ answer.2 = outcome) := by
  rcases mem_append.mp h with hold | hnew
  · exact .inl hold
  · obtain ⟨token, htoken, rfl⟩ := mem_map.mp hnew
    exact .inr ⟨(mem_filter.mp htoken).1, rfl⟩

lemma mem_of_finish {tokens : List Nat} {outcome : Outcome} {answer : Nat × Outcome}
    (h : answer ∈ (s.finish tokens outcome).outcomes) (hnot : answer.2 ≠ outcome) :
    answer ∈ s.outcomes :=
  (mem_finish h).resolve_right fun hnew => hnot hnew.2

lemma Inv.of_plain (h : Inv render s) (hstill : Still s s')
    (hwait : ∀ call ∈ s'.admitted ++ s'.commands, call ∈ s.admitted ++ s.commands)
    (hnext : s'.next = s.next) (hpend : ∀ pending ∈ s'.phase.pending, Sent s pending)
    (tokens : List Nat) {outcome : Outcome} (hplain : plain outcome = true)
    (houts : s'.outcomes = (s.finish tokens outcome).outcomes) : Inv render s' := by
  refine h.of_still hstill ?_ (Nat.le_of_eq hnext.symm) hpend ?_ ?_
  · exact fun sent hsent call hcall => h.waiting sent hsent call (hwait call hcall)
  · intro answer hans href
    rw [houts] at hans
    rcases mem_finish hans with hold | ⟨-, hnew⟩
    · exact h.refusals answer hold href
    rw [← hnew] at hplain
    unfold plain at hplain
    split at hplain
    · exact Bool.noConfusion hplain
    · rw [href] at hplain
      exact Bool.noConfusion hplain
  intro token value hans
  rw [houts] at hans
  rcases mem_finish hans with hold | ⟨-, hnew⟩
  · exact h.responses token value hold
  · rw [← hnew] at hplain
    exact Bool.noConfusion hplain

/-! ## The steps -/

lemma Inv.call (h : Inv render s) (command : UpstreamCommand) : Inv render (s.call command) := by
  unfold State.call
  simp only
  split
  · refine h.of_still ⟨rfl, rfl, rfl, rfl, rfl, fun _ h => h, .inl rfl, fun h => h⟩ ?_
      (Nat.le_succ _) h.pending h.refusals h.responses
    intro sent hsent call hcall
    rcases mem_append.mp hcall with hcall | hcall
    · rcases mem_concat.mp hcall with hcall | hcall
      · exact h.waiting sent hsent call (mem_append_left _ hcall)
      · rw [hcall]
        exact Nat.ne_of_lt (h.below sent hsent)
    · exact h.waiting sent hsent call (mem_append_right _ hcall)
  refine h.of_still ⟨rfl, rfl, rfl, rfl, rfl, fun _ h => h, .inl rfl, fun h => h⟩ h.waiting
    (Nat.le_succ _) h.pending ?_ ?_
  · intro answer hans href sent hsent
    rcases mem_finish hans with hold | ⟨hnew, -⟩
    · exact h.refusals answer hold href sent hsent
    · rw [mem_singleton.mp hnew]
      exact Nat.ne_of_lt (h.below sent hsent)
  intro token value hans
  exact h.responses token value (mem_of_finish hans (by simp))

lemma Inv.submit (h : Inv render s) (i : Nat) : Inv render (s.submit i) := by
  unfold State.submit
  split
  · exact h
  rename_i call hcall
  obtain ⟨before, after, hadm, rfl⟩ := exists_split hcall
  have herased : s.admitted.eraseIdx before.length = before ++ after := by
    rw [hadm, eraseIdx_append_of_length_le le_rfl, Nat.sub_self]
    rfl
  rw [herased]
  have hunsent : ∀ sent ∈ s.written, sent.token ≠ call.token := by
    refine fun sent hsent => h.waiting sent hsent call ?_
    rw [hadm]
    simp
  have hkept : ∀ sent ∈ s.written, ∀ other ∈ before ++ after ++ s.commands,
      sent.token ≠ other.token := by
    intro sent hsent other hother
    refine h.waiting sent hsent other ?_
    rw [hadm]
    simp only [mem_append, mem_cons] at hother ⊢
    tauto
  -- both refusals of the channel
  have hrefu : ∀ error : UpstreamError, Inv render
      (finish { s with admitted := before ++ after } [call.token] (.error error)) := by
    intro error
    refine h.of_still ⟨rfl, rfl, rfl, rfl, rfl, fun _ h => h, .inl rfl, fun h => h⟩ hkept
      le_rfl h.pending ?_ ?_
    · intro answer hans href sent hsent
      rcases mem_finish hans with hold | ⟨hnew, -⟩
      · exact h.refusals answer hold href sent hsent
      · rw [mem_singleton.mp hnew]
        exact hunsent sent hsent
    intro token value hans
    exact h.responses token value (mem_of_finish hans (by simp))
  simp only
  split
  · exact hrefu .reconnecting
  split
  · exact hrefu .backpressure
  refine h.of_still ⟨rfl, rfl, rfl, rfl, rfl, fun _ h => h, .inl rfl, fun h => h⟩ ?_
    le_rfl h.pending h.refusals h.responses
  intro sent hsent other hother
  rw [← append_assoc] at hother
  rcases mem_concat.mp hother with hother | hother
  · exact hkept sent hsent other hother
  · rw [hother]
    exact hunsent sent hsent

lemma Inv.write (h : Inv render s)
    (hwait : ∀ call ∈ s.admitted ++ s.commands, token ≠ call.token) (hbelow : token < s.next)
    (hansw : token ∉ s.answered) (id : Option String) (frame : Json) :
    Inv render (s.write token id frame) := by
  have hold : ∀ sent ∈ s.written, sent ∈ (s.write token id frame).written :=
    fun sent hsent => mem_append_left _ hsent
  have hanswers : ∀ token value, Answers render s token value →
      Answers render (s.write _ id frame) token value :=
    fun token value hans => hans.mono hold (fun _ _ h => h)
  constructor
  · intro sent hsent call hcall
    rcases mem_concat.mp hsent with hsent | hsent
    · exact h.waiting sent hsent call hcall
    · rw [hsent]
      exact hwait call hcall
  · intro sent hsent
    rcases mem_concat.mp hsent with hsent | hsent
    · exact h.below sent hsent
    · rw [hsent]
      exact hbelow
  · intro answer hans href sent hsent
    rcases mem_concat.mp hsent with hsent | hsent
    · exact h.refusals answer hans href sent hsent
    · rw [hsent]
      rintro rfl
      exact hansw (mem_map_of_mem hans)
  · intro pending hpend
    obtain ⟨sent, hsent, hrest⟩ := h.pending pending hpend
    exact ⟨sent, hold sent hsent, hrest⟩
  · intro entry hentry
    obtain ⟨hframe, hlast, hsrc, hfence⟩ := h.publishing entry hentry
    exact ⟨hframe, hlast, hsrc, fun token value hevent =>
      hanswers token value (hfence token value hevent)⟩
  · exact fun token value hans => hanswers token value (h.responses token value hans)
  · exact h.sorted
  · exact h.source
  · exact h.entered
  · exact h.complete
  · exact h.current
  · exact h.generations

section Task

variable {connection : Connection}

section

variable (h : Inv render s)
include h

section

variable (hphase : s.phase = .connected connection)
include hphase

lemma Inv.lose
    (hpub : connection.publishing = none) (tokens : List Nat) (status : ConnectionStatus) :
    Inv render (s.lose tokens status) := by
  refine h.of_plain ⟨rfl, rfl, rfl, rfl, rfl, fun _ h => h, .inl ?_, ?_⟩ (fun _ h => h) rfl
    (fun _ hmem => absurd hmem not_mem_nil) tokens rfl rfl
  · rw [hphase]
    exact hpub.symm
  · intro hstop
    rw [hphase] at hstop
    exact Phase.noConfusion hstop

lemma Inv.goesOn (hpub : connection.publishing = none) (connection' : Connection)
    (hpub' : connection'.publishing = none)
    (hpend : ∀ pending ∈ connection'.pending, Sent s pending) (tokens : List Nat)
    (outcome : Outcome) (hplain : plain outcome = true) :
    Inv render { s.finish tokens outcome with phase := .connected connection' } := by
  refine h.of_plain ⟨rfl, rfl, rfl, rfl, rfl, fun _ h => h, .inl ?_, ?_⟩ (fun _ h => h) rfl
    hpend tokens hplain rfl
  · rw [hphase]
    exact hpub'.trans hpub.symm
  · intro hstop
    rw [hphase] at hstop
    exact Phase.noConfusion hstop

lemma Inv.pending_connected : ∀ pending ∈ connection.pending, Sent s pending := by
  intro pending hmem
  refine h.pending pending ?_
  rw [hphase]
  exact hmem

lemma Inv.outboundRequest (hpub : connection.publishing = none) {token : Nat}
    (hwait : ∀ call ∈ s.admitted ++ s.commands, token ≠ call.token) (hbelow : token < s.next)
    (hansw : token ∉ s.answered) (request : Json) (fenced sent : Bool) :
    Inv render (s.outboundRequest connection token request fenced sent) := by
  unfold State.outboundRequest
  split
  · exact h
  simp only
  split
  · exact h.goesOn hphase hpub { connection with counter := (connection.counter + 1) % 2 ^ 64 } hpub
      (fun pending hmem => h.pending_connected hphase pending hmem) [token]
      (.error (.protocol _)) rfl
  have hwr := h.write hwait hbelow hansw (some (upstreamId ((connection.counter + 1) % 2 ^ 64)))
    (request.insert "id" (.str (upstreamId ((connection.counter + 1) % 2 ^ 64))))
  split
  · let id := upstreamId ((connection.counter + 1) % 2 ^ 64)
    refine hwr.goesOn hphase hpub { connection with
        counter := (connection.counter + 1) % 2 ^ 64
        pending := connection.pending.filter (fun other => !(other.upstreamId == id)) ++
          [⟨id, token, fenced⟩] } hpub ?_ _ (.error .disconnected) rfl
    intro pending hpend
    rcases mem_concat.mp hpend with hold | hnew
    · exact hwr.pending_connected hphase pending (mem_filter.mp hold).1
    · rw [hnew]
      exact ⟨_, mem_concat_self, rfl, rfl, rfl, le_rfl⟩
  · exact hwr.lose hphase hpub _ _

lemma Inv.outboundResponse (hpub : connection.publishing = none) {token : Nat}
    (hwait : ∀ call ∈ s.admitted ++ s.commands, token ≠ call.token) (hbelow : token < s.next)
    (hansw : token ∉ s.answered) (response : Json) (sent : Bool) :
    Inv render (s.outboundResponse connection token response sent) := by
  have hstill (s : State) (tokens : List Nat) (outcome : Outcome) :
      Still s (s.finish tokens outcome) :=
    ⟨rfl, rfl, rfl, rfl, rfl, fun _ h => h, .inl rfl, fun h => h⟩
  unfold State.outboundResponse
  split
  · exact h.of_plain (hstill _ _ _) (fun _ h => h) rfl h.pending [token] rfl rfl
  have hwr := h.write hwait hbelow hansw none response
  simp only
  split
  · exact hwr.of_plain (hstill _ _ _) (fun _ h => h) rfl hwr.pending [token] rfl rfl
  · exact hwr.lose hphase hpub _ _

end

lemma Inv.outbound (hbal : Balanced s)
    (hphase : s.phase = .connected connection) (hpub : connection.publishing = none)
    (sent : Bool) : Inv render (s.outbound connection sent) := by
  unfold State.outbound
  split
  · exact h
  rename_i call rest hcmds
  have hfly : call.token ∈ s.inFlight := by
    unfold inFlight
    rw [hcmds]
    simp
  obtain ⟨hansw, hcount⟩ := hbal.once hfly
  have hwait : ∀ other ∈ s.admitted ++ rest, call.token ≠ other.token := by
    intro other hother heq
    rw [count_inFlight, hcmds, map_cons, count_cons_self] at hcount
    have hpos : 0 < ((s.admitted ++ rest).map (fun call => call.token)).count call.token :=
      count_pos_iff.mpr (heq ▸ mem_map_of_mem hother)
    rw [map_append, count_append] at hpos
    omega
  have hbelow : call.token < s.next := by
    by_contra hnot
    by_cases hgone : call.token ∈ s.cancelled
    · exact hnot (hbal.gone _ hgone).1
    · have hopen := hbal.open_ _ hgone
      rw [if_neg hnot] at hopen
      omega
  have htaken : Inv render { s with commands := rest } := by
    refine h.of_still ⟨rfl, rfl, rfl, rfl, rfl, fun _ h => h, .inl rfl, fun h => h⟩ ?_
      le_rfl h.pending h.refusals h.responses
    intro sent hsent other hother
    refine h.waiting sent hsent other ?_
    rw [hcmds]
    simp only [mem_append, mem_cons] at hother ⊢
    tauto
  simp only
  split
  · exact htaken.outboundRequest hphase hpub hwait hbelow hansw _ _ _
  · exact htaken.outboundResponse hphase hpub hwait hbelow hansw _ _

section

variable (hphase : s.phase = .connected connection)
include hphase

lemma Inv.of_received
    (hpub : connection.publishing = none) {connection' : Connection} {value : Json}
    (hwr : s'.written = s.written)
    (hrecv : s'.received = s.received ++ [⟨s.generation, value, s.stream⟩])
    (hord : s'.ordered = s.ordered) (hconns : s'.connections = s.connections)
    (hgen : s'.generation = s.generation) (hdropped : s'.dropped = s.dropped)
    (hphase' : s'.phase = .connected connection')
    (hwait : s'.admitted ++ s'.commands = s.admitted ++ s.commands) (hnext : s'.next = s.next)
    (hpend : ∀ pending ∈ connection'.pending, pending ∈ connection.pending)
    (hentry : ∀ entry, connection'.publishing = some entry → entry.frame = s.received.length ∧
      s.stream = some entry.stream ∧ entry.event.value = value ∧
      ∀ token response, entry.event = .fence token response → Answers render s' token response)
    (hnotified : value.method?.isSome = true → ∀ stream, s.stream = some stream →
      connection'.publishing = some ⟨stream, s.received.length, .notification value⟩)
    (hrefusals : ∀ answer ∈ s'.outcomes, refuses answer.2 = true → answer ∈ s.outcomes)
    (hresp : ∀ token response, (token, .ok (.response response)) ∈ s'.outcomes →
      (token, .ok (.response response)) ∈ s.outcomes ∨ Answers render s' token response) :
    Inv render s' := by
  obtain ⟨_, _, _, _, _, _, _, _, _, _, _, _, _, _, received, _⟩ := s'
  dsimp only at hrecv hwait
  subst hwr hord hconns hgen hdropped hphase' hnext
  have hlength : received.length = s.received.length + 1 := by
    rw [hrecv, length_append]
    rfl
  have hfrs : ∀ (frame : Nat) (old : Received), s.received[frame]? = some old →
      received[frame]? = some old := by
    intro frame old hframe
    rw [hrecv, getElem?_append_left (List.getElem?_eq_some_iff.mp hframe).1]
    exact hframe
  have hlast : received[s.received.length]? = some ⟨s.generation, value, s.stream⟩ := by
    rw [hrecv, getElem?_append_right le_rfl, Nat.sub_self]
    rfl
  have hbd : ∀ entry ∈ s.ordered, entry.frame < s.received.length := by
    intro entry hmem
    obtain ⟨old, hframe, -⟩ := h.source entry hmem
    exact (List.getElem?_eq_some_iff.mp hframe).1
  refine ⟨fun sent hsent call hcall => h.waiting sent hsent call (hwait ▸ hcall), h.below,
    fun answer hans href => h.refusals answer (hrefusals answer hans href) href,
    fun pending hmem => ?_, fun entry hmem => ?_, fun token response hans => ?_, h.sorted,
    fun entry hmem => ?_, ?_, ?_, h.current, h.generations⟩
  · obtain ⟨sent, hsent, htoken, hid, hsame, hseen⟩ :=
      h.pending_connected hphase pending (hpend pending hmem)
    refine ⟨sent, hsent, htoken, hid, hsame, ?_⟩
    dsimp only
    omega
  · obtain ⟨hframe, hstr, hvalue, hfence⟩ := hentry entry hmem
    refine ⟨by dsimp only; omega, ?_, ?_, hfence⟩
    · rw [hframe]
      exact hbd
    · exact ⟨_, by rw [hframe]; exact hlast, hstr, hvalue.symm⟩
  · rcases hresp token response hans with hold | hnew
    · exact (h.responses token response hold).mono (fun _ hsent => hsent) hfrs
    · exact hnew
  · obtain ⟨old, hframe, hrest⟩ := h.source entry hmem
    exact ⟨old, hfrs _ _ hframe, hrest⟩
  · rintro - stream frame other ⟨old, hframe, hstr, hsame, hmeth⟩ hopen
    dsimp only at hframe
    by_cases hlt : frame < s.received.length
    · have hrunn : s.phase ≠ .stopped := by
        rw [hphase]
        exact Phase.noConfusion
      rw [hrecv, getElem?_append_left hlt] at hframe
      rcases h.entered hrunn stream frame other ⟨old, hframe, hstr, hsame, hmeth⟩ hopen with
        hin | hout
      · exact .inl hin
      · rw [hphase] at hout
        exact absurd (hpub.symm.trans hout) (some_ne_none _).symm
    have hbound := (List.getElem?_eq_some_iff.mp hframe).1
    obtain rfl : frame = s.received.length := by omega
    rw [hlast] at hframe
    obtain rfl := some.inj hframe
    obtain rfl : value = other := hsame
    exact .inr (hnotified hmeth stream hstr)
  rintro entry hmem frame hframe other ⟨old, hold, hrest⟩
  dsimp only at hold
  have hlt := hbd entry hmem
  rw [hrecv, getElem?_append_left (Nat.lt_trans hframe hlt)] at hold
  exact h.complete entry hmem frame hframe other ⟨old, hold, hrest⟩

lemma Inv.receive (hpub : connection.publishing = none) (value : Json) :
    Inv render (s.receive render connection value) := by
  have hnone {p : Entry → Prop} : ∀ entry, connection.publishing = some entry → p entry := by
    intro entry hentry
    rw [hpub] at hentry
    exact absurd hentry (some_ne_none entry).symm
  -- the value is no notification and nobody waits for it
  have hignored (hmeth : ¬ value.method?.isSome = true) :
      Inv render { s with received := s.received ++ [⟨s.generation, value, s.stream⟩] } :=
    h.of_received hphase hpub rfl rfl rfl rfl rfl rfl hphase rfl rfl (fun _ h => h) hnone
      (fun hsome => absurd hsome hmeth) (fun _ h _ => h) (fun _ _ h => .inl h)
  unfold State.receive
  simp only
  split
  · split
    · rename_i hstr
      refine h.of_received hphase hpub rfl rfl rfl rfl rfl rfl hphase rfl rfl (fun _ h => h)
        hnone ?_ (fun _ h _ => h) (fun _ _ h => .inl h)
      intro _ stream hsome
      rw [hstr] at hsome
      exact absurd hsome (some_ne_none stream).symm
    rename_i stream hstr
    refine h.of_received hphase hpub rfl rfl rfl rfl rfl rfl rfl rfl rfl (fun _ h => h) ?_
      ?_ (fun _ h _ => h) (fun _ _ h => .inl h)
    · intro entry hentry
      obtain rfl := some.inj hentry
      exact ⟨rfl, hstr, rfl, fun _ _ hevent => OrderedUpstreamEvent.noConfusion hevent⟩
    intro _ other hother
    rw [hstr] at hother
    obtain rfl := some.inj hother
    rfl
  rename_i hmeth
  split
  · exact hignored hmeth
  rename_i id hid
  split
  · exact hignored hmeth
  rename_i request hfound
  have hreq := mem_of_find?_eq_some hfound
  have hsameId : request.upstreamId = id := by simpa using find?_some hfound
  obtain ⟨sent, hsent, htoken, hsentId, hgen, hseen⟩ :=
    h.pending_connected hphase request hreq
  have hlast : (s.received ++ [⟨s.generation, value, s.stream⟩])[s.received.length]? =
      some ⟨s.generation, value, s.stream⟩ := by
    rw [getElem?_append_right le_rfl, Nat.sub_self]
    rfl
  have hans : ∀ t : State, t.written = s.written →
      t.received = s.received ++ [⟨s.generation, value, s.stream⟩] →
      Answers render t request.token value := by
    intro t hwr hrecv
    refine ⟨sent, by rw [hwr]; exact hsent, id, s.received.length,
      ⟨s.generation, value, s.stream⟩, htoken, by rw [hsentId, hsameId], hid, ?_, rfl,
      hgen.symm, hseen⟩
    rw [hrecv]
    exact hlast
  have hkept : ∀ pending ∈ connection.pending.eraseP (fun pending => pending.upstreamId == id),
      pending ∈ connection.pending := fun pending hmem => mem_of_mem_eraseP hmem
  unfold State.complete
  split
  · refine h.of_received hphase hpub rfl rfl rfl rfl rfl rfl rfl rfl rfl hkept hnone
      (fun hsome => absurd hsome hmeth) ?_ ?_
    · intro answer hmem href
      exact mem_of_finish hmem fun hnew => Bool.noConfusion (hnew ▸ href)
    intro token response hmem
    rcases mem_finish hmem with hold | ⟨htoks, hnew⟩
    · exact .inl hold
    · obtain rfl : token = request.token := mem_singleton.mp htoks
      obtain rfl : response = value := by simpa using hnew
      exact .inr (hans _ rfl rfl)
  split
  · refine h.of_received hphase hpub rfl rfl rfl rfl rfl rfl rfl rfl rfl hkept hnone
      (fun hsome => absurd hsome hmeth) ?_ ?_
    · intro answer hmem href
      exact mem_of_finish hmem fun hnew => Bool.noConfusion (hnew ▸ href)
    intro token response hmem
    exact .inl (mem_of_finish hmem (by simp))
  rename_i stream hstr
  refine h.of_received hphase hpub rfl rfl rfl rfl rfl rfl rfl rfl rfl hkept ?_
    (fun hsome => absurd hsome hmeth) (fun _ h _ => h) (fun _ _ h => .inl h)
  intro entry hentry
  obtain rfl := some.inj hentry
  refine ⟨rfl, hstr, rfl, ?_⟩
  intro token response hevent
  obtain ⟨rfl, rfl⟩ := OrderedUpstreamEvent.fence.inj hevent
  exact hans _ rfl rfl

lemma Inv.of_published {entry : Entry} (hpub : connection.publishing = some entry)
    (hwr : s'.written = s.written) (hrecv : s'.received = s.received)
    (hord : entry.stream ∈ s.dropped ∧ s'.ordered = s.ordered ∨
      entry.stream ∉ s.dropped ∧ s'.ordered = s.ordered ++ [entry])
    (hconns : s'.connections = s.connections) (hgen : s'.generation = s.generation)
    (hdropped : s'.dropped = s.dropped)
    (hphase' : s'.phase = .connected { connection with publishing := none })
    (hwait : s'.admitted ++ s'.commands = s.admitted ++ s.commands) (hnext : s'.next = s.next)
    (hrefusals : ∀ answer ∈ s'.outcomes, refuses answer.2 = true → answer ∈ s.outcomes)
    (hresp : ∀ token response, (token, .ok (.response response)) ∈ s'.outcomes →
      (token, .ok (.response response)) ∈ s.outcomes ∨ entry.event = .fence token response) :
    Inv render s' := by
  have hcur : s.phase.publishing = some entry := by
    rw [hphase]
    exact hpub
  have hrunn : s.phase ≠ .stopped := by
    rw [hphase]
    exact Phase.noConfusion
  obtain ⟨hframe, hlast, hfrom, hfence⟩ := h.publishing entry hcur
  obtain ⟨_, _, _, _, _, _, _, _, _, _, _, _, ordered, _, _, _⟩ := s'
  dsimp only at hord hwait
  subst hwr hrecv hconns hgen hdropped hphase' hnext
  have hold : ∀ other ∈ s.ordered, other ∈ ordered := by
    intro other hother
    rcases hord with ⟨-, rfl⟩ | ⟨-, rfl⟩
    · exact hother
    · exact mem_append_left _ hother
  have hnew : ∀ other ∈ ordered, other ∈ s.ordered ∨ other = entry ∧ entry.stream ∉ s.dropped := by
    intro other hother
    rcases hord with ⟨-, rfl⟩ | ⟨hopen, rfl⟩
    · exact .inl hother
    · rcases mem_concat.mp hother with hother | hother
      · exact .inl hother
      · exact .inr ⟨hother, hopen⟩
  refine ⟨fun sent hsent call hcall => h.waiting sent hsent call (hwait ▸ hcall), h.below,
    fun answer hans href => h.refusals answer (hrefusals answer hans href) href,
    fun pending hmem => h.pending_connected hphase pending hmem,
    fun other hother => absurd hother (some_ne_none other).symm,
    fun token response hans => ?_, ?_, fun other hother => ?_,
    fun _ stream frame value hvalue hopen => ?_, fun other hother frame hlt value hvalue => ?_,
    h.current, h.generations⟩
  · rcases hresp token response hans with hold | hevent
    · exact h.responses token response hold
    · exact hfence token response hevent
  · rcases hord with ⟨-, rfl⟩ | ⟨-, rfl⟩
    · exact h.sorted
    refine pairwise_append.mpr ⟨h.sorted, pairwise_singleton _ _, ?_⟩
    intro other hother last hmem
    rw [mem_singleton.mp hmem]
    exact hlast other hother
  · rcases hnew other hother with hother | ⟨rfl, -⟩
    · exact h.source other hother
    · exact hfrom
  · rcases h.entered hrunn stream frame value hvalue hopen with hin | hout
    · exact .inl (hold _ hin)
    have hentry := some.inj (hcur.symm.trans hout)
    rcases hord with ⟨hgone, -⟩ | ⟨-, rfl⟩
    · rw [hentry] at hgone
      exact absurd hgone hopen
    · rw [← hentry]
      exact .inl mem_concat_self
  rcases hnew other hother with hother | ⟨rfl, hopen⟩
  · exact hold _ (h.complete other hother frame hlt value hvalue)
  rcases h.entered hrunn _ frame value hvalue hopen with hin | hout
  · exact hold _ hin
  · rw [some.inj (hcur.symm.trans hout)] at hlt
    exact absurd hlt (Nat.lt_irrefl _)

lemma Inv.publish {entry : Entry} (hpub : connection.publishing = some entry) :
    Inv render (s.publish connection entry) := by
  unfold State.publish
  simp only
  split
  · rename_i hgone
    split
    · exact h.of_published hphase hpub rfl rfl (.inl ⟨hgone, rfl⟩) rfl rfl rfl rfl rfl rfl
        (fun _ h _ => h) (fun _ _ h => .inl h)
    refine h.of_published hphase hpub rfl rfl (.inl ⟨hgone, rfl⟩) rfl rfl rfl rfl rfl rfl ?_ ?_
    · intro answer hmem href
      exact mem_of_finish hmem fun hnew => Bool.noConfusion (hnew ▸ href)
    intro token response hmem
    exact .inl (mem_of_finish hmem (by simp))
  rename_i hopen
  split
  · exact h.of_published hphase hpub rfl rfl (.inr ⟨hopen, rfl⟩) rfl rfl rfl rfl rfl rfl
      (fun _ h _ => h) (fun _ _ h => .inl h)
  rename_i call value hevent
  refine h.of_published hphase hpub rfl rfl (.inr ⟨hopen, rfl⟩) rfl rfl rfl rfl rfl rfl ?_ ?_
  · intro answer hmem href
    exact mem_of_finish hmem fun hnew => Bool.noConfusion (hnew ▸ href)
  intro token response hmem
  rcases mem_finish hmem with hold | ⟨htoks, hnew⟩
  · exact .inl hold
  · obtain rfl : token = call := mem_singleton.mp htoks
    obtain rfl : response = value := by simpa using hnew
    exact .inr hevent

lemma Inv.cleanup : Inv render (s.cleanup connection) := by
  refine h.of_still ⟨rfl, rfl, rfl, rfl, rfl, fun _ h => h, .inl ?_, ?_⟩ h.waiting
    le_rfl ?_ h.refusals h.responses
  · rw [hphase]
    rfl
  · intro hstop
    rw [hphase] at hstop
    exact Phase.noConfusion hstop
  · intro pending hmem
    exact h.pending_connected hphase pending (mem_filter.mp hmem).1

lemma Inv.inbound (hpub : connection.publishing = none) (frame : Frame) :
    Inv render (s.inbound render connection frame) := by
  cases frame with
  | value value => exact h.receive hphase hpub value
  | ignored => exact h
  | error | closed => exact h.lose hphase hpub _ _

end

end

end Task

section

variable (h : Inv render s)
include h

lemma Inv.connect : Inv render s.connect := by
  unfold State.connect
  split
  · rename_i hphase
    have hrunn : s.phase ≠ .stopped := by
      rw [hphase]
      exact Phase.noConfusion
    have hnone : s.phase.publishing = none := by
      rw [hphase]
      rfl
    constructor
    · exact h.waiting
    · exact h.below
    · exact h.refusals
    · exact fun _ hmem => absurd hmem not_mem_nil
    · exact fun entry hentry => absurd hentry (some_ne_none entry).symm
    · exact h.responses
    · exact h.sorted
    · exact h.source
    · intro _ stream frame value hvalue hopen
      rcases h.entered hrunn stream frame value hvalue hopen with hin | hout
      · exact .inl hin
      · rw [hnone] at hout
        exact absurd hout (some_ne_none _).symm
    · exact h.complete
    · intro generation hmem
      rcases mem_concat.mp hmem with hmem | hmem
      · exact Nat.le_succ_of_le (h.current generation hmem)
      · rw [hmem]
    rw [pairwise_append]
    refine ⟨h.generations, pairwise_singleton _ _, ?_⟩
    intro generation hmem last hlast
    rw [mem_singleton.mp hlast]
    exact Nat.lt_succ_of_le (h.current generation hmem)
  · exact h

/-- Nothing but the phase and what the callers know changes, away from a connection. -/
lemma Inv.of_idle {phase : Phase} (hnone : s.phase.publishing = none)
    (hrunn : s.phase ≠ .stopped) (hphase : phase.publishing = none) (hpend : phase.pending = [])
    (status : ConnectionStatus) : Inv render { s with phase, status } := by
  refine h.of_still ⟨rfl, rfl, rfl, rfl, rfl, fun _ h => h, .inl (hphase.trans hnone.symm),
    fun hstop => absurd hstop hrunn⟩ h.waiting le_rfl ?_ h.refusals h.responses
  intro pending hmem
  rw [hpend] at hmem
  exact absurd hmem not_mem_nil

lemma Inv.reject (hphase : s.phase = .rejecting) : Inv render s.reject := by
  unfold State.reject
  split
  · exact h.of_idle (by rw [hphase]; rfl) (by rw [hphase]; exact Phase.noConfusion) rfl rfl s.status
  rename_i call rest hcmds
  refine h.of_plain ⟨rfl, rfl, rfl, rfl, rfl, fun _ h => h, .inl rfl, fun h => h⟩ ?_ rfl h.pending
    [call.token] rfl rfl
  intro other hother
  rw [hcmds]
  rcases mem_append.mp hother with hother | hother
  · exact mem_append_left _ hother
  · exact mem_append_right _ (mem_cons_of_mem _ hother)

lemma Inv.stop : Inv render s.stop := by
  refine h.of_plain ⟨rfl, rfl, rfl, rfl, rfl, fun _ h => h, .inr rfl, fun _ => rfl⟩ ?_ rfl
    (fun _ hmem => absurd hmem not_mem_nil) _ rfl rfl
  intro call hcall
  rcases mem_append.mp hcall with hcall | hcall
  · exact mem_append_left _ hcall
  · exact absurd hcall not_mem_nil

lemma Inv.cancel (token : Nat) : Inv render (s.cancel token) := by
  unfold State.cancel
  split
  · exact h.of_still ⟨rfl, rfl, rfl, rfl, rfl, fun _ h => h, .inl rfl, fun h => h⟩ h.waiting
      le_rfl h.pending h.refusals h.responses
  · exact h

end

lemma Inv.step (s : State) (input : Input) (h : Inv render s) (hbal : Balanced s) :
    Inv render (s.step render input) := by
  unfold State.step
  cases input with
  | call command => exact h.call command
  | submit i => exact h.submit i
  | cancel token => exact h.cancel token
  | takeOrderedEvents =>
    simp only [takeOrderedEvents]
    split
    · exact h
    · exact h.of_still ⟨rfl, rfl, rfl, rfl, rfl, fun _ h => h, .inl rfl, fun h => h⟩ h.waiting
        le_rfl h.pending h.refusals h.responses
  | dropOrderedEvents stream =>
    exact h.of_still ⟨rfl, rfl, rfl, rfl, rfl, fun _ hmem => mem_append_left _ hmem, .inl rfl,
      fun h => h⟩ h.waiting le_rfl h.pending h.refusals h.responses
  | connect => exact h.connect
  | connectFails =>
    simp only
    split
    · rename_i hphase
      exact h.of_idle (by rw [hphase]; rfl) (by rw [hphase]; exact Phase.noConfusion) rfl rfl
        s.status
    · exact h
  | outbound sent =>
    simp only
    split
    · rename_i hphase
      exact h.outbound hbal hphase rfl sent
    · exact h
  | cleanup =>
    simp only
    split
    · rename_i hphase
      exact h.cleanup hphase
    · exact h
  | inbound frame =>
    simp only
    split
    · rename_i hphase
      exact h.inbound hphase rfl frame
    · exact h
  | publish =>
    simp only
    split
    · rename_i hphase
      exact h.publish hphase rfl
    · exact h
  | reject =>
    simp only
    split
    · rename_i hphase
      exact h.reject hphase
    · exact h
  | wake =>
    simp only
    split
    · rename_i hphase
      exact h.of_idle (by rw [hphase]; rfl) (by rw [hphase]; exact Phase.noConfusion) rfl rfl
        .reconnecting
    · exact h
  | stop => exact h.stop

lemma inv_initial : Inv render initial := by
  have hempty {α : Type} {p : α → Prop} : ∀ x ∈ ([] : List α), p x :=
    fun _ hmem => absurd hmem not_mem_nil
  constructor
  · exact hempty
  · exact hempty
  · exact hempty
  · exact hempty
  · exact fun entry hentry => absurd hentry (some_ne_none entry).symm
  · exact fun _ _ hmem => absurd hmem not_mem_nil
  · exact List.Pairwise.nil
  · exact hempty
  · rintro _ stream frame value ⟨received, hframe, -⟩
    exact absurd hframe (by simp [initial])
  · exact hempty
  · exact hempty
  · exact List.Pairwise.nil

example : (exec (step (fun _ => "")) initial [.connect, .takeOrderedEvents,
    .call (.request (.obj [("method", .str "thread/read")]) true), .submit 0, .outbound true,
    .inbound (.value (.obj [("method", .str "delta")])), .publish,
    .inbound (.value (.obj [("id", .str "codewide-rs:1")])), .publish]).ordered =
    [⟨0, 0, .notification (.obj [("method", .str "delta")])⟩,
      ⟨0, 1, .fence 0 (.obj [("id", .str "codewide-rs:1")])⟩] := by decide

end State

end CodeWide.Transport
