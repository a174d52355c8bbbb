import CodeWide.Transport.Upstream

/-!
# Every call has one outcome

A call is in the command channel or pending on the connection until it gets an outcome or its caller
is gone.
-/

namespace CodeWide.Transport

open Lib List Connection
open Option (bind_none bind_some toList_none)

namespace State

variable {s s' : State}

def answered (s : State) : List Nat := s.outcomes.map (fun answer => answer.1)

/-- The step answers or keeps the calls in flight and those that were `taken` out before. -/
structure Moves (taken : List Nat) (s s' : State) : Prop where
  cancelled : s'.cancelled = s.cancelled
  next : s'.next = s.next
  kept : ∀ token, token ∉ s.cancelled →
    s'.answered.count token + s'.inFlight.count token =
      s.answered.count token + s.inFlight.count token + taken.count token
  gone : ∀ token ∈ s.cancelled, s'.answered.count token = s.answered.count token ∧
    s'.inFlight.count token ≤ s.inFlight.count token + taken.count token

/-- A call that was made has one outcome or is in flight. -/
structure Balanced (s : State) : Prop where
  open_ : ∀ token, token ∉ s.cancelled →
    s.answered.count token + s.inFlight.count token = if token < s.next then 1 else 0
  gone : ∀ token ∈ s.cancelled,
    token < s.next ∧ s.answered.count token = 0 ∧ s.inFlight.count token ≤ 1

lemma Balanced.of_moves (h : Balanced s) (hmoves : Moves [] s s') : Balanced s' where
  open_ := by
    intro token hopen
    rw [hmoves.cancelled] at hopen
    have hkept := hmoves.kept token hopen
    rw [hmoves.next, ← h.open_ token hopen]
    simpa using hkept
  gone := by
    intro token hgone
    rw [hmoves.cancelled] at hgone
    obtain ⟨hbelow, hans, hfly⟩ := h.gone token hgone
    obtain ⟨hsame, hless⟩ := hmoves.gone token hgone
    rw [count_nil] at hless
    refine ⟨?_, by omega, by omega⟩
    rw [hmoves.next]
    exact hbelow

lemma tokens_connected (connection : Connection) :
    (Phase.connected connection).tokens = connection.tokens := rfl

lemma count_inFlight (s : State) (token : Nat) :
    s.inFlight.count token = (s.admitted.map (fun call => call.token)).count token +
      (s.commands.map (fun call => call.token)).count token + s.phase.tokens.count token := by
  unfold inFlight
  rw [count_append, count_append]

lemma count_answered_finish (s : State) (tokens : List Nat) (outcome : Outcome) (token : Nat) :
    (s.finish tokens outcome).answered.count token =
      s.answered.count token + if token ∈ s.cancelled then 0 else tokens.count token := by
  have hmap (l : List Nat) : (l.map (fun token => (token, outcome))).map (fun answer =>
      answer.1) = l := by
    rw [map_map]
    exact map_id'' (fun _ => rfl) l
  unfold answered finish
  rw [map_append, count_append, hmap]
  split
  · rename_i hgone
    have hnone : (tokens.filter (fun token => decide (token ∉ s.cancelled))).count token = 0 :=
      count_eq_zero_of_not_mem (by simp [hgone])
    rw [hnone]
  · rename_i hopen
    rw [count_filter (by simpa using hopen)]

variable {taken : List Nat}

lemma Moves.of_finish (tokens : List Nat) (outcome : Outcome)
    (houts : s'.outcomes = (s.finish tokens outcome).outcomes)
    (hcanc : s'.cancelled = s.cancelled) (hnext : s'.next = s.next)
    (hload : ∀ token, s'.inFlight.count token + tokens.count token =
      s.inFlight.count token + taken.count token) : Moves taken s s' := by
  have hans : ∀ token, s'.answered.count token =
      s.answered.count token + if token ∈ s.cancelled then 0 else tokens.count token := by
    intro token
    rw [← count_answered_finish s tokens outcome token]
    unfold answered
    rw [houts]
  refine ⟨hcanc, hnext, ?_, ?_⟩
  · intro token hopen
    have hloaded := hload token
    rw [hans token, if_neg hopen]
    omega
  intro token hgone
  have hloaded := hload token
  rw [hans token, if_pos hgone]
  omega

open Moves

lemma Moves.of_same (houts : s'.outcomes = s.outcomes)
    (hcanc : s'.cancelled = s.cancelled) (hnext : s'.next = s.next)
    (hload : ∀ token, s'.inFlight.count token = s.inFlight.count token + taken.count token) :
    Moves taken s s' := by
  refine of_finish [] (.error .disconnected) ?_ hcanc hnext hload
  rw [houts]
  simp [finish]

lemma Moves.of_gone (houts : s'.outcomes = s.outcomes)
    (hcanc : s'.cancelled = s.cancelled) (hnext : s'.next = s.next)
    (hload : ∀ token, s'.inFlight.count token ≤ s.inFlight.count token + taken.count token)
    (hopen : ∀ token, token ∉ s.cancelled →
      s'.inFlight.count token = s.inFlight.count token + taken.count token) : Moves taken s s' := by
  have hans : s'.answered = s.answered := by
    unfold answered
    rw [houts]
  refine ⟨hcanc, hnext, ?_, ?_⟩
  · intro token hnot
    rw [hans, hopen token hnot]
    omega
  · intro token _
    rw [hans]
    exact ⟨rfl, hload token⟩

section Task

variable {connection : Connection}

lemma count_partition {α : Type} (f : α → Nat) (p : α → Bool) (l : List α) (token : Nat) :
    ((l.filter p).map f).count token + ((l.filter (fun x => !p x)).map f).count token =
      (l.map f).count token := by
  induction l with
  | nil => rfl
  | cons x rest ih =>
    cases hp : p x <;> simp only [filter_cons, hp, Bool.not_true, Bool.not_false, if_true,
      map_cons, count_cons, Bool.false_eq_true, if_false] <;> omega

lemma count_eraseP {α : Type} (f : α → Nat) {p : α → Bool} {l : List α} {x : α}
    (h : l.find? p = some x) (token : Nat) :
    (l.map f).count token = ((l.eraseP p).map f).count token + [f x].count token := by
  induction l with
  | nil => simp at h
  | cons y rest ih =>
  cases hp : p y with
  | true =>
    rw [find?_cons_of_pos hp] at h
    obtain rfl := Option.some.inj h
    rw [eraseP_cons_of_pos hp, map_cons, count_cons, count_singleton]
  | false =>
  rw [find?_cons_of_neg (by simp [hp])] at h
  rw [eraseP_cons_of_neg (by simp [hp]), map_cons, map_cons, count_cons, count_cons, ih h]
  omega

lemma moves_lose (hphase : s.phase = .connected connection) (tokens taken : List Nat)
    (htoks : ∀ token, tokens.count token = connection.tokens.count token + taken.count token)
    (status : ConnectionStatus) : Moves taken s (s.lose tokens status) := by
  refine of_finish tokens (.error .disconnected) rfl rfl rfl ?_
  intro token
  rw [count_inFlight, count_inFlight, hphase]
  have hcount := htoks token
  have hnone : (Phase.tokens .rejecting).count token = 0 := rfl
  simp only [lose, finish, tokens_connected]
  omega

lemma moves_write (token : Nat) (id : Option String) (frame : Json) {taken : List Nat}
    (h : Moves taken (s.write token id frame) s') : Moves taken s s' :=
  ⟨h.cancelled, h.next, h.kept, h.gone⟩

lemma moves_insertPending (hphase : s.phase = .connected connection)
    (hpub : connection.publishing = none) (counter : Nat)
    (pending : PendingUpstreamRequest) :
    Moves [pending.token] s (s.insertPending connection counter pending) := by
  refine of_finish _ (.error .disconnected) rfl rfl rfl ?_
  intro token
  rw [count_inFlight, count_inFlight, hphase]
  have hcount := count_partition (fun other : PendingUpstreamRequest => other.token)
    (fun other => other.upstreamId == pending.upstreamId) connection.pending token
  simp only [insertPending, finish, tokens_connected, tokens, hpub,
    map_append, count_append, bind_none, toList_none, count_nil,
    map_cons, map_nil]
  omega

lemma moves_outboundRequest (hphase : s.phase = .connected connection)
    (hpub : connection.publishing = none) (token : Nat) (request : Json)
    (fenced sent : Bool) :
    Moves [token] s (s.outboundRequest connection token request fenced sent) := by
  unfold outboundRequest
  by_cases hgone : token ∈ s.cancelled
  · rw [if_pos hgone]
    refine of_gone rfl rfl rfl (fun other => by omega) ?_
    intro other hopen
    have hne : other ≠ token := fun heq => hopen (heq ▸ hgone)
    rw [count_singleton, if_neg (by simpa using Ne.symm hne)]
    rfl
  rw [if_neg hgone]
  simp only
  by_cases hobject : request.isObj = false
  · rw [if_pos hobject]
    refine of_finish [token] _ rfl rfl rfl ?_
    intro other
    rw [count_inFlight, count_inFlight, hphase]
    rfl
  rw [if_neg hobject]
  cases sent with
  | true =>
    rw [if_pos rfl]
    exact moves_write _ _ _ (@moves_insertPending (s.write _ _ _) _ hphase hpub _
      ⟨_, token, fenced⟩)
  | false =>
  rw [if_neg Bool.false_ne_true]
  refine moves_write _ _ _ (@moves_lose (s.write _ _ _) _ hphase _ _ ?_ _)
  intro other
  rw [count_cons, count_singleton]

lemma moves_outboundResponse (hphase : s.phase = .connected connection) (token : Nat)
    (response : Json) (sent : Bool) :
    Moves [token] s (s.outboundResponse connection token response sent) := by
  unfold outboundResponse
  split
  · exact of_finish [token] _ rfl rfl rfl (fun _ => rfl)
  cases sent with
  | true => exact of_finish [token] _ rfl rfl rfl (fun _ => rfl)
  | false =>
  refine moves_write _ _ _ (@moves_lose (s.write _ _ _) _ hphase _ _ ?_ _)
  intro other
  rw [count_cons, count_singleton]

lemma Moves.of_command {call : Call} {rest : List Call} (hcmds : s.commands = call :: rest)
    (h : Moves [call.token] { s with commands := rest } s') : Moves [] s s' := by
  have hload : ∀ token, s.inFlight.count token =
      (inFlight { s with commands := rest }).count token + [call.token].count token := by
    intro token
    rw [count_inFlight, count_inFlight, hcmds, map_cons, count_cons, count_singleton]
    simp only
    omega
  refine ⟨h.cancelled, h.next, ?_, ?_⟩
  · intro token hopen
    rw [hload token, count_nil, Nat.add_zero, ← Nat.add_assoc]
    exact h.kept token hopen
  · intro token hgone
    rw [hload token, count_nil, Nat.add_zero]
    exact h.gone token hgone

lemma moves_outbound (hphase : s.phase = .connected connection)
    (hpub : connection.publishing = none) (sent : Bool) :
    Moves [] s (s.outbound connection sent) := by
  unfold outbound
  split
  · exact of_same rfl rfl rfl (fun _ => rfl)
  rename_i call rest hcmds
  refine of_command hcmds ?_
  simp only
  split
  · exact moves_outboundRequest (by exact hphase) hpub _ _ _ _
  · exact moves_outboundResponse (by exact hphase) _ _ _

lemma moves_complete {connection' : Connection} (hpub : connection'.publishing = none)
    (request : PendingUpstreamRequest)
    (htoks : ∀ token, s.phase.tokens.count token =
      connection'.tokens.count token + [request.token].count token)
    (frame : Nat) (value : Json) : Moves [] s (s.complete connection' frame request value) := by
  have hload : ∀ token, (inFlight { s with phase := .connected connection' }).count token +
      [request.token].count token = s.inFlight.count token + [].count token := by
    intro token
    have hcount := htoks token
    rw [count_inFlight, count_inFlight]
    simp only [tokens_connected, count_nil]
    omega
  unfold complete
  split
  · exact of_finish [request.token] _ rfl rfl rfl hload
  split
  · exact of_finish [request.token] _ rfl rfl rfl hload
  refine of_same rfl rfl rfl ?_
  intro token
  have hloaded := hload token
  rw [count_inFlight] at hloaded ⊢
  simp only [tokens_connected, tokens, hpub, bind_none, toList_none,
    bind_some, Entry.token?, Option.toList_some, count_append, count_nil]
    at hloaded ⊢
  omega

variable (render : Json → String)

section

variable (hphase : s.phase = .connected connection)
include hphase

lemma moves_receive (hpub : connection.publishing = none) (value : Json) :
    Moves [] s (s.receive render connection value) := by
  have hsame : ∀ token, s.phase.tokens.count token = connection.tokens.count token := by
    intro token
    rw [hphase]
    rfl
  unfold receive
  simp only
  split
  · split
    · exact of_same rfl rfl rfl (fun _ => rfl)
    refine of_same rfl rfl rfl ?_
    intro token
    rw [count_inFlight, count_inFlight, hsame token]
    simp only [tokens_connected, tokens, hpub, bind_none, bind_some, Entry.token?, count_nil]
    omega
  split
  · exact of_same rfl rfl rfl (fun _ => rfl)
  split
  · exact of_same rfl rfl rfl (fun _ => rfl)
  rename_i id hid _ request hfound
  let kept : Connection :=
    { connection with pending := connection.pending.eraseP (fun p => p.upstreamId == id) }
  have htoks : ∀ token, s.phase.tokens.count token =
      kept.tokens.count token + [request.token].count token := by
    intro token
    have hcount := count_eraseP (fun pending : PendingUpstreamRequest => pending.token) hfound token
    have hcoun := hsame token
    simp only [kept, tokens, hpub, bind_none, toList_none, append_nil] at hcoun ⊢
    omega
  have hmoves := @moves_complete { s with
    received := s.received ++ [⟨s.generation, value, s.stream⟩] } kept hpub request
    htoks s.received.length value
  exact ⟨hmoves.cancelled, hmoves.next, hmoves.kept, hmoves.gone⟩

lemma moves_publish {entry : Entry} (hpub : connection.publishing = some entry) :
    Moves [] s (s.publish connection entry) := by
  have htoks : ∀ token, s.phase.tokens.count token =
      (connection.pending.map (fun pending => pending.token)).count token +
        entry.token?.toList.count token := by
    intro token
    rw [hphase]
    simp only [tokens_connected, tokens, hpub, bind_some, count_append]
  obtain ⟨stream, frame, event⟩ := entry
  unfold publish
  cases event with
  | notification value =>
    have hload : ∀ token, (inFlight { s with
        phase := .connected { connection with publishing := none } }).count token =
        s.inFlight.count token + [].count token := by
      intro token
      have hcount := htoks token
      rw [count_inFlight, count_inFlight]
      simp only [Entry.token?, tokens_connected, tokens, bind_none,
        toList_none, append_nil, count_nil] at hcount ⊢
      omega
    split
    · exact of_same rfl rfl rfl hload
    · exact of_same rfl rfl rfl hload
  | fence call value =>
  have hload : ∀ token, (inFlight { s with
      phase := .connected { connection with publishing := none } }).count token +
      [call].count token = s.inFlight.count token + [].count token := by
    intro token
    have hcount := htoks token
    rw [count_inFlight, count_inFlight]
    simp only [Entry.token?, tokens_connected, tokens, bind_none,
      toList_none, Option.toList_some, append_nil, count_nil] at hcount ⊢
    omega
  split
  · exact of_finish [call] _ rfl rfl rfl hload
  · exact of_finish [call] _ rfl rfl rfl hload

lemma moves_cleanup : Moves [] s (s.cleanup connection) := by
  have hcount : ∀ token, (s.cleanup connection).inFlight.count token +
      ((connection.pending.filter (fun pending => !decide (pending.token ∉ s.cancelled))).map
        (fun pending => pending.token)).count token = s.inFlight.count token := by
    intro token
    have hpartition := count_partition (fun pending : PendingUpstreamRequest => pending.token)
      (fun pending => decide (pending.token ∉ s.cancelled)) connection.pending token
    rw [count_inFlight, count_inFlight, hphase]
    simp only [cleanup, tokens_connected, tokens, count_append]
    omega
  refine of_gone rfl rfl rfl ?_ ?_
  · intro token
    have hcoun := hcount token
    omega
  intro token hopen
  have hnone : ((connection.pending.filter (fun pending =>
      !decide (pending.token ∉ s.cancelled))).map (fun pending => pending.token)).count token =
      0 := by
    refine count_eq_zero_of_not_mem ?_
    intro hmem
    obtain ⟨pending, hpend, rfl⟩ := mem_map.mp hmem
    have hgone := (mem_filter.mp hpend).2
    simp at hgone
    exact hopen hgone
  have hcoun := hcount token
  rw [count_nil]
  omega

lemma moves_inbound (hpub : connection.publishing = none) (frame : Frame) :
    Moves [] s (s.inbound render connection frame) := by
  cases frame with
  | value value => exact moves_receive render hphase hpub value
  | ignored => exact of_same rfl rfl rfl (fun _ => rfl)
  | error | closed => exact moves_lose hphase _ [] (fun _ => rfl) _

end

end Task

lemma moves_submit (i : Nat) : Moves [] s (s.submit i) := by
  unfold submit
  split
  · exact of_same rfl rfl rfl (fun _ => rfl)
  rename_i call hcall
  obtain ⟨before, after, hadm, rfl⟩ := exists_split hcall
  have herased : s.admitted.eraseIdx before.length = before ++ after := by
    rw [hadm, eraseIdx_append_of_length_le (Nat.le_refl _), Nat.sub_self]
    rfl
  rw [herased]
  have hload : ∀ token, (inFlight { s with admitted := before ++ after }).count token +
      [call.token].count token = s.inFlight.count token + [].count token := by
    intro token
    rw [count_inFlight, count_inFlight, hadm]
    simp only [map_append, map_cons, count_append, count_cons, count_nil]
    omega
  simp only
  split
  · exact of_finish [call.token] _ rfl rfl rfl hload
  split
  · exact of_finish [call.token] _ rfl rfl rfl hload
  refine of_same rfl rfl rfl ?_
  intro token
  have hloaded := hload token
  rw [count_inFlight] at hloaded ⊢
  simp only [map_append, map_cons, map_nil, count_append] at hloaded ⊢
  omega

lemma moves_reject (hphase : s.phase = .rejecting) : Moves [] s s.reject := by
  unfold reject
  split
  · refine of_same rfl rfl rfl ?_
    intro token
    rw [count_inFlight, count_inFlight, hphase]
    rfl
  · rename_i call rest hcmds
    exact of_command hcmds (of_finish [call.token] _ rfl rfl rfl (fun _ => rfl))

lemma moves_stop : Moves [] s s.stop := by
  refine of_finish _ (.error .disconnected) rfl rfl rfl ?_
  intro token
  rw [count_inFlight, count_inFlight, count_append]
  simp only [stop, finish, map_nil, count_nil]
  have hnone : (Phase.tokens .stopped).count token = 0 := rfl
  omega

lemma moves_phase {phase : Phase} (status : ConnectionStatus)
    (htoks : ∀ token, phase.tokens.count token = s.phase.tokens.count token) :
    Moves [] s { s with phase, status } := by
  refine of_same rfl rfl rfl ?_
  intro token
  rw [count_inFlight, count_inFlight, ← htoks token]
  rfl

lemma Balanced.call (h : Balanced s) (command : UpstreamCommand) : Balanced (s.call command) := by
  have hfresh : ∀ token, token ∉ s.cancelled → ∀ answered flight : Nat,
      answered + flight = s.answered.count token + s.inFlight.count token + [s.next].count token →
      answered + flight = if token < s.next + 1 then 1 else 0 := by
    intro token hopen answered flight hsum
    have hold := h.open_ token hopen
    rw [count_singleton] at hsum
    by_cases hnew : token = s.next
    · subst hnew
      simp at hold hsum ⊢
      omega
    have hne : (s.next == token) = false := by simpa using Ne.symm hnew
    rw [hne] at hsum
    simp only [Bool.false_eq_true, if_false] at hsum
    rw [hsum, Nat.add_zero, hold]
    by_cases hlt : token < s.next
    · rw [if_pos hlt, if_pos (by omega)]
    · rw [if_neg hlt, if_neg (by omega)]
  have hnew : s.next ∉ s.cancelled := fun hgone => Nat.lt_irrefl _ (h.gone _ hgone).1
  have hnone : ∀ token ∈ s.cancelled, [s.next].count token = 0 := by
    intro token hgone
    have hlt := (h.gone token hgone).1
    exact count_eq_zero_of_not_mem (fun hmem => by
      rw [mem_singleton] at hmem
      omega)
  unfold State.call
  simp only
  split
  · have hload : ∀ token, (inFlight { s with
        next := s.next + 1
        admitted := s.admitted ++ [⟨s.next, command⟩] }).count token =
        s.inFlight.count token + [s.next].count token := by
      intro token
      rw [count_inFlight, count_inFlight]
      simp only [map_append, map_cons, map_nil, count_append]
      omega
    constructor
    · intro token hopen
      refine hfresh token hopen _ _ ?_
      rw [hload token, Nat.add_assoc]
      rfl
    intro token hgone
    obtain ⟨hlt, hzero, hle⟩ := h.gone token hgone
    refine ⟨Nat.lt_succ_of_lt hlt, hzero, ?_⟩
    rw [hload token, hnone token hgone]
    exact hle
  constructor
  · intro token hopen
    refine hfresh token hopen _ _ ?_
    rw [count_answered_finish, if_neg (by exact hopen)]
    show s.answered.count token + [s.next].count token + s.inFlight.count token = _
    omega
  intro token hgone
  obtain ⟨hlt, hzero, hle⟩ := h.gone token hgone
  refine ⟨Nat.lt_succ_of_lt hlt, ?_, hle⟩
  rw [count_answered_finish, if_pos (by exact hgone)]
  exact hzero

lemma Balanced.cancel (h : Balanced s) (token : Nat) : Balanced (s.cancel token) := by
  unfold State.cancel
  split
  · rename_i hwaits
    obtain ⟨hmem, hopen⟩ := hwaits
    have hfly : 0 < s.inFlight.count token := by
      refine count_pos_iff.mpr ?_
      unfold inFlight
      rw [append_assoc]
      exact mem_append_right _ hmem
    have htoken := h.open_ token hopen
    constructor
    · intro other hother
      exact h.open_ other (fun hgone => hother (mem_append_left _ hgone))
    intro other hother
    rcases mem_append.mp hother with hgone | hnew
    · exact h.gone other hgone
    obtain rfl := mem_singleton.mp hnew
    by_cases hlt : other < s.next
    · rw [if_pos hlt] at htoken
      have hsame : s.answered.count other = 0 := by omega
      exact ⟨hlt, hsame, by
        show s.inFlight.count other ≤ 1
        omega⟩
    · rw [if_neg hlt] at htoken
      omega
  · exact h

lemma Balanced.step (render : Json → String) (s : State) (input : Input) (h : Balanced s) :
    Balanced (s.step render input) := by
  unfold State.step
  cases input with
  | call command => exact h.call command
  | submit i => exact h.of_moves (moves_submit i)
  | cancel token => exact h.cancel token
  | takeOrderedEvents =>
    simp only [takeOrderedEvents]
    split
    · exact h
    · exact h.of_moves (of_same rfl rfl rfl (fun _ => rfl))
  | dropOrderedEvents stream => exact h.of_moves (of_same rfl rfl rfl (fun _ => rfl))
  | connect =>
    simp only [connect]
    split
    · rename_i hphase
      refine h.of_moves (of_same rfl rfl rfl ?_)
      intro token
      rw [count_inFlight, count_inFlight, hphase]
      rfl
    · exact h
  | connectFails =>
    simp only
    split
    · rename_i hphase
      exact h.of_moves (moves_phase s.status (fun _ => by rw [hphase]; rfl))
    · exact h
  | outbound sent =>
    simp only
    split
    · rename_i hphase
      exact h.of_moves (moves_outbound hphase rfl sent)
    · exact h
  | cleanup =>
    simp only
    split
    · rename_i hphase
      exact h.of_moves (moves_cleanup hphase)
    · exact h
  | inbound frame =>
    simp only
    split
    · rename_i hphase
      exact h.of_moves (moves_inbound render hphase rfl frame)
    · exact h
  | publish =>
    simp only
    split
    · rename_i hphase
      exact h.of_moves (moves_publish hphase rfl)
    · exact h
  | reject =>
    simp only
    split
    · rename_i hphase
      exact h.of_moves (moves_reject hphase)
    · exact h
  | wake =>
    simp only
    split
    · rename_i hphase
      exact h.of_moves (moves_phase .reconnecting (fun _ => by rw [hphase]; rfl))
    · exact h
  | stop => exact h.of_moves moves_stop

end State

end CodeWide.Transport
