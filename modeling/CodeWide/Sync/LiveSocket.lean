import CodeWide.Lib.Run
import CodeWide.Sync.LiveRegistry
import Mathlib.Algebra.BigOperators.Group.List.Basic
import Mathlib.Logic.Function.Basic

/-!
# Live delivery on one socket

The socket's loop, its queues and its acknowledgements, with events and timers between its steps.
-/

namespace CodeWide.Sync

open Lib List Saturating Table Option LiveRegistry

/-! ## State -/

/-- An envelope the socket sent, with its subscription and the client's. -/
structure LiveDelivery where
  into : Nat
  origin : Nat
  value : Json

structure LiveSocket where
  registry : LiveRegistry
  /-- The channel the loop holds to be subscribed. -/
  current : Option String
  queue : List (Nat × QueuedLiveEnvelope)
  /-- The envelope sent and not yet acknowledged. -/
  delivering : Option (Nat × QueuedLiveEnvelope)
  controls : List Json
  timers : List (Nat × String)
  isOpen : Bool
  accepted : Nat
  holder : String → Nat
  deliveries : List LiveDelivery
  /-- The acknowledgements and timers, with the subscription they were made for and the one they
  found. -/
  touched : List (Nat × Nat)

inductive LiveAction where
  | control (message : Json)
  | event (payload : Json)
  | receive (sent : Bool)
  | acknowledge
  | terminal (sent : Bool)
  | timeout (index : Nat)
  | close

namespace LiveSocket

def init : LiveSocket :=
  { registry := LiveRegistry.empty, current := none, queue := [], delivering := none
    controls := [], timers := [], isOpen := true, accepted := 0, holder := fun _ => 0
    deliveries := [], touched := [] }

/-! ## Steps -/

def idle (s : LiveSocket) : Bool := s.isOpen && s.delivering.isNone

/-- The session ends: its channels leave the registry and its queues are dropped. -/
def hangUp (owner : String) (s : LiveSocket) : LiveSocket :=
  { s with
    registry := s.registry.unsubscribeOwner owner, isOpen := false, current := none, queue := []
    delivering := none, controls := [] }

def accept (s : LiveSocket) (channelId : String) : LiveSocket :=
  { s with
    accepted := s.accepted + 1
    holder := Function.update s.holder channelId (s.accepted + 1)
    timers := s.timers ++ [(s.accepted + 1, channelId)] }

def control (owner : String) (s : LiveSocket) (message : Json) : LiveSocket :=
  let (registry, current, reply) := s.registry.handleControl owner s.current message
  match reply with
  | none => s.hangUp owner
  | some _ =>
    match s.current, current with
    | none, some channelId => { s with registry, current }.accept channelId
    | _, _ => { s with registry, current }

def event (encodedLen : Json → Nat) (s : LiveSocket) (payload : Json) : LiveSocket :=
  let room := s.isOpen && decide (s.queue.length < liveChannelMaxEnvelopes)
  let (registry, envelope, controls) := s.registry.route encodedLen room payload
  { s with
    registry
    queue := s.queue ++ envelope.toList.map (fun e => (s.holder e.channelId, e))
    controls := s.controls ++ controls }

def closesChannel (envelope : QueuedLiveEnvelope) : Bool :=
  decide (((envelope.value.get? "payload").bind Json.method?) = some "thread/realtime/closed")

def receive (owner : String) (s : LiveSocket) (sent : Bool) : LiveSocket :=
  match s.queue with
  | [] => s
  | (subscription, envelope) :: rest =>
    if s.current ≠ some envelope.channelId then { s with queue := rest }
    else if sent then
      { s with
        queue := rest, delivering := some (subscription, envelope)
        deliveries := s.deliveries ++ [⟨s.accepted, subscription, envelope.value⟩] }
    else s.hangUp owner

def touch (s : LiveSocket) (subscription : Nat) (channelId : String) : List (Nat × Nat) :=
  if s.registry.channels.contains channelId then [(subscription, s.holder channelId)] else []

def acknowledge (s : LiveSocket) : LiveSocket :=
  match s.delivering with
  | none => s
  | some (subscription, envelope) =>
    { s with
      registry := s.registry.acknowledgeDelivery envelope.channelId envelope.encodedBytes
      delivering := none
      current := if closesChannel envelope then none else s.current
      touched := s.touched ++ s.touch subscription envelope.channelId }

def controlChannel (control : Json) : Option String :=
  (control.get? "channelId").bind Json.asStr?

def terminal (owner : String) (s : LiveSocket) (sent : Bool) : LiveSocket :=
  match s.controls with
  | [] => s
  | c :: rest =>
    if controlChannel c ≠ s.current then { s with controls := rest }
    else if sent then { s with controls := rest, current := none }
    else s.hangUp owner

def timeout (s : LiveSocket) (index : Nat) : LiveSocket :=
  match s.timers[index]? with
  | none => s
  | some (subscription, channelId) =>
    let (registry, controls) := s.registry.expireStartup channelId
    { s with
      registry
      controls := s.controls ++ controls
      timers := s.timers.eraseIdx index
      touched := s.touched ++ s.touch subscription channelId }

/-- One step: the loop acts only while it waits, the others at any time. -/
def step (encodedLen : Json → Nat) (owner : String) (s : LiveSocket) : LiveAction → LiveSocket
  | .control message => if s.idle then s.control owner message else s
  | .event payload => s.event encodedLen payload
  | .receive sent => if s.idle then s.receive owner sent else s
  | .acknowledge => s.acknowledge
  | .terminal sent => if s.idle then s.terminal owner sent else s
  | .timeout index => s.timeout index
  | .close => if s.idle then s.hangUp owner else s

/-! ## What is promised -/

def unacknowledged (s : LiveSocket) : List (Nat × QueuedLiveEnvelope) :=
  s.delivering.toList ++ s.queue

def unacknowledgedOf (s : LiveSocket) (subscription : Nat) : List (Nat × QueuedLiveEnvelope) :=
  s.unacknowledged.filter (fun e => decide (e.1 = subscription))

def sequenceOf (value : Json) : Option Json := value.get? "sequence"

def sequences (n : Nat) : List (Option Json) :=
  (range n).map (fun i => some (.int ((i + 1 : Nat) : Int)))

def deliveriesInto (s : LiveSocket) (subscription : Nat) : List LiveDelivery :=
  s.deliveries.filter (fun d => decide (d.into = subscription))

structure Bookkeeping (s : LiveSocket) : Prop where
  inverse : s.registry.MapsInverse
  /-- The counters of a channel are those of its own unacknowledged envelopes. -/
  counters : ∀ channelId channel, s.registry.channels.get? channelId = some channel →
    channel.queuedEnvelopes = (s.unacknowledgedOf (s.holder channelId)).length ∧
    channel.queuedBytes = ((s.unacknowledgedOf (s.holder channelId)).map (·.2.encodedBytes)).sum
  budgets : ∀ channelId channel, s.registry.channels.get? channelId = some channel →
    channel.queuedEnvelopes ≤ liveChannelMaxEnvelopes ∧ channel.queuedBytes ≤ liveChannelMaxBytes
  /-- What the client gets during a subscription is numbered from one without gap or repeat. -/
  numbered : ∀ subscription, ∃ n,
    (s.deliveriesInto subscription).map (fun d => sequenceOf d.value) = sequences n
  /-- No envelope is delivered as part of another subscription than its own. -/
  delivered : ∀ d ∈ s.deliveries, d.origin = d.into
  touched : ∀ t ∈ s.touched, t.1 = t.2

/-- A subscription takes a channel id that nothing left over names, and sequence numbers are left.
-/
def FreshChannel (s : LiveSocket) : LiveAction → Prop
  | .control message => s.current = none →
    (message.get? "type").bind Json.asStr? = some "liveSubscribe" →
    ∀ f ∈ liveSubscribeFields message,
      (∀ e ∈ s.queue, e.2.channelId ≠ f.1) ∧
      (∀ c ∈ s.controls, controlChannel c ≠ some f.1) ∧
      ∀ t ∈ s.timers, t.2 ≠ f.1
  | .event _ => ∀ e ∈ s.registry.channels.entries, e.2.nextSequence < max64
  | _ => True

instance FreshChannel.decidable (s : LiveSocket) : (a : LiveAction) → Decidable (FreshChannel s a)
  | .control message => inferInstanceAs (Decidable (s.current = none →
      (message.get? "type").bind Json.asStr? = some "liveSubscribe" →
      ∀ f ∈ liveSubscribeFields message,
        (∀ e ∈ s.queue, e.2.channelId ≠ f.1) ∧
        (∀ c ∈ s.controls, controlChannel c ≠ some f.1) ∧ ∀ t ∈ s.timers, t.2 ≠ f.1))
  | .event _ => inferInstanceAs
      (Decidable (∀ e ∈ s.registry.channels.entries, e.2.nextSequence < max64))
  | .receive _ => isTrue trivial
  | .acknowledge => isTrue trivial
  | .terminal _ => isTrue trivial
  | .timeout _ => isTrue trivial
  | .close => isTrue trivial

/-! ## The invariant of fresh runs -/

def queuedSequences (s : LiveSocket) (subscription : Nat) : List (Option Json) :=
  (s.queue.filter (fun e => decide (e.1 = subscription))).map (fun e => sequenceOf e.2.value)

def deliveredSequences (s : LiveSocket) (subscription : Nat) : List (Option Json) :=
  (s.deliveriesInto subscription).map (fun d => sequenceOf d.value)

/-- Only the current channel is in the registry, and whatever names it is of the current
subscription. -/
structure Inv (owner : String) (s : LiveSocket) : Prop where
  inverse : s.registry.MapsInverse
  owned : ∀ id channel, s.registry.channels.get? id = some channel → channel.ownerId = owner
  single : ∀ id channel, s.registry.channels.get? id = some channel → s.current = some id
  held : ∀ id, s.current = some id → s.holder id = s.accepted
  counted : ∀ e ∈ s.unacknowledged, e.1 ≤ s.accepted
  own : ∀ e ∈ s.unacknowledged, s.current = some e.2.channelId → e.1 = s.accepted
  mine : ∀ e ∈ s.unacknowledged, e.1 = s.accepted → ∀ id, s.current = some id → e.2.channelId = id
  closing : ∀ e ∈ s.unacknowledged, closesChannel e.2 = true →
    ∀ channel, s.registry.channels.get? e.2.channelId = some channel → channel.phase = .closing
  sending : ∀ e, s.delivering = some e → s.current = some e.2.channelId
  gone : ∀ c ∈ s.controls, ∀ id, controlChannel c = some id → s.registry.channels.get? id = none
  counters : ∀ id channel, s.registry.channels.get? id = some channel →
    channel.queuedEnvelopes = (s.unacknowledgedOf s.accepted).length ∧
    channel.queuedBytes = ((s.unacknowledgedOf s.accepted).map (·.2.encodedBytes)).sum
  budgets : ∀ id channel, s.registry.channels.get? id = some channel →
    channel.queuedEnvelopes ≤ liveChannelMaxEnvelopes ∧ channel.queuedBytes ≤ liveChannelMaxBytes
  timers : ∀ t ∈ s.timers, ∀ channel, s.registry.channels.get? t.2 = some channel → t.1 = s.accepted
  running : ∀ id, s.current = some id →
    ∃ n, s.deliveredSequences s.accepted ++ s.queuedSequences s.accepted = sequences n ∧
      ∀ channel, s.registry.channels.get? id = some channel → channel.nextSequence = n + 1
  past : ∀ d ∈ s.deliveries, d.into ≤ s.accepted
  numbered : ∀ subscription, ∃ n, s.deliveredSequences subscription = sequences n
  delivered : ∀ d ∈ s.deliveries, d.origin = d.into
  touched : ∀ t ∈ s.touched, t.1 = t.2

lemma sequences_succ (n : Nat) :
    sequences (n + 1) = sequences n ++ [some (.int ((n + 1 : Nat) : Int))] := by
  unfold sequences
  rw [range_succ, map_append]
  rfl

lemma sequences_prefix {l m : List (Option Json)} {n : Nat} (h : l ++ m = sequences n) :
    ∃ k, l = sequences k := by
  refine ⟨l.length, ?_⟩
  have hlen : l.length ≤ n := by
    have hleng := congrArg length h
    unfold sequences at hleng
    rw [length_append, length_map, length_range] at hleng
    omega
  have htake : l = (sequences n).take l.length := by
    rw [← h, take_left]
  rw [htake]
  unfold sequences
  rw [← map_take, take_range, length_map, length_range, Nat.min_eq_left hlen]

namespace Inv

variable {owner : String} {s : LiveSocket}

lemma init : Inv owner LiveSocket.init where
  inverse := LiveRegistry.mapsInverse_empty
  owned := by simp [LiveSocket.init, LiveRegistry.empty]
  single := by simp [LiveSocket.init, LiveRegistry.empty]
  held := by simp [LiveSocket.init]
  counted := by simp [LiveSocket.init, unacknowledged]
  own := by simp [LiveSocket.init, unacknowledged]
  mine := by simp [LiveSocket.init, unacknowledged]
  closing := by simp [LiveSocket.init, unacknowledged]
  sending := by simp [LiveSocket.init]
  gone := by simp [LiveSocket.init]
  counters := by simp [LiveSocket.init, LiveRegistry.empty]
  budgets := by simp [LiveSocket.init, LiveRegistry.empty]
  timers := by simp [LiveSocket.init]
  running := by simp [LiveSocket.init]
  past := by simp [LiveSocket.init]
  numbered := fun _ => ⟨0, rfl⟩
  delivered := by simp [LiveSocket.init]
  touched := by simp [LiveSocket.init]

lemma bookkeeping (h : Inv owner s) : Bookkeeping s where
  inverse := h.inverse
  counters := fun id channel hget => by
    rw [h.held id (h.single id channel hget)]
    exact h.counters id channel hget
  budgets := h.budgets
  numbered := h.numbered
  delivered := h.delivered
  touched := h.touched

variable {registry : LiveRegistry}

section

variable (h : Inv owner s)
include h

lemma terminate {controls : List Json} (ht : LiveRegistry.Terminates s.registry registry controls) :
    Inv owner { s with registry, controls := s.controls ++ controls } where
  inverse := ht.inverse h.inverse
  owned := fun id channel hget => h.owned id channel (ht.shrinks.of_get? hget)
  single := fun id channel hget => h.single id channel (ht.shrinks.of_get? hget)
  held := h.held
  counted := h.counted
  own := h.own
  mine := h.mine
  closing := fun e he hcloses channel hget => h.closing e he hcloses channel (ht.shrinks.of_get? hget)
  sending := h.sending
  gone := by
    intro c hc id hid
    rcases mem_append.mp hc with hc | hc
    · rcases ht.shrinks id with heq | hnone
      · exact heq.trans (h.gone c hc id hid)
      · exact hnone
    obtain ⟨id', reason, rfl, hnone⟩ := ht.named c hc
    rw [controlChannel, liveOverflow_channelId] at hid
    cases hid
    exact hnone
  counters := fun id channel hget => h.counters id channel (ht.shrinks.of_get? hget)
  budgets := fun id channel hget => h.budgets id channel (ht.shrinks.of_get? hget)
  timers := fun t hmem channel hget => h.timers t hmem channel (ht.shrinks.of_get? hget)
  running := by
    intro id hid
    obtain ⟨n, hseq, hnext⟩ := h.running id hid
    exact ⟨n, hseq, fun channel hget => hnext channel (ht.shrinks.of_get? hget)⟩
  past := h.past
  numbered := h.numbered
  delivered := h.delivered
  touched := h.touched

lemma release (hinve : registry.MapsInverse)
    (hnone : ∀ id, registry.channels.get? id = none) (hsent : s.delivering = none) :
    Inv owner { s with registry, current := none } where
  inverse := hinve
  owned := fun id channel hget => by rw [hnone] at hget; cases hget
  single := fun id channel hget => by rw [hnone] at hget; cases hget
  held := nofun
  counted := h.counted
  own := fun _ _ => nofun
  mine := fun _ _ _ _ => nofun
  closing := fun e _ _ channel hget => by rw [hnone] at hget; cases hget
  sending := fun e he => by rw [hsent] at he; cases he
  gone := fun _ _ id _ => hnone id
  counters := fun id channel hget => by rw [hnone] at hget; cases hget
  budgets := fun id channel hget => by rw [hnone] at hget; cases hget
  timers := fun t _ channel hget => by rw [hnone] at hget; cases hget
  running := nofun
  past := h.past
  numbered := h.numbered
  delivered := h.delivered
  touched := h.touched

lemma drop (hnone : ∀ id, s.registry.channels.get? id = none) (hcur : s.current = none) :
    Inv owner { s with queue := [], delivering := none, controls := [], isOpen := false } where
  inverse := h.inverse
  owned := h.owned
  single := h.single
  held := h.held
  counted := by simp [unacknowledged]
  own := by simp [unacknowledged]
  mine := by simp [unacknowledged]
  closing := by simp [unacknowledged]
  sending := nofun
  gone := by simp
  counters := fun id channel hget => by rw [hnone] at hget; cases hget
  budgets := h.budgets
  timers := h.timers
  running := fun id hid => by rw [hcur] at hid; cases hid
  past := h.past
  numbered := h.numbered
  delivered := h.delivered
  touched := h.touched

lemma hangUp (hsent : s.delivering = none) : Inv owner (s.hangUp owner) := by
  have hfold := foldl_removeChannel
    ((s.registry.channels.entries.filter (fun e => decide (e.2.ownerId = owner))).map Prod.fst)
    s.registry
  obtain ⟨hshrinks, hinve, hgone⟩ := hfold
  have hnone : ∀ id, (s.registry.unsubscribeOwner owner).channels.get? id = none := by
    intro id
    cases hget : s.registry.channels.get? id with
    | none =>
      rcases hshrinks id with heq | hnone
      · exact heq.trans hget
      · exact hnone
    | some channel =>
    refine hgone id (mem_map.mpr ⟨(id, channel), mem_filter.mpr ⟨?_, ?_⟩, rfl⟩)
    · exact mem_entries_iff.mpr hget
    · exact decide_eq_true (h.owned id channel hget)
  exact (h.release (hinve h.inverse) hnone hsent).drop hnone rfl

lemma not_registered (hcur : s.current = none) (id : String) :
    s.registry.channels.get? id = none := by
  cases hget : s.registry.channels.get? id with
  | none => rfl
  | some channel =>
  have hsome := h.single id channel hget
  rw [hcur] at hsome
  cases hsome

lemma subscribe (hcur : s.current = none) (hsent : s.delivering = none) {id thread : String}
    (hsub : s.registry.subscribe owner id thread = .ok registry)
    (hqueue : ∀ e ∈ s.queue, e.2.channelId ≠ id)
    (hcontrols : ∀ c ∈ s.controls, controlChannel c ≠ some id)
    (htimers : ∀ t ∈ s.timers, t.2 ≠ id) :
    Inv owner ({ s with registry, current := some id }.accept id) := by
  have hinve := h.inverse.subscribe hsub
  have hget : ∀ d channel, registry.channels.get? d = some channel →
      d = id ∧ channel.ownerId = owner ∧ channel.nextSequence = 1 ∧
        channel.queuedEnvelopes = 0 ∧ channel.queuedBytes = 0 := by
    intro d channel hd
    unfold LiveRegistry.subscribe at hsub
    split at hsub
    · cases hsub
    split at hsub
    · cases hsub
    cases hsub
    dsimp only at hd
    rcases of_get?_insert hd with ⟨heq, rfl⟩ | ⟨-, hd⟩
    · exact ⟨heq, rfl, rfl, rfl, rfl⟩
    · rw [h.not_registered hcur d] at hd
      cases hd
  have hunack : ({ s with registry, current := some id }.accept id).unacknowledged = s.queue := by
    unfold unacknowledged accept
    rw [hsent]
    rfl
  have hle : ∀ e ∈ s.queue, e.1 ≤ s.accepted := by
    intro e he
    refine h.counted e ?_
    unfold unacknowledged
    exact mem_append_right _ he
  -- Nothing queued was made for the new subscription.
  have hold : s.queue.filter (fun e => decide (e.1 = s.accepted + 1)) = [] := by
    rw [filter_eq_nil_iff]
    intro e he
    have := hle e he
    rw [decide_eq_true_eq]
    omega
  have hpast : s.deliveries.filter (fun d => decide (d.into = s.accepted + 1)) = [] := by
    rw [filter_eq_nil_iff]
    intro d hd
    have := h.past d hd
    rw [decide_eq_true_eq]
    omega
  refine ⟨hinve, fun d channel hd => (hget d channel hd).2.1, fun d channel hd => ?_, ?_, ?_, ?_,
    ?_, ?_, ?_, ?_, ?_, ?_, ?_, ?_, ?_, h.numbered, h.delivered, h.touched⟩
  · rw [(hget d channel hd).1]
    rfl
  · intro d hd
    cases hd
    exact Function.update_self _ _ _
  · rw [hunack]
    exact fun e he => Nat.le_succ_of_le (hle e he)
  · rw [hunack]
    intro e he heq
    exact absurd (some.inj heq).symm (hqueue e he)
  · rw [hunack]
    intro e he heq
    have := hle e he
    exact absurd heq (by change e.1 ≠ s.accepted + 1; omega)
  · rw [hunack]
    intro e he _ channel hd
    exact absurd (hget _ channel hd).1 (hqueue e he)
  · intro e he
    have hnone : s.delivering = some e := he
    rw [hsent] at hnone
    cases hnone
  · intro c hc d hd
    cases hcase : registry.channels.get? d with
    | none => exact hcase
    | some channel =>
      rw [(hget d channel hcase).1] at hd
      exact absurd hd (hcontrols c hc)
  · intro d channel hd
    obtain ⟨-, -, -, henv, hbytes⟩ := hget d channel hd
    unfold unacknowledgedOf
    rw [hunack]
    change channel.queuedEnvelopes = (s.queue.filter
      (fun e => decide (e.1 = s.accepted + 1))).length ∧ channel.queuedBytes = ((s.queue.filter
      (fun e => decide (e.1 = s.accepted + 1))).map (·.2.encodedBytes)).sum
    rw [hold]
    exact ⟨henv, hbytes⟩
  · intro d channel hd
    obtain ⟨-, -, -, henv, hbytes⟩ := hget d channel hd
    rw [henv, hbytes]
    exact ⟨Nat.zero_le _, Nat.zero_le _⟩
  · intro t ht channel hd
    rcases mem_concat.mp ht with ht | ht
    · exact absurd (hget _ channel hd).1 (htimers t ht)
    · rw [ht]
      rfl
  · intro d hd
    refine ⟨0, ?_, fun channel hch => (hget d channel hch).2.2.1⟩
    change map _ (s.deliveries.filter (fun d => decide (d.into = s.accepted + 1))) ++
      map _ (s.queue.filter (fun e => decide (e.1 = s.accepted + 1))) = _
    rw [hold, hpast]
    rfl
  · exact fun d hd => Nat.le_succ_of_le (h.past d hd)

lemma enqueue {id method : String} {payload : Json}
    {channel channel' : LiveChannel} {envelope : QueuedLiveEnvelope}
    (hget : s.registry.channels.get? id = some channel) (hmeth : payload.method? = some method)
    (hfresh : channel.nextSequence < max64)
    (hen : LiveRegistry.Enqueued id channel.threadId method payload channel channel' envelope) :
    Inv owner { s with
      registry := { s.registry with channels := s.registry.channels.insert id channel' }
      queue := s.queue ++ [(s.holder envelope.channelId, envelope)] } := by
  have hcur := h.single id channel hget
  have hholder := h.held id hcur
  have htag : s.holder envelope.channelId = s.accepted := by rw [hen.channelId, hholder]
  -- Only the current channel is registered.
  have honly : ∀ d c, (s.registry.channels.insert id channel').get? d = some c →
      d = id ∧ c = channel' := by
    intro d c hd
    rcases of_get?_insert hd with ⟨heq, hd⟩ | ⟨hne, hd⟩
    · exact ⟨heq, hd.symm⟩
    have hother := h.single d c hd
    rw [hcur] at hother
    exact absurd (some.inj hother).symm hne
  have hmem : ∀ e, e ∈ s.delivering.toList ++ (s.queue ++ [(s.holder envelope.channelId, envelope)]) ↔
      e ∈ s.unacknowledged ∨ e = (s.accepted, envelope) := by
    intro e
    rw [← append_assoc, mem_append, mem_singleton, htag]
    rfl
  have hof : ∀ l : List (Nat × QueuedLiveEnvelope),
      (l ++ [(s.holder envelope.channelId, envelope)]).filter (fun e => decide (e.1 = s.accepted)) =
      l.filter (fun e => decide (e.1 = s.accepted)) ++ [(s.accepted, envelope)] := by
    intro l
    rw [htag, filter_append]
    simp
  refine ⟨h.inverse.update hget hen.threadId, fun d c hd => ?_, fun d c hd => ?_, h.held, ?_, ?_, ?_,
    ?_, h.sending, ?_, ?_, ?_, ?_, ?_, h.past, h.numbered, h.delivered, h.touched⟩
  · rw [(honly d c hd).2, hen.ownerId]
    exact h.owned id channel hget
  · rw [(honly d c hd).1]
    exact hcur
  · intro e he
    rcases (hmem e).mp he with he | rfl
    · exact h.counted e he
    · exact le_refl _
  · intro e he heq
    rcases (hmem e).mp he with he | rfl
    · exact h.own e he heq
    · rfl
  · intro e he heq d hd
    rcases (hmem e).mp he with he | rfl
    · exact h.mine e he heq d hd
    · change s.current = some d at hd
      rw [hcur] at hd
      exact hen.channelId.trans (some.inj hd)
  · intro e he hcloses c hc
    obtain ⟨hid, rfl⟩ := honly _ c hc
    rcases (hmem e).mp he with he | rfl
    · -- An envelope that closes the channel is the last one it takes.
      exact absurd (h.closing e he hcloses channel (hid ▸ hget)) hen.notClosing
    refine hen.closes ?_
    unfold closesChannel at hcloses
    rw [decide_eq_true_eq] at hcloses
    dsimp only at hcloses
    rw [hen.value, liveEnvelope_payload] at hcloses
    exact some.inj (hmeth.symm.trans hcloses)
  · intro c hc d hd
    have hnone := h.gone c hc d hd
    dsimp only
    rw [get?_insert]
    split
    · rename_i heq
      rw [heq, hget] at hnone
      cases hnone
    · exact hnone
  · intro d c hd
    obtain ⟨-, rfl⟩ := honly d c hd
    obtain ⟨henv, hbytes⟩ := h.counters id channel hget
    unfold unacknowledgedOf unacknowledged at henv hbytes ⊢
    dsimp only
    rw [← append_assoc, hof, hen.queuedEnvelopes, hen.queuedBytes, henv, hbytes,
      length_append, map_append, sum_append]
    exact ⟨rfl, rfl⟩
  · intro d c hd
    rw [(honly d c hd).2]
    exact hen.budgets
  · intro t ht c hd
    have hid := (honly t.2 c hd).1
    exact h.timers t ht channel (hid ▸ hget)
  intro d hd
  obtain ⟨n, hseq, hnext⟩ := h.running d hd
  change s.current = some d at hd
  rw [hcur] at hd
  cases hd
  have hn := hnext channel hget
  refine ⟨n + 1, ?_, fun c hc => ?_⟩
  · unfold queuedSequences at hseq ⊢
    dsimp only
    rw [hof, map_append, ← append_assoc, sequences_succ]
    change (s.deliveredSequences s.accepted ++ _) ++ _ = _
    rw [hseq]
    simp only [map_cons, map_nil, sequenceOf]
    rw [hen.value, liveEnvelope_sequence, hn]
  · rw [(honly _ c hc).2, hen.nextSequence, add64_of_le (by omega), hn]

end

lemma event (encodedLen : Json → Nat) (h : Inv owner s) {payload : Json}
    (hfresh : s.FreshChannel (.event payload)) : Inv owner (s.event encodedLen payload) := by
  unfold LiveSocket.event
  dsimp only
  rcases route_cases encodedLen
      (s.isOpen && decide (s.queue.length < liveChannelMaxEnvelopes)) h.inverse payload with
    ⟨registry, controls, hroute, hterm⟩ | ⟨id, channel, channel', envelope, method, hroute, hget,
      hmeth, henqueue⟩
  · rw [hroute]
    have hinv := h.terminate hterm
    simpa using hinv
  rw [hroute]
  have hlt := hfresh (id, channel) (mem_entries_iff.mpr hget)
  have hinv := h.enqueue hget hmeth hlt (enqueue_ok henqueue)
  simpa using hinv

variable {e : Nat × QueuedLiveEnvelope}

section

variable (h : Inv owner s)
include h

variable {rest : List (Nat × QueuedLiveEnvelope)}

lemma discard (hqueue : s.queue = e :: rest)
    (hother : s.current ≠ some e.2.channelId) : Inv owner { s with queue := rest } := by
  have hsub : ∀ e' ∈ s.delivering.toList ++ rest, e' ∈ s.unacknowledged := by
    intro e' he'
    unfold unacknowledged
    rw [hqueue]
    rcases mem_append.mp he' with hin | hin
    · exact mem_append_left _ hin
    · exact mem_append_right _ (mem_cons_of_mem _ hin)
  -- It was not made for the current subscription.
  have htag : ∀ id, s.current = some id → e.1 ≠ s.accepted := by
    intro id hid heq
    have hmem : e ∈ s.unacknowledged := by
      unfold unacknowledged
      rw [hqueue]
      exact mem_append_right _ mem_cons_self
    rw [h.mine e hmem heq id hid] at hother
    exact hother hid
  have hfilt : ∀ id, s.current = some id → s.queue.filter (fun e => decide (e.1 = s.accepted)) =
        rest.filter (fun e => decide (e.1 = s.accepted)) := by
    intro id hid
    rw [hqueue, filter_cons_of_neg (by simpa using htag id hid)]
  refine ⟨h.inverse, h.owned, h.single, h.held, fun e' he' => h.counted e' (hsub e' he'),
    fun e' he' => h.own e' (hsub e' he'), fun e' he' => h.mine e' (hsub e' he'),
    fun e' he' => h.closing e' (hsub e' he'), h.sending, h.gone, fun id channel hget => ?_, h.budgets,
    h.timers, fun id hid => ?_, h.past, h.numbered, h.delivered, h.touched⟩
  · have hctrs := h.counters id channel hget
    unfold unacknowledgedOf unacknowledged at hctrs ⊢
    rw [filter_append, hfilt id (h.single id channel hget), ← filter_append] at hctrs
    exact hctrs
  obtain ⟨n, hseq, hnext⟩ := h.running id hid
  refine ⟨n, ?_, hnext⟩
  unfold queuedSequences at hseq ⊢
  rw [hfilt id hid] at hseq
  exact hseq

lemma deliver (hqueue : s.queue = e :: rest)
    (hsent : s.delivering = none) (hcur : s.current = some e.2.channelId) :
    Inv owner { s with
      queue := rest, delivering := some e
      deliveries := s.deliveries ++ [⟨s.accepted, e.1, e.2.value⟩] } := by
  have hunack : s.unacknowledged = e :: rest := by
    unfold unacknowledged
    rw [hsent, hqueue]
    rfl
  have htag : e.1 = s.accepted := by
    refine h.own e ?_ hcur
    rw [hunack]
    exact mem_cons_self
  have hinto : ∀ subscription, ((s.deliveries ++ [LiveDelivery.mk s.accepted e.1 e.2.value]).filter
      (fun d => decide (d.into = subscription))).map (fun d => sequenceOf d.value) =
      s.deliveredSequences subscription ++
        if s.accepted = subscription then [sequenceOf e.2.value] else [] := by
    intro subscription
    rw [filter_append, map_append]
    refine congrArg (_ ++ ·) ?_
    by_cases heq : s.accepted = subscription
    · simp [heq]
    · simp [heq]
  have hnow : s.queuedSequences s.accepted = sequenceOf e.2.value ::
      (rest.filter (fun e => decide (e.1 = s.accepted))).map (fun e => sequenceOf e.2.value) := by
    unfold queuedSequences
    rw [hqueue, filter_cons_of_pos (by simpa using htag), map_cons]
  obtain ⟨n, hseq, hnext⟩ := h.running _ hcur
  rw [hnow] at hseq
  refine ⟨h.inverse, h.owned, h.single, h.held, ?_, ?_, ?_, ?_, ?_, h.gone, ?_, h.budgets, h.timers,
    ?_, ?_, ?_, ?_, h.touched⟩
  · have hcounted := h.counted
    rwa [hunack] at hcounted
  · have hown := h.own
    rwa [hunack] at hown
  · have hmine := h.mine
    rwa [hunack] at hmine
  · have hclosing := h.closing
    rwa [hunack] at hclosing
  · intro e' he'
    cases he'
    exact hcur
  · intro id channel hget
    have hctrs := h.counters id channel hget
    unfold unacknowledgedOf at hctrs ⊢
    rw [hunack] at hctrs
    exact hctrs
  · intro id hid
    have hid' : s.current = some id := hid
    rw [hcur] at hid'
    cases hid'
    refine ⟨n, ?_, hnext⟩
    unfold deliveredSequences deliveriesInto queuedSequences
    dsimp only
    rw [hinto, if_pos rfl, append_assoc]
    exact hseq
  · intro d hd
    rcases mem_concat.mp hd with hd | hd
    · exact h.past d hd
    · rw [hd]
  · intro subscription
    unfold deliveredSequences deliveriesInto
    dsimp only
    rw [hinto]
    by_cases heq : s.accepted = subscription
    · rw [if_pos heq, ← heq]
      refine sequences_prefix (n := n) (m := (rest.filter (fun e => decide (e.1 = s.accepted))).map
        (fun e => sequenceOf e.2.value)) ?_
      rw [append_assoc]
      exact hseq
    · rw [if_neg heq, append_nil]
      exact h.numbered subscription
  intro d hd
  rcases mem_concat.mp hd with hd | hd
  · exact h.delivered d hd
  · rw [hd]
    exact htag

lemma receive (hsent : s.delivering = none) (sent : Bool) : Inv owner (s.receive owner sent) := by
  unfold LiveSocket.receive
  split
  · exact h
  rename_i subscription envelope rest hqueue
  split
  · rename_i hother
    exact h.discard hqueue hother
  rename_i hcur
  split
  · exact h.deliver hqueue hsent (not_not.mp hcur)
  · exact h.hangUp hsent

/-- What an acknowledgement or a timer found is logged; a timer is gone once it fired. -/
lemma settle {timers : List (Nat × String)} (htimers : timers ⊆ s.timers)
    {found : List (Nat × Nat)} (hfound : ∀ t ∈ found, t.1 = t.2) :
    Inv owner { s with timers, touched := s.touched ++ found } :=
  { h with
    timers := fun t ht => h.timers t (htimers ht)
    touched := fun t ht => (mem_append.mp ht).elim (h.touched t) (hfound t) }

lemma touch {subscription : Nat} {id : String}
    (hown : ∀ channel, s.registry.channels.get? id = some channel → subscription = s.accepted) :
    ∀ t ∈ s.touch subscription id, t.1 = t.2 := by
  intro t ht
  unfold LiveSocket.touch at ht
  split at ht
  · rename_i hcont
    obtain ⟨channel, hget⟩ := contains_iff.mp hcont
    rw [mem_singleton.mp ht]
    exact (hown channel hget).trans (h.held id (h.single id channel hget)).symm
  · cases ht

lemma timeout (index : Nat) : Inv owner (s.timeout index) := by
  unfold LiveSocket.timeout
  split
  · exact h
  rename_i subscription id htimer
  have hmem := mem_of_getElem? htimer
  have htouch := h.touch (fun channel hget => h.timers _ hmem channel hget)
  exact (h.terminate (expireStartup_terminates s.registry id)).settle (eraseIdx_subset) htouch

lemma terminal (hsent : s.delivering = none) (sent : Bool) : Inv owner (s.terminal owner sent) := by
  unfold LiveSocket.terminal
  split
  · exact h
  rename_i c rest hcontrols
  have hrest : Inv owner { s with controls := rest } :=
    { h with gone := fun c' hc' => h.gone c' (hcontrols ▸ mem_cons_of_mem _ hc') }
  split
  · exact hrest
  rename_i hcur
  split
  · -- The control's channel has left the registry, and no other is there.
    refine hrest.release h.inverse (fun id => ?_) hsent
    cases hget : s.registry.channels.get? id with
    | none => rfl
    | some channel =>
    have hid := h.single id channel hget
    have hnone := h.gone c (hcontrols ▸ mem_cons_self) id ((not_not.mp hcur).trans hid)
    rw [hget] at hnone
    cases hnone
  · exact h.hangUp hsent

end

lemma mem_unacknowledged_of_queue (he : e ∈ s.queue) : e ∈ s.unacknowledged := mem_append_right _ he

lemma acknowledgeLast (h : Inv owner s)
    (hinve : registry.MapsInverse) (hnone : ∀ id, registry.channels.get? id = none) :
    Inv owner { s with registry, delivering := none } where
  inverse := hinve
  owned := fun id channel hget => by rw [hnone] at hget; cases hget
  single := fun id channel hget => by rw [hnone] at hget; cases hget
  held := h.held
  counted := fun e he => h.counted e (mem_unacknowledged_of_queue he)
  own := fun e he => h.own e (mem_unacknowledged_of_queue he)
  mine := fun e he => h.mine e (mem_unacknowledged_of_queue he)
  closing := fun e _ _ channel hget => by rw [hnone] at hget; cases hget
  sending := nofun
  gone := fun _ _ id _ => hnone id
  counters := fun id channel hget => by rw [hnone] at hget; cases hget
  budgets := fun id channel hget => by rw [hnone] at hget; cases hget
  timers := fun t _ channel hget => by rw [hnone] at hget; cases hget
  running := by
    intro id hid
    obtain ⟨n, hseq, -⟩ := h.running id hid
    exact ⟨n, hseq, fun channel hget => by rw [hnone] at hget; cases hget⟩
  past := h.past
  numbered := h.numbered
  delivered := h.delivered
  touched := h.touched

lemma acknowledgeOne (h : Inv owner s)
    (hsent : s.delivering = some e) {channel channel' : LiveChannel}
    (hget : s.registry.channels.get? e.2.channelId = some channel)
    (hnew : channel' = { channel with
      queuedEnvelopes := channel.queuedEnvelopes - 1
      queuedBytes := channel.queuedBytes - e.2.encodedBytes }) :
    Inv owner { s with
      registry := { s.registry with
        channels := s.registry.channels.insert e.2.channelId channel' }
      delivering := none } := by
  have hcur := h.sending e hsent
  have hunack : s.unacknowledged = e :: s.queue := by
    unfold unacknowledged
    rw [hsent]
    rfl
  have htag : e.1 = s.accepted := by
    refine h.own e ?_ hcur
    rw [hunack]
    exact mem_cons_self
  have honly : ∀ d c, (s.registry.channels.insert e.2.channelId channel').get? d = some c →
      d = e.2.channelId ∧ c = channel' := by
    intro d c hd
    rcases of_get?_insert hd with ⟨heq, hd⟩ | ⟨hne, hd⟩
    · exact ⟨heq, hd.symm⟩
    have hother := h.single d c hd
    rw [hcur] at hother
    exact absurd (some.inj hother).symm hne
  have hof : s.unacknowledgedOf s.accepted =
      e :: s.queue.filter (fun e => decide (e.1 = s.accepted)) := by
    unfold unacknowledgedOf
    rw [hunack, filter_cons_of_pos (by simpa using htag)]
  refine ⟨h.inverse.update hget (by rw [hnew]), fun d c hd => ?_, fun d c hd => ?_, h.held,
    fun e he => h.counted e (mem_unacknowledged_of_queue he),
    fun e he => h.own e (mem_unacknowledged_of_queue he),
    fun e he => h.mine e (mem_unacknowledged_of_queue he), fun e' he' hcloses c hc => ?_, nofun,
    fun c hc d hd => ?_, fun d c hd => ?_, fun d c hd => ?_, fun t ht c hc => ?_, fun d hd => ?_,
    h.past, h.numbered, h.delivered, h.touched⟩
  · rw [(honly d c hd).2, hnew]
    exact h.owned _ channel hget
  · rw [(honly d c hd).1]
    exact hcur
  · obtain ⟨hid, rfl⟩ := honly _ c hc
    rw [hnew]
    exact h.closing e' (mem_unacknowledged_of_queue he') hcloses channel (hid ▸ hget)
  · have hnone := h.gone c hc d hd
    dsimp only
    rw [get?_insert]
    split
    · rename_i heq
      rw [heq, hget] at hnone
      cases hnone
    · exact hnone
  · obtain ⟨-, rfl⟩ := honly d c hd
    obtain ⟨henv, hbytes⟩ := h.counters _ channel hget
    rw [hof, length_cons] at henv
    rw [hof, map_cons, sum_cons] at hbytes
    rw [hnew]
    change channel.queuedEnvelopes - 1 =
        (s.queue.filter (fun e => decide (e.1 = s.accepted))).length ∧
      channel.queuedBytes - e.2.encodedBytes =
        ((s.queue.filter (fun e => decide (e.1 = s.accepted))).map (·.2.encodedBytes)).sum
    omega
  · obtain ⟨-, rfl⟩ := honly d c hd
    obtain ⟨henv, hbytes⟩ := h.budgets _ channel hget
    rw [hnew]
    dsimp only
    omega
  · exact h.timers t ht channel ((honly _ c hc).1 ▸ hget)
  obtain ⟨n, hseq, hnext⟩ := h.running d hd
  have hd' : s.current = some d := hd
  rw [hcur] at hd'
  cases hd'
  refine ⟨n, hseq, fun c hc => ?_⟩
  rw [(honly _ c hc).2, hnew]
  exact hnext channel hget

lemma acknowledge (h : Inv owner s) : Inv owner s.acknowledge := by
  unfold LiveSocket.acknowledge
  split
  · exact h
  rename_i subscription envelope hsent
  have hcur := h.sending _ hsent
  have hmem : (subscription, envelope) ∈ s.unacknowledged := by
    unfold unacknowledged
    rw [hsent]
    exact mem_append_left _ (mem_singleton.mpr rfl)
  have htouch : ∀ t ∈ s.touch subscription envelope.channelId, t.1 = t.2 :=
    h.touch (fun channel _ => h.own _ hmem hcur)
  -- No other channel than the envelope's is registered.
  have hoth : ∀ id, id ≠ envelope.channelId → s.registry.channels.get? id = none := by
    intro id hne
    cases hget : s.registry.channels.get? id with
    | none => rfl
    | some channel =>
    have hid := h.single id channel hget
    rw [hcur] at hid
    exact absurd (some.inj hid).symm hne
  have hlast : ∀ registry : LiveRegistry, registry.MapsInverse →
      (∀ id, registry.channels.get? id = none) →
      Inv owner { s with
        registry, delivering := none
        current := if closesChannel envelope then none else s.current
        touched := s.touched ++ s.touch subscription envelope.channelId } := by
    intro registry hinve hnone
    have hdone := (h.acknowledgeLast hinve hnone).settle (List.Subset.refl _) htouch
    split
    · exact hdone.release hinve hnone rfl
    · exact hdone
  unfold acknowledgeDelivery
  cases hget : s.registry.channels.get? envelope.channelId with
  | none =>
    refine hlast s.registry h.inverse (fun id => ?_)
    by_cases hid : id = envelope.channelId
    · rw [hid, hget]
    · exact hoth id hid
  | some channel =>
  dsimp only
  split
  · refine hlast _ ?_ (fun id => ?_)
    · refine LiveRegistry.MapsInverse.removeChannel ?_ _
      exact h.inverse.update hget rfl
    rw [removeChannel_get?]
    split
    · rfl
    · rename_i hid
      exact (get?_insert_of_ne _ _ hid).trans (hoth id hid)
  rename_i hphase
  have hopen : closesChannel envelope = false := by
    rw [← Bool.not_eq_true]
    exact fun hcloses => hphase (h.closing _ hmem hcloses channel hget)
  rw [hopen, if_neg Bool.false_ne_true]
  exact (h.acknowledgeOne hsent hget rfl).settle (List.Subset.refl _) htouch

lemma control (h : Inv owner s) (hsent : s.delivering = none) {message : Json}
    (hfresh : s.FreshChannel (.control message)) : Inv owner (s.control owner message) := by
  unfold LiveSocket.control
  rcases handleControl_cases s.registry owner s.current message with
    ⟨reply, heq⟩ | ⟨id, thread, registry, reply, heq, hcur, htype, hfields, hsub⟩ |
      ⟨id, reply, heq, hcur⟩
  · rw [heq]
    dsimp only
    split
    · exact h.hangUp hsent
    split
    · rename_i hnone hsome
      rw [hnone] at hsome
      cases hsome
    · exact h
  · rw [heq, hcur]
    obtain ⟨hqueue, hcontrols, htimers⟩ := hfresh hcur htype (id, thread) hfields
    exact h.subscribe hcur hsent hsub hqueue hcontrols htimers
  rw [heq, hcur]
  refine h.release (h.inverse.removeChannel id) (fun d => ?_) hsent
  rw [removeChannel_get?]
  split
  · rfl
  rename_i hd
  cases hget : s.registry.channels.get? d with
  | none => rfl
  | some channel =>
  have hother := h.single d channel hget
  rw [hcur] at hother
  exact absurd (some.inj hother).symm hd

lemma step (encodedLen : Json → Nat) (h : Inv owner s) {action : LiveAction}
    (hfresh : s.FreshChannel action) : Inv owner (s.step encodedLen owner action) := by
  have hidle : s.idle = true → s.delivering = none := by
    unfold idle
    rw [Bool.and_eq_true, isNone_iff_eq_none]
    exact And.right
  cases action with
  | control message =>
    unfold LiveSocket.step
    dsimp only
    split
    · rename_i hwait
      exact h.control (hidle hwait) hfresh
    · exact h
  | event payload => exact h.event encodedLen hfresh
  | receive sent =>
    unfold LiveSocket.step
    dsimp only
    split
    · rename_i hwait
      exact h.receive (hidle hwait) sent
    · exact h
  | acknowledge => exact h.acknowledge
  | terminal sent =>
    unfold LiveSocket.step
    dsimp only
    split
    · rename_i hwait
      exact h.terminal (hidle hwait) sent
    · exact h
  | timeout index => exact h.timeout index
  | close =>
  unfold LiveSocket.step
  dsimp only
  split
  · rename_i hwait
    exact h.hangUp (hidle hwait)
  · exact h

end Inv

/-! ## Every run -/

/-- In every run whose subscriptions take fresh channel ids, all promises hold. -/
theorem live_bookkeeping (encodedLen : Json → Nat) (owner : String) (actions : List LiveAction)
    (hfresh : Always (step encodedLen owner) FreshChannel init actions) :
    Bookkeeping (exec (step encodedLen owner) init actions) :=
  (exec_invariant_of_always (P := Inv owner) (fun _ _ h hf => h.step encodedLen hf) Inv.init
    hfresh).bookkeeping

def subscribeFrame (channelId threadId : String) : Json :=
  .ofFields [("type", .str "liveSubscribe"), ("channelId", .str channelId),
    ("threadId", .str threadId)]

def unsubscribeFrame (channelId : String) : Json :=
  .ofFields [("type", .str "liveUnsubscribe"), ("channelId", .str channelId)]

def startedEvent (threadId : String) : Json :=
  .ofFields [("method", .str "thread/realtime/started"), ("params", .ofFields
    [("threadId", .str threadId), ("version", .str "v3"), ("realtimeSessionId", .str "session")])]

def deltaEvent (threadId : String) : Json :=
  .ofFields [("method", .str "thread/realtime/transcript/delta"), ("params", .ofFields
    [("threadId", .str threadId), ("delta", .str "x")])]

/-- The client comes back under another id while an envelope of the first subscription is queued. -/
def freshReturn : List LiveAction :=
  [.control (subscribeFrame "first" "t"), .event (startedEvent "t"), .receive true, .acknowledge,
   .event (deltaEvent "t"), .control (unsubscribeFrame "first"),
   .control (subscribeFrame "second" "t"), .receive true, .timeout 0, .event (startedEvent "t"),
   .receive true, .acknowledge]

/-- The same return under the id of the first subscription, whose first envelope is still
queued. -/
def staleReturn : List LiveAction :=
  [.control (subscribeFrame "first" "t"), .event (startedEvent "t"),
   .control (unsubscribeFrame "first"), .control (subscribeFrame "first" "t"), .receive true,
   .acknowledge, .event (startedEvent "t"), .receive true]

/-- The envelope left over is dropped, and the old timer finds no channel of its own. -/
theorem live_bookkeeping_fresh_return :
    Bookkeeping (exec (step (fun _ => 100) "owner") init freshReturn) :=
  live_bookkeeping (fun _ => 100) "owner" freshReturn (by decide)

/-- A returning client is sent what was queued, and loses its subscription to the old timer. -/
theorem stale_channel_mixes :
    ¬ Bookkeeping (exec (step (fun _ => 100) "owner") init staleReturn) ∧
    ¬ Bookkeeping (exec (step (fun _ => 100) "owner") init
      [.control (subscribeFrame "first" "t"), .control (unsubscribeFrame "first"),
       .control (subscribeFrame "first" "t"), .timeout 0]) := by
  refine ⟨fun h => ?_, fun h => ?_⟩
  · exact absurd h.delivered (by decide)
  · exact absurd h.touched (by decide)

end LiveSocket

end CodeWide.Sync
