import CodeWide.Lib.Json
import CodeWide.Lib.Saturating
import CodeWide.Lib.Text

/-!
# The registry of live channels

The state and the methods of `LiveChannelRegistry` (`crates/companion-core/src/sync_live.rs`).
-/

namespace CodeWide.Sync

open Lib Saturating Table Option

def liveChannelMaxEnvelopes : Nat := 256
def liveChannelMaxBytes : Nat := 4194304
def liveEnvelopeMaxBytes : Nat := 262144

def realtimeNotificationMethods : List String :=
  ["thread/realtime/started", "thread/realtime/itemAdded", "thread/realtime/transcript/delta",
    "thread/realtime/transcript/done", "thread/realtime/outputAudio/delta", "thread/realtime/sdp",
    "thread/realtime/error", "thread/realtime/closed"]

def isRealtimeNotification (payload : Json) : Bool :=
  payload.method?.any (fun method => decide (method ∈ realtimeNotificationMethods))

def validatedLiveThreadId (value : Json) : Option String :=
  value.asStr?.filter (fun threadId =>
    decide (Text.trim threadId ≠ "") && decide (Text.trim threadId = threadId))

def realtimeThreadId (payload : Json) : Option String :=
  ((payload.get? "params").bind (fun params => params.get? "threadId")).bind validatedLiveThreadId

def startedBinding (payload : Json) : Option (String × String) := do
  let params ← payload.get? "params"
  let sessionId ← (params.get? "realtimeSessionId").bind Json.asStr?
  let version ← (params.get? "version").bind Json.asStr?
  if Text.trim sessionId = "" ∨ version ≠ "v3" then none
  else some (Text.trim sessionId, version)

def fieldCount : Json → Option Nat
  | .obj fields => some fields.length
  | _ => none

def controlChannelId (message : Json) : Option String :=
  (((message.get? "channelId").bind Json.asStr?).map Text.trim).filter (fun id => decide (id ≠ ""))

def liveSubscribeFields (message : Json) : Option (String × String) :=
  if fieldCount message ≠ some 3 then none
  else
    match controlChannelId message, (message.get? "threadId").bind validatedLiveThreadId with
    | some channelId, some threadId => some (channelId, threadId)
    | _, _ => none

def liveUnsubscribeChannelId (message : Json) : Option String :=
  if fieldCount message ≠ some 2 then none else controlChannelId message

def liveQueueLimitExceeded (queuedEnvelopes queuedBytes nextEnvelopeBytes : Nat) : Bool :=
  decide (liveChannelMaxEnvelopes ≤ queuedEnvelopes) ||
    decide (liveChannelMaxBytes < add64 queuedBytes nextEnvelopeBytes)

def liveEnvelopeTooLarge (encodedBytes : Nat) : Bool := decide (liveEnvelopeMaxBytes < encodedBytes)

inductive ChannelPhase where
  | awaitingStarted
  | active
  | closing
deriving DecidableEq

structure QueuedLiveEnvelope where
  channelId : String
  value : Json
  encodedBytes : Nat

structure LiveChannel where
  ownerId : String
  threadId : String
  phase : ChannelPhase
  realtimeSessionId : Option String
  realtimeVersion : Option String
  nextSequence : Nat
  queuedEnvelopes : Nat
  queuedBytes : Nat

structure LiveRegistry where
  channels : Table String LiveChannel
  channelByThread : Table String String

namespace LiveRegistry

def empty : LiveRegistry := ⟨∅, ∅⟩

def removeChannel (state : LiveRegistry) (channelId : String) : LiveRegistry :=
  match state.channels.get? channelId with
  | none => state
  | some channel =>
    { channels := state.channels.erase channelId
      channelByThread := state.channelByThread.erase channel.threadId }

def liveOverflow (channelId reason : String) : Json :=
  .ofFields [("type", .str "liveOverflow"), ("channelId", .str channelId), ("reason", .str reason)]

def terminateChannel (state : LiveRegistry) (channelId reason : String) :
    LiveRegistry × List Json :=
  (state.removeChannel channelId,
    if state.channels.contains channelId then [liveOverflow channelId reason] else [])

def terminateAllChannels (state : LiveRegistry) (reason : String) : LiveRegistry × List Json :=
  (state.channels.entries.map Prod.fst).foldl
    (fun acc channelId =>
      let (next, controls) := terminateChannel acc.1 channelId reason
      (next, acc.2 ++ controls)) (state, [])

inductive SubscribeError where
  | duplicateChannel
  | threadAlreadySubscribed

def subscribe (state : LiveRegistry) (ownerId channelId threadId : String) :
    Except SubscribeError LiveRegistry :=
  if state.channels.contains channelId then .error .duplicateChannel
  else if state.channelByThread.contains threadId then .error .threadAlreadySubscribed
  else .ok
    { channelByThread := state.channelByThread.insert threadId channelId
      channels := state.channels.insert channelId
        { ownerId, threadId, phase := .awaitingStarted, realtimeSessionId := none
          realtimeVersion := none, nextSequence := 1, queuedEnvelopes := 0, queuedBytes := 0 } }

def unsubscribe (state : LiveRegistry) (ownerId channelId : String) : LiveRegistry × Bool :=
  match state.channels.get? channelId with
  | none => (state, false)
  | some channel =>
    if channel.ownerId ≠ ownerId then (state, false) else (state.removeChannel channelId, true)

def unsubscribeOwner (state : LiveRegistry) (ownerId : String) : LiveRegistry :=
  ((state.channels.entries.filter (fun e => decide (e.2.ownerId = ownerId))).map Prod.fst).foldl
    removeChannel state

/-- The answer to a control frame: a reply, or an invalid frame. -/
abbrev LiveControlResult := Option Json

def subscriptionRejected (channelId reason : String) : Json :=
  .ofFields [("type", .str "liveSubscriptionRejected"), ("channelId", .str channelId),
    ("reason", .str reason)]

def handleControl (state : LiveRegistry) (ownerId : String) (current : Option String)
    (message : Json) : LiveRegistry × Option String × LiveControlResult :=
  match (message.get? "type").bind Json.asStr? with
  | some "liveSubscribe" =>
    match liveSubscribeFields message with
    | none => (state, current, none)
    | some (channelId, threadId) =>
      if current.isSome then
        (state, current, some (subscriptionRejected channelId "socketAlreadySubscribed"))
      else match state.subscribe ownerId channelId threadId with
      | .ok state => (state, some channelId, some (.ofFields [("type", .str "liveSubscribed"),
          ("channelId", .str channelId), ("threadId", .str threadId)]))
      | .error .duplicateChannel =>
        (state, current, some (subscriptionRejected channelId "duplicateChannel"))
      | .error .threadAlreadySubscribed =>
        (state, current, some (subscriptionRejected channelId "threadAlreadySubscribed"))
  | some "liveUnsubscribe" =>
    match liveUnsubscribeChannelId message with
    | none => (state, current, none)
    | some channelId =>
      if current ≠ some channelId ∨ (state.unsubscribe ownerId channelId).2 = false then
        (state, current, some (subscriptionRejected channelId "unknownChannel"))
      else ((state.unsubscribe ownerId channelId).1, none,
        some (.ofFields [("type", .str "liveUnsubscribed"), ("channelId", .str channelId)]))
  | _ => (state, current, none)

def advance (channel : LiveChannel) (method : String) (payload : Json) :
    Except String LiveChannel :=
  match channel.phase with
  | .awaitingStarted =>
    if method = "thread/realtime/started" then
      match startedBinding payload with
      | some (sessionId, version) => .ok { channel with
          realtimeSessionId := some sessionId, realtimeVersion := some version, phase := .active }
      | none => .error "invalidStarted"
    else .error "eventBeforeStarted"
  | .active =>
    if method = "thread/realtime/started" then .error "duplicateStarted"
    else if method = "thread/realtime/closed" then .ok { channel with phase := .closing }
    else .ok channel
  | .closing => .error "eventAfterClosed"

def liveEnvelope (channelId threadId : String) (sequence : Nat) (payload : Json) : Json :=
  .ofFields [("type", .str "liveEvent"), ("channelId", .str channelId),
    ("threadId", .str threadId), ("sequence", .int sequence), ("payload", payload)]

def enqueue (encodedLen : Json → Nat) (room : Bool) (channelId threadId method : String)
    (payload : Json) (channel : LiveChannel) : Except String (LiveChannel × QueuedLiveEnvelope) := do
  let channel ← advance channel method payload
  let envelope := liveEnvelope channelId threadId channel.nextSequence payload
  let encodedBytes := encodedLen envelope
  if liveEnvelopeTooLarge encodedBytes then .error "envelopeTooLarge"
  else if liveQueueLimitExceeded channel.queuedEnvelopes channel.queuedBytes encodedBytes then
    .error "channelOverflow"
  else if room then
    .ok ({ channel with
        nextSequence := add64 channel.nextSequence 1
        queuedEnvelopes := channel.queuedEnvelopes + 1
        queuedBytes := channel.queuedBytes + encodedBytes },
      { channelId, value := envelope, encodedBytes })
  else .error "channelOverflow"

def route (encodedLen : Json → Nat) (room : Bool) (state : LiveRegistry) (payload : Json) :
    LiveRegistry × Option QueuedLiveEnvelope × List Json :=
  if !isRealtimeNotification payload then (state, none, [])
  else match realtimeThreadId payload with
  | none =>
    let (state, controls) := state.terminateAllChannels "invalidRealtimeNotification"
    (state, none, controls)
  | some threadId =>
    match state.channelByThread.get? threadId with
    | none => (state, none, [])
    | some channelId =>
      match state.channels.get? channelId with
      | none => ({ state with channelByThread := state.channelByThread.erase threadId }, none, [])
      | some channel =>
        match enqueue encodedLen room channelId threadId (payload.method?.getD "") payload
            channel with
        | .ok (channel, envelope) =>
          ({ state with channels := state.channels.insert channelId channel }, some envelope, [])
        | .error reason =>
          let (state, controls) := state.terminateChannel channelId reason
          (state, none, controls)

def acknowledgeDelivery (state : LiveRegistry) (channelId : String) (encodedBytes : Nat) :
    LiveRegistry :=
  match state.channels.get? channelId with
  | none => state
  | some channel =>
    let state := { state with
      channels := state.channels.insert channelId { channel with
        queuedEnvelopes := channel.queuedEnvelopes - 1
        queuedBytes := channel.queuedBytes - encodedBytes } }
    if channel.phase = .closing then state.removeChannel channelId else state

def expireStartup (state : LiveRegistry) (channelId : String) : LiveRegistry × List Json :=
  if (state.channels.get? channelId).any (fun channel => decide (channel.phase = .awaitingStarted))
  then state.terminateChannel channelId "startupTimeout"
  else (state, [])

def MapsInverse (state : LiveRegistry) : Prop :=
  ∀ threadId channelId, state.channelByThread.get? threadId = some channelId ↔
    ∃ channel, state.channels.get? channelId = some channel ∧ channel.threadId = threadId

def Shrinks (state state' : LiveRegistry) : Prop :=
  ∀ channelId, state'.channels.get? channelId = state.channels.get? channelId ∨
    state'.channels.get? channelId = none

variable {state state' : LiveRegistry}

lemma mapsInverse_empty : empty.MapsInverse := by
  intro threadId channelId
  simp [empty]

lemma Shrinks.refl (state : LiveRegistry) : Shrinks state state := fun _ => .inl rfl

variable {state'' : LiveRegistry}

lemma Shrinks.trans (h : Shrinks state state')
    (h' : Shrinks state' state'') : Shrinks state state'' := by
  intro channelId
  rcases h' channelId with heq | hnone
  · rw [heq]
    exact h channelId
  · exact .inr hnone

lemma Shrinks.of_get? (h : Shrinks state state') {channelId : String} {channel : LiveChannel}
    (hget : state'.channels.get? channelId = some channel) :
    state.channels.get? channelId = some channel := by
  rcases h channelId with heq | hnone
  · rw [← heq, hget]
  · rw [hnone] at hget
    cases hget

lemma removeChannel_get? (state : LiveRegistry) (channelId d : String) :
    (state.removeChannel channelId).channels.get? d =
      if d = channelId then none else state.channels.get? d := by
  unfold removeChannel
  cases hget : state.channels.get? channelId with
  | none =>
    dsimp only
    by_cases hd : d = channelId
    · rw [if_pos hd, hd, hget]
    · rw [if_neg hd]
  | some channel => exact get?_erase _ _ _

lemma removeChannel_shrinks (state : LiveRegistry) (channelId : String) :
    Shrinks state (state.removeChannel channelId) := by
  intro d
  rw [removeChannel_get?]
  split
  · exact .inr rfl
  · exact .inl rfl

lemma MapsInverse.removeChannel (h : state.MapsInverse) (channelId : String) :
    (state.removeChannel channelId).MapsInverse := by
  intro threadId d
  rw [removeChannel_get?]
  unfold LiveRegistry.removeChannel
  cases hget : state.channels.get? channelId with
  | none =>
    dsimp only
    rw [h]
    by_cases hd : d = channelId
    · simp [hd, hget]
    · rw [if_neg hd]
  | some channel =>
  dsimp only
  rw [get?_erase]
  by_cases hthr : threadId = channel.threadId
  · -- The thread's only channel is the removed one.
    rw [if_pos hthr]
    refine ⟨fun hnone => (nomatch hnone), fun ⟨other, hother, heq⟩ => ?_⟩
    split at hother
    · cases hother
    rename_i hd
    have h1 := (h threadId d).mpr ⟨other, hother, heq⟩
    have h2 := (h threadId channelId).mpr ⟨channel, hget, hthr.symm⟩
    rw [h1] at h2
    exact absurd (some.inj h2) hd
  rw [if_neg hthr, h]
  by_cases hd : d = channelId
  · rw [if_pos hd, hd, hget]
    refine ⟨?_, fun ⟨_, hnone, _⟩ => (nomatch hnone)⟩
    rintro ⟨other, hother, heq⟩
    cases hother
    exact absurd heq.symm hthr
  · rw [if_neg hd]

variable {channel channel' : LiveChannel}

lemma MapsInverse.update (h : state.MapsInverse) {channelId : String}
    (hget : state.channels.get? channelId = some channel)
    (hthr : channel'.threadId = channel.threadId) :
    MapsInverse { state with channels := state.channels.insert channelId channel' } := by
  intro threadId d
  dsimp only
  rw [h, get?_insert]
  by_cases hd : d = channelId
  · rw [if_pos hd, hd, hget]
    simp [hthr]
  · rw [if_neg hd]

lemma MapsInverse.subscribe (h : state.MapsInverse) {owner channelId threadId : String}
    (hsub : state.subscribe owner channelId threadId = .ok state') : state'.MapsInverse := by
  unfold LiveRegistry.subscribe at hsub
  split at hsub
  · cases hsub
  rename_i hchan
  split at hsub
  · cases hsub
  rename_i hfree
  cases hsub
  rw [contains_iff] at hchan hfree
  push Not at hchan hfree
  intro t d
  dsimp only
  rw [get?_insert, get?_insert]
  by_cases ht : t = threadId
  · rw [if_pos ht]
    by_cases hd : d = channelId
    · rw [if_pos hd, hd, ht]
      simp
    · rw [if_neg hd, ← h, ht]
      refine ⟨fun heq => absurd (some.inj heq).symm hd, fun heq => ?_⟩
      exact absurd heq (hfree d)
  rw [if_neg ht, h]
  by_cases hd : d = channelId
  · rw [if_pos hd, hd]
    refine ⟨fun ⟨c, hc, _⟩ => absurd hc (hchan c), ?_⟩
    rintro ⟨c, hc, heq⟩
    cases hc
    exact absurd heq.symm ht
  · rw [if_neg hd]

/-- What a termination does: channels leave, and every control sent names one that left. -/
structure Terminates (state state' : LiveRegistry) (controls : List Json) : Prop where
  shrinks : Shrinks state state'
  inverse : state.MapsInverse → state'.MapsInverse
  named : ∀ control ∈ controls, ∃ channelId reason, control = liveOverflow channelId reason ∧
    state'.channels.get? channelId = none

lemma Terminates.refl (state : LiveRegistry) : Terminates state state [] :=
  ⟨Shrinks.refl state, id, by simp⟩

lemma Terminates.trans {controls controls' : List Json}
    (h : Terminates state state' controls) (h' : Terminates state' state'' controls') :
    Terminates state state'' (controls ++ controls') := by
  refine ⟨h.shrinks.trans h'.shrinks, h'.inverse ∘ h.inverse, fun control hcontrol => ?_⟩
  rcases List.mem_append.mp hcontrol with hin | hin
  · obtain ⟨channelId, reason, rfl, hnone⟩ := h.named control hin
    refine ⟨channelId, reason, rfl, ?_⟩
    rcases h'.shrinks channelId with heq | hgone
    · rw [heq, hnone]
    · exact hgone
  · exact h'.named control hin

lemma terminateChannel_terminates (state : LiveRegistry) (channelId reason : String) :
    Terminates state (state.terminateChannel channelId reason).1
      (state.terminateChannel channelId reason).2 := by
  refine ⟨removeChannel_shrinks state channelId, fun h => h.removeChannel channelId, ?_⟩
  intro control hcontrol
  have hrem := removeChannel_get? state channelId channelId
  rw [if_pos rfl] at hrem
  unfold terminateChannel at hcontrol
  dsimp only at hcontrol
  split at hcontrol
  · exact ⟨channelId, reason, List.mem_singleton.mp hcontrol, hrem⟩
  · cases hcontrol

lemma terminateAllChannels_terminates (state : LiveRegistry) (reason : String) :
    Terminates state (state.terminateAllChannels reason).1
      (state.terminateAllChannels reason).2 := by
  have hfold : ∀ (ids : List String) (acc : LiveRegistry × List Json),
      Terminates state acc.1 acc.2 →
      Terminates state (ids.foldl (fun acc channelId =>
          ((terminateChannel acc.1 channelId reason).1,
            acc.2 ++ (terminateChannel acc.1 channelId reason).2)) acc).1
        (ids.foldl (fun acc channelId =>
          ((terminateChannel acc.1 channelId reason).1,
            acc.2 ++ (terminateChannel acc.1 channelId reason).2)) acc).2 := by
    intro ids
    induction ids with
    | nil => exact fun acc h => h
    | cons id rest ih => exact fun acc h => ih _ (h.trans (terminateChannel_terminates _ _ _))
  exact hfold _ (state, []) (Terminates.refl state)

lemma expireStartup_terminates (state : LiveRegistry) (channelId : String) :
    Terminates state (state.expireStartup channelId).1 (state.expireStartup channelId).2 := by
  unfold expireStartup
  split
  · exact terminateChannel_terminates _ _ _
  · exact Terminates.refl state

lemma foldl_removeChannel (ids : List String) (state : LiveRegistry) :
    Shrinks state (ids.foldl removeChannel state) ∧
      (state.MapsInverse → (ids.foldl removeChannel state).MapsInverse) ∧
      ∀ id ∈ ids, (ids.foldl removeChannel state).channels.get? id = none := by
  induction ids generalizing state with
  | nil => exact ⟨Shrinks.refl state, id, by simp⟩
  | cons id rest ih =>
  obtain ⟨hshrinks, hinv, hgone⟩ := ih (state.removeChannel id)
  refine ⟨(removeChannel_shrinks state id).trans hshrinks,
    fun h => hinv (h.removeChannel id), fun d hd => ?_⟩
  rcases List.mem_cons.mp hd with rfl | hd
  · have hrem := removeChannel_get? state d d
    rw [if_pos rfl] at hrem
    rcases hshrinks d with heq | hnone
    · exact heq.trans hrem
    · exact hnone
  · exact hgone d hd

lemma unsubscribe_fst (state : LiveRegistry) (owner channelId : String)
    (h : (state.unsubscribe owner channelId).2 ≠ false) :
    (state.unsubscribe owner channelId).1 = state.removeChannel channelId := by
  unfold unsubscribe at h ⊢
  split
  · rename_i hget
    rw [hget] at h
    exact absurd rfl h
  rename_i channel hget
  rw [hget] at h
  dsimp only at h
  split
  · rename_i howner
    rw [if_pos howner] at h
    exact absurd rfl h
  · rfl

lemma handleControl_cases (state : LiveRegistry) (owner : String) (current : Option String)
    (message : Json) :
    (∃ reply, state.handleControl owner current message = (state, current, reply)) ∨
    (∃ channelId threadId state' reply,
      state.handleControl owner current message = (state', some channelId, some reply) ∧
      current = none ∧ (message.get? "type").bind Json.asStr? = some "liveSubscribe" ∧
      liveSubscribeFields message = some (channelId, threadId) ∧
      state.subscribe owner channelId threadId = .ok state') ∨
    ∃ channelId reply, state.handleControl owner current message =
        (state.removeChannel channelId, none, some reply) ∧ current = some channelId := by
  unfold handleControl
  split
  · rename_i htype
    split
    · exact .inl ⟨_, rfl⟩
    rename_i channelId threadId hflds
    split
    · exact .inl ⟨_, rfl⟩
    rename_i hcur
    rw [Bool.not_eq_true, isSome_eq_false_iff, isNone_iff_eq_none] at hcur
    split
    · rename_i state' hsub
      exact .inr (.inl ⟨channelId, threadId, state', _, rfl, hcur, htype, hflds, hsub⟩)
    · exact .inl ⟨_, rfl⟩
    · exact .inl ⟨_, rfl⟩
  · split
    · exact .inl ⟨_, rfl⟩
    rename_i channelId hflds
    split
    · exact .inl ⟨_, rfl⟩
    rename_i hboth
    push Not at hboth
    have hgone := unsubscribe_fst state owner channelId hboth.2
    rw [hgone]
    exact .inr (.inr ⟨channelId, _, rfl, hboth.1⟩)
  · exact .inl ⟨_, rfl⟩

/-- What a routed event can do to the queue of the thread's channel. -/
lemma route_cases (encodedLen : Json → Nat) (room : Bool) (h : state.MapsInverse) (payload : Json) :
    (∃ state' controls, state.route encodedLen room payload = (state', none, controls) ∧
      Terminates state state' controls) ∨
    ∃ channelId channel channel' envelope method, state.route encodedLen room payload =
        ({ state with channels := state.channels.insert channelId channel' }, some envelope, []) ∧
      state.channels.get? channelId = some channel ∧ payload.method? = some method ∧
      enqueue encodedLen room channelId channel.threadId method payload channel =
        .ok (channel', envelope) := by
  unfold route
  split
  · exact .inl ⟨state, [], rfl, Terminates.refl state⟩
  rename_i hrealtime
  have hmeth : ∃ method, payload.method? = some method := by
    unfold isRealtimeNotification at hrealtime
    cases hm : payload.method? with
    | none => simp [hm] at hrealtime
    | some method => exact ⟨method, rfl⟩
  obtain ⟨method, hmeth⟩ := hmeth
  split
  · exact .inl ⟨_, _, rfl, terminateAllChannels_terminates state _⟩
  rename_i threadId hthr
  split
  · exact .inl ⟨state, [], rfl, Terminates.refl state⟩
  rename_i channelId hchan
  obtain ⟨channel, hget, hof⟩ := (h threadId channelId).mp hchan
  rw [hget, hmeth]
  dsimp only [getD_some]
  split
  · rename_i channel' envelope henqueue
    rw [← hof] at henqueue
    exact .inr ⟨channelId, channel, channel', envelope, method, rfl, hget, rfl, henqueue⟩
  · exact .inl ⟨_, _, rfl, terminateChannel_terminates _ _ _⟩

variable (channelId threadId : String)

lemma liveEnvelope_sequence (sequence : Nat) (payload : Json) :
    (liveEnvelope channelId threadId sequence payload).get? "sequence" = some (.int sequence) := by
  rw [liveEnvelope, Json.get?_ofFields]
  simp [Json.lookupField]

lemma liveEnvelope_payload (sequence : Nat) (payload : Json) :
    (liveEnvelope channelId threadId sequence payload).get? "payload" = some payload := by
  rw [liveEnvelope, Json.get?_ofFields]
  simp [Json.lookupField]

lemma liveOverflow_channelId (channelId reason : String) :
    ((liveOverflow channelId reason).get? "channelId").bind Json.asStr? = some channelId := by
  rw [liveOverflow, Json.get?_ofFields]
  simp [Json.lookupField, Json.asStr?]

/-- An envelope that was queued: what it holds and what it makes of its channel. -/
structure Enqueued (id thread method : String) (payload : Json)
    (channel channel' : LiveChannel) (envelope : QueuedLiveEnvelope) : Prop where
  ownerId : channel'.ownerId = channel.ownerId
  threadId : channel'.threadId = channel.threadId
  channelId : envelope.channelId = id
  value : envelope.value = liveEnvelope id thread channel.nextSequence payload
  nextSequence : channel'.nextSequence = add64 channel.nextSequence 1
  queuedEnvelopes : channel'.queuedEnvelopes = channel.queuedEnvelopes + 1
  queuedBytes : channel'.queuedBytes = channel.queuedBytes + envelope.encodedBytes
  budgets : channel'.queuedEnvelopes ≤ liveChannelMaxEnvelopes ∧
    channel'.queuedBytes ≤ liveChannelMaxBytes
  notClosing : channel.phase ≠ .closing
  closes : method = "thread/realtime/closed" → channel'.phase = .closing

lemma advance_ok {method : String} {payload : Json}
    (h : advance channel method payload = .ok channel') :
    channel.phase ≠ .closing ∧ (method = "thread/realtime/closed" → channel'.phase = .closing) ∧
      channel' = { channel with
        phase := channel'.phase, realtimeSessionId := channel'.realtimeSessionId
        realtimeVersion := channel'.realtimeVersion } := by
  unfold advance at h
  cases hphase : channel.phase with
  | awaitingStarted =>
    rw [hphase] at h
    dsimp only at h
    split at h
    · rename_i hstarted
      split at h
      · cases h
        refine ⟨nofun, fun hcl => ?_, rfl⟩
        rw [hstarted] at hcl
        exact absurd hcl (by decide)
      · cases h
    · cases h
  | active =>
    rw [hphase] at h
    dsimp only at h
    split at h
    · cases h
    split at h
    · cases h
      exact ⟨nofun, fun _ => rfl, rfl⟩
    · rename_i hopen
      cases h
      exact ⟨nofun, fun hcl => absurd hcl hopen, rfl⟩
  | closing =>
    rw [hphase] at h
    cases h

lemma enqueue_ok {encodedLen : Json → Nat} {room : Bool} {channelId threadId method : String}
    {payload : Json} {envelope : QueuedLiveEnvelope}
    (h : enqueue encodedLen room channelId threadId method payload channel =
      .ok (channel', envelope)) :
    Enqueued channelId threadId method payload channel channel' envelope := by
  unfold enqueue at h
  cases hadv : advance channel method payload with
  | error reason =>
    rw [hadv] at h
    cases h
  | ok next =>
  rw [hadv] at h
  change (if liveEnvelopeTooLarge _ then _ else _) = _ at h
  obtain ⟨hphase, hcloses, hnext⟩ := advance_ok hadv
  split at h
  · cases h
  split at h
  · cases h
  rename_i hlimit
  split at h
  · cases h
    have howner : next.ownerId = channel.ownerId := by rw [hnext]
    have hthr : next.threadId = channel.threadId := by rw [hnext]
    have hseq : next.nextSequence = channel.nextSequence := by rw [hnext]
    have henv : next.queuedEnvelopes = channel.queuedEnvelopes := by rw [hnext]
    have hbytes : next.queuedBytes = channel.queuedBytes := by rw [hnext]
    simp only [liveQueueLimitExceeded, Bool.or_eq_true, decide_eq_true_eq, not_or, not_lt,
      not_le] at hlimit
    refine ⟨howner, hthr, rfl, by rw [← hseq], by rw [← hseq], by rw [← henv],
      by rw [← hbytes], ⟨hlimit.1, ?_⟩, hphase, hcloses⟩
    have hmax : liveChannelMaxBytes < max64 := by decide
    have hmin := hlimit.2
    unfold add64 at hmin
    dsimp only
    omega
  · cases h

end LiveRegistry

end CodeWide.Sync
