import CodeWide.Sync.PendingRequests

/-!
# Responses to pending server requests

A response marks its key as being resolved, is delivered without the lock, and then removes the
request or releases the key.
-/

namespace CodeWide.Sync.Pending

open Lib

inductive ProviderError where
  | backpressure
  | reconnecting
  | disconnected
  | protocol
  | rejected
deriving DecidableEq

inductive Verdict where
  | closed (reason : String)
  | rejected (reason : String)
  | accepted

def failureReason : ProviderError → String
  | .backpressure => "upstream_backpressure"
  | .reconnecting | .disconnected => "app_server_reconnecting"
  | .protocol | .rejected => "upstream_delivery_failed"

/-- A response that was admitted: the table, the key it resolves and what is delivered. -/
structure Admission where
  pending : PendingServerRequests
  key : String
  response : Json

def admitServerResponse (e : Encoder) (p : PendingServerRequests) (response : Json) :
    Except Verdict Admission :=
  match response.get? "id" with
  | none => .error (.closed "invalid_server_response")
  | some id =>
    if (response.get? "method").isSome ∨
        (response.get? "result").isNone ∧ (response.get? "error").isNone then
      .error (.closed "invalid_server_response")
    else
      let key := rpcIdKey e id
      match p.requests.get? key with
      | none => .error (.rejected "already_resolved_or_unknown")
      | some request =>
        if key ∈ p.resolving then .error (.rejected "already_resolving")
        else .ok
          { pending := { p with resolving := key :: p.resolving }
            key := key
            response := enforceDynamicToolOutputLimit e response
              (classifyPendingRequestMethod (request.method?.getD "")) }

def finishServerResponse (e : Encoder) (p : PendingServerRequests) (key : String) :
    Option ProviderError → PendingServerRequests × Verdict
  | none => (removeServerRequestLocked e p key, .accepted)
  | some error =>
    ({ p with resolving := p.resolving.filter (fun k => decide (k ≠ key)) },
      .rejected (failureReason error))

structure Delivery where
  key : String
  serial : Nat
  response : Json
  outcome : Option (Option ProviderError) := none
  aborted : Bool := false
deriving DecidableEq

structure Retry where
  key : String
  serial : Nat
  outcome : Option (Option ProviderError) := none

structure Exchange where
  pending : PendingServerRequests := {}
  births : String → Nat := fun _ => 0
  nextSerial : Nat := 0
  deliveries : Table Nat Delivery := ∅
  nextTicket : Nat := 0
  delivered : List Nat := []
  rejectionBirths : String → Nat := fun _ => 0
  nextRejection : Nat := 0
  retry : Option Retry := none
  rejected : List Nat := []

namespace Exchange

def track (x : Exchange) (payload : Json) (e : Encoder) (pending : PendingServerRequests) : Exchange :=
  match observation e payload with
  | .request key =>
    if x.pending.requests.contains key then { x with pending := pending }
    else { x with
      pending := pending
      births := Function.update x.births key x.nextSerial
      nextSerial := x.nextSerial + 1 }
  | _ => { x with pending := pending }

def observe (e : Encoder) (x : Exchange) : List Json → Exchange
  | [] => x
  | payload :: rest =>
    match observeServerRequest e x.pending payload with
    | none => x
    | some pending => (x.track payload e pending).observe e rest

def reject (e : Encoder) (x : Exchange) (payload : Json) : Exchange :=
  match rejectOversizedDynamicToolRequest e x.pending payload with
  | .retained pending =>
    let key := rpcIdKey e ((payload.get? "id").getD .null)
    if x.pending.dynamicToolRejections.contains key then { x with pending := pending }
    else { x with
      pending := pending
      rejectionBirths := Function.update x.rejectionBirths key x.nextRejection
      nextRejection := x.nextRejection + 1 }
  | _ => x

def respond (e : Encoder) (x : Exchange) (response : Json) : Exchange :=
  match admitServerResponse e x.pending response with
  | .error _ => x
  | .ok admission => { x with
      pending := admission.pending
      deliveries := x.deliveries.insert x.nextTicket
        { key := admission.key
          serial := x.births admission.key
          response := admission.response }
      nextTicket := x.nextTicket + 1 }

/-- The transport answers a delivery, also one whose task was aborted. -/
def deliver (x : Exchange) (ticket : Nat) (error : Option ProviderError) : Exchange :=
  match x.deliveries.get? ticket with
  | none => x
  | some d =>
    if d.outcome.isSome then x
    else { x with
      deliveries := x.deliveries.insert ticket { d with outcome := some error }
      delivered := if error.isNone then x.delivered ++ [d.serial] else x.delivered }

/-- The task of a delivery goes on after the answer. -/
def finish (e : Encoder) (x : Exchange) (ticket : Nat) : Exchange :=
  match x.deliveries.get? ticket with
  | none => x
  | some d =>
    match d.outcome with
    | none => x
    | some error =>
      if d.aborted then x
      else { x with
        pending := (finishServerResponse e x.pending d.key error).1
        deliveries := x.deliveries.erase ticket }

/-- The session of a device ends and takes the task of its response with it. -/
def abort (x : Exchange) (ticket : Nat) : Exchange :=
  match x.deliveries.get? ticket with
  | none => x
  | some d => { x with deliveries := x.deliveries.insert ticket { d with aborted := true } }

def pickRejection (x : Exchange) (key : String) : Exchange :=
  if x.retry.isNone ∧ x.pending.dynamicToolRejections.contains key = true then
    { x with retry := some { key := key, serial := x.rejectionBirths key } }
  else x

def deliverRejection (x : Exchange) (error : Option ProviderError) : Exchange :=
  match x.retry with
  | none => x
  | some r =>
    if r.outcome.isSome then x
    else { x with
      retry := some { r with outcome := some error }
      rejected := if error.isNone then x.rejected ++ [r.serial] else x.rejected }

def finishRejection (x : Exchange) : Exchange :=
  match x.retry with
  | none => x
  | some r =>
    match r.outcome with
    | none => x
    | some none => { x with pending := removeDynamicToolRejection x.pending r.key, retry := none }
    | some (some _) => { x with retry := none }

end Exchange

/-- One section under the lock, or one answer of a transport. -/
inductive Event where
  | observe (payloads : List Json)
  | reject (payload : Json)
  | disconnect (owned : Json → Bool)
  | respond (response : Json)
  | deliver (ticket : Nat) (error : Option ProviderError)
  | finish (ticket : Nat)
  | abort (ticket : Nat)
  | pickRejection (key : String)
  | deliverRejection (error : Option ProviderError)
  | finishRejection

def step (e : Encoder) (x : Exchange) : Event → Exchange
  | .observe payloads => x.observe e payloads
  | .reject payload => x.reject e payload
  | .disconnect owned => { x with pending := clearUserRequestsOnDisconnect e owned x.pending }
  | .respond response => x.respond e response
  | .deliver ticket error => x.deliver ticket error
  | .finish ticket => x.finish e ticket
  | .abort ticket => x.abort ticket
  | .pickRejection key => x.pickRejection key
  | .deliverRejection error => x.deliverRejection error
  | .finishRejection => x.finishRejection

variable {e : Encoder}

variable {p : PendingServerRequests}

lemma Accounted.admitted (h : Accounted e p) {response : Json}
    {admission : Admission} (hadm : admitServerResponse e p response = .ok admission) :
    Accounted e admission.pending ∧ p.requests.contains admission.key = true ∧
      admission.key ∉ p.resolving ∧
      admission.pending = { p with resolving := admission.key :: p.resolving } := by
  unfold admitServerResponse at hadm
  split at hadm
  · cases hadm
  rename_i id hid
  split at hadm
  · cases hadm
  dsimp only at hadm
  split at hadm
  · cases hadm
  rename_i request hget
  split at hadm
  · cases hadm
  rename_i hfree
  cases hadm
  have hcont : p.requests.contains (rpcIdKey e id) = true := by
    rw [Table.contains, hget]
    rfl
  refine ⟨{ h with resolving := fun k hk => ?_ }, hcont, hfree, rfl⟩
  rcases List.mem_cons.mp hk with rfl | hk
  · exact hcont
  · exact h.resolving k hk

lemma Accounted.finish (h : Accounted e p) (key : String)
    (error : Option ProviderError) : Accounted e (finishServerResponse e p key error).1 := by
  cases error with
  | none => exact h.removeRequest key
  | some error =>
    exact { h with resolving := fun k hk => h.resolving k (List.mem_of_mem_filter hk) }

open Exchange

@[simp] lemma Exchange.track_pending (x : Exchange) (payload : Json) (pending : PendingServerRequests) :
    (x.track payload e pending).pending = pending := by
  unfold track
  split
  · split <;> rfl
  · rfl

lemma Exchange.observe_pending (x : Exchange) (payloads : List Json) :
    (x.observe e payloads).pending = (observeServerRequests e x.pending payloads).1 := by
  induction payloads generalizing x with
  | nil => rfl
  | cons payload rest ih =>
  rw [observe, observeServerRequests]
  cases hobs : observeServerRequest e x.pending payload with
  | none => rfl
  | some pending =>
    dsimp only
    rw [ih, track_pending]

lemma Accounted.observe (h : Accounted e p) (payloads : List Json) :
    Accounted e (observeServerRequests e p payloads).1 := by
  induction payloads generalizing p with
  | nil => exact h
  | cons payload rest ih =>
  rw [observeServerRequests]
  cases hobs : observeServerRequest e p payload with
  | none => exact h
  | some pending => exact ih (h.observeOne hobs)

lemma Accounted.reject {p p' : PendingServerRequests} (h : Accounted e p) {payload : Json}
    (hreject : rejectOversizedDynamicToolRequest e p payload = .retained p') :
    Accounted e p' ∧ ∃ rejection, p' = { p with
      dynamicToolRejections := p.dynamicToolRejections.insert
        (rpcIdKey e ((payload.get? "id").getD .null)) rejection
      dynamicToolRejectionBytes := p'.dynamicToolRejectionBytes } := by
  unfold rejectOversizedDynamicToolRequest at hreject
  split at hreject
  · cases hreject
  split at hreject
  · cases hreject
  rename_i id hid
  split at hreject
  · cases hreject
  dsimp only at hreject
  split at hreject
  · cases hreject
  split at hreject
  · rename_i p'' hret
    cases hreject
    obtain ⟨hacct, hshape⟩ := h.retainRejection hret
    have hkey : (payload.get? "id").getD .null = id := by
      unfold boundedDynamicToolRequestId at hid
      rw [(Option.filter_eq_some_iff.mp hid).1]
      rfl
    rw [hkey]
    exact ⟨hacct, _, hshape⟩
  · cases hreject

lemma accounted_step {x : Exchange} (h : Accounted e x.pending) (event : Event) :
    Accounted e (step e x event).pending := by
  cases event with
  | observe payloads =>
    show Accounted e (x.observe e payloads).pending
    rw [observe_pending]
    exact h.observe payloads
  | reject payload =>
    show Accounted e (x.reject e payload).pending
    unfold reject
    split
    · rename_i pending hretained
      obtain ⟨hacct, -⟩ := h.reject hretained
      dsimp only
      split <;> exact hacct
    · exact h
  | disconnect owned => exact h.disconnect owned
  | respond response =>
    show Accounted e (x.respond e response).pending
    unfold respond
    split
    · exact h
    · rename_i admission hadm
      exact (h.admitted hadm).1
  | deliver ticket error =>
    show Accounted e (x.deliver ticket error).pending
    unfold deliver
    split
    · exact h
    · split <;> exact h
  | finish ticket =>
    show Accounted e (x.finish e ticket).pending
    unfold finish
    split
    · exact h
    split
    · exact h
    · split
      · exact h
      · exact h.finish _ _
  | abort ticket =>
    show Accounted e (x.abort ticket).pending
    unfold abort
    split <;> exact h
  | pickRejection key =>
    show Accounted e (x.pickRejection key).pending
    unfold pickRejection
    split <;> exact h
  | deliverRejection error =>
    show Accounted e (x.deliverRejection error).pending
    unfold deliverRejection
    split
    · exact h
    · split <;> exact h
  | finishRejection =>
  show Accounted e x.finishRejection.pending
  unfold finishRejection
  split
  · exact h
  split
  · exact h
  · exact h.removeRejection _
  · exact h

end CodeWide.Sync.Pending
