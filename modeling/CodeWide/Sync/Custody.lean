import CodeWide.Sync.Pump

/-!
# Custody of a claim

The claim a task holds: it is granted one at a time, hands only the claimed command to the provider,
and the task asks to resolve it before it ends.
-/

namespace CodeWide.Sync

open Lib Store

def claimAnswer? : (q : Query) → q.Answer → Option (String × OutboxCommand × Nat)
  | .store (.claimDispatch c), .ok (.acquired claimed token) => some (c, claimed, token)
  | .store (.claimSteer c _), .ok (.acquired claimed token) => some (c, claimed, token)
  | _, _ => none

def Query.resolves : Query → Bool
  | .store (.resolve ..) => true
  | _ => false

/-- The transactions a task may ask for under the claim it holds. -/
def allowedOp (held : Option (String × Nat)) : OutboxOp → Prop
  | .claimDispatch _ => held = none
  | .claimSteer .. => held = none
  | .resolve c token _ => held = some (c, token)
  | .setState _ state _ => state = .failed ∨ state = .delivered
  | .put .. => False
  | .retryFailed _ => False
  | .edit .. => False
  | .place .. => False
  | .cancel _ => False
  | _ => True

def custody : Protocol Query Query.Answer (Option (String × Nat)) where
  allowed held q :=
    (∀ op, q = .store op → allowedOp held op) ∧
    ∀ claimed, q.handsOver? = some claimed → ∃ token, held = some (claimed.commandId, token)
  possible q a := ∀ c claimed token, claimAnswer? q a = some (c, claimed, token) →
    claimed.commandId = c
  next held q a :=
    match claimAnswer? q a with
    | some (c, _, token) => some (c, token)
    | none => if q.resolves then none else held

variable {α : Type} {held : Option (String × Nat)} {post : Option (String × Nat) → α → Prop}

lemma follows_pure {a : α} (h : post held a) : Prog.Follows custody post held (pure a) := h

variable {q : Query}

lemma claimAnswer?_of_ne {a : q.Answer} (hdispatch : ∀ c, q ≠ .store (.claimDispatch c))
    (hsteer : ∀ c operationId, q ≠ .store (.claimSteer c operationId)) :
    claimAnswer? q a = none := by
  unfold claimAnswer?
  split
  · exact absurd rfl (hdispatch _)
  · exact absurd rfl (hsteer _ _)
  · rfl

variable {f : q.Answer → Task α}

lemma next_of_ne_store (hstore : ∀ op, q ≠ .store op) (held : Option (String × Nat)) (a : q.Answer) :
    custody.next held q a = held := by
  have hans : claimAnswer? q a = none :=
    claimAnswer?_of_ne (fun _ => hstore _) (fun _ _ => hstore _)
  have hres : q.resolves = false := by
    cases q <;> first
      | rfl
      | exact absurd rfl (hstore _)
  simp [custody, hans, hres]

lemma follows_ask (hstore : ∀ op, q ≠ .store op)
    (hhands : q.handsOver? = none) (h : ∀ a, Prog.Follows custody post held (f a)) :
    Prog.Follows custody post held (ask q >>= f) := by
  refine ⟨⟨fun op hop => absurd hop (hstore op), fun claimed hclaim => ?_⟩, fun a _ => ?_⟩
  · rw [hhands] at hclaim
    cases hclaim
  · rw [next_of_ne_store hstore]
    exact h a

lemma follows_handOver {claimed : OutboxCommand} {token : Nat}
    (hhands : q.handsOver? = some claimed)
    (h : ∀ a, Prog.Follows custody post (some (claimed.commandId, token)) (f a)) :
    Prog.Follows custody post (some (claimed.commandId, token)) (ask q >>= f) := by
  have hstore : ∀ op, q ≠ .store op := by
    rintro op rfl
    cases hhands
  refine ⟨⟨fun op hop => absurd hop (hstore op), fun claimed' hclaim' => ?_⟩, fun a _ => ?_⟩
  · rw [hhands] at hclaim'
    cases hclaim'
    exact ⟨token, rfl⟩
  · rw [next_of_ne_store hstore]
    exact h a

lemma follows_write {op : OutboxOp} (hop : allowedOp held op) (hclaims : op.claims? = none)
    (hresolve : ∀ c token resolution, op ≠ .resolve c token resolution) :
    Prog.Follows custody (fun held' _ => held' = held) held (writeOutbox op) := by
  refine ⟨⟨fun op' hop' => ?_, fun claimed hclaim => ?_⟩, fun a _ => ?_⟩
  · cases hop'
    exact hop
  · cases hclaim
  have hans : claimAnswer? (.store op) a = none := by
    refine claimAnswer?_of_ne ?_ ?_
    · rintro c ⟨⟩
      cases hclaims
    · rintro c operationId ⟨⟩
      cases hclaims
  have hres : (Query.store op).resolves = false := by
    cases op <;> first
      | rfl
      | exact absurd rfl (hresolve _ _ _)
  change custody.next held (.store op) a = held
  simp [custody, hans, hres]

lemma follows_resolve {c : String} {token : Nat} {resolution : OutboxClaimResolution} :
    Prog.Follows custody (fun held _ => held = none) (some (c, token))
      (resolveOutboxClaim c token resolution) := by
  refine ⟨⟨fun op hop => ?_, fun claimed hclaim => ?_⟩, fun a _ => rfl⟩
  · cases hop
    rfl
  · cases hclaim

lemma follows_claim {op : OutboxOp} {f : Except StoreError op.Answer → Task α}
    (hop : allowedOp none op)
    (hgr : ∀ a c claimed token, claimAnswer? (.store op) a = some (c, claimed, token) →
      claimed.commandId = c → Prog.Follows custody post (some (c, token)) (f a))
    (href : ∀ a, claimAnswer? (.store op) a = none → Prog.Follows custody post none (f a)) :
    Prog.Follows custody post none (ask (.store op) >>= f) := by
  refine ⟨⟨fun op' hop' => ?_, fun claimed hclaim => ?_⟩, fun a ha => ?_⟩
  · cases hop'
    exact hop
  · cases hclaim
  cases hans : claimAnswer? (.store op) a with
  | none =>
    have hnext : custody.next none (.store op) a = none := by simp [custody, hans]
    rw [hnext]
    exact href a hans
  | some granted =>
  obtain ⟨c, claimed, token⟩ := granted
  have hnext : custody.next none (.store op) a = some (c, token) := by simp [custody, hans]
  rw [hnext]
  exact hgr a c claimed token hans (ha c claimed token hans)

lemma follows_then {β : Type} {p : Task β} {f : β → Task α}
    (hp : Prog.Follows custody (fun held' _ => held' = held) held p)
    (hf : ∀ b, Prog.Follows custody post held (f b)) :
    Prog.Follows custody post held (p >>= f) := by
  refine Prog.Follows.bind hp ?_
  rintro held' b rfl
  exact hf b

/-- The part keeps the claim it starts with. -/
abbrev Keeps (held : Option (String × Nat)) (p : Task α) : Prop :=
  Prog.Follows custody (fun held' _ => held' = held) held p

/-- The part starts with the claim and ends without one. -/
abbrev Settles (c : String) (token : Nat) (p : Task Unit) : Prop :=
  Prog.Follows custody (fun held _ => held = none) (some (c, token)) p

lemma keeps_pure {a : α} : Keeps held (pure a : Task α) := rfl

lemma keeps_ask (hstore : ∀ op, q ≠ .store op)
    (hhands : q.handsOver? = none) (h : ∀ a, Keeps held (f a)) : Keeps held (ask q >>= f) :=
  follows_ask hstore hhands h

lemma keeps_rpcErrorMessage {response : Json} : Keeps held (rpcErrorMessage response) := by
  unfold rpcErrorMessage
  dsimp only
  split
  · exact keeps_pure
  · exact keeps_ask (fun _ h => by cases h) rfl (fun _ => keeps_pure)

section Writes

variable {c : String} {state : OutboxState} {lastError : Option String} {error : String} {n : Nat}

lemma keeps_waitOutbox : Keeps held (waitOutbox c state lastError n) :=
  follows_write trivial rfl (fun _ _ _ h => by cases h)

lemma keeps_deferOutbox : Keeps held (deferOutbox c state error n) :=
  follows_write trivial rfl (fun _ _ _ h => by cases h)

lemma keeps_failQueuedOutbox : Keeps held (failQueuedOutbox c error) :=
  follows_write trivial rfl (fun _ _ _ h => by cases h)

lemma keeps_setOutboxState (h : state = .failed ∨ state = .delivered) :
    Keeps held (setOutboxState c state lastError) :=
  follows_write h rfl (fun _ _ _ h => by cases h)

end Writes

variable {command claimed : OutboxCommand} {target : Target} {token : Nat} {params : Json}

lemma keeps_workspaceReady : Keeps held (workspaceReady command) := by
  unfold workspaceReady
  split
  · exact keeps_pure
  refine keeps_ask (fun _ h => by cases h) rfl (fun a => ?_)
  split
  · exact follows_then keeps_waitOutbox (fun _ => keeps_pure)
  · split
    · exact keeps_pure
    · exact follows_then (keeps_setOutboxState (.inl rfl)) (fun _ => keeps_pure)
    · exact follows_then keeps_waitOutbox (fun _ => keeps_pure)
  · exact follows_then (keeps_setOutboxState (.inl rfl)) (fun _ => keeps_pure)
  · refine keeps_ask (fun _ h => by cases h) rfl (fun delay => ?_)
    exact follows_then keeps_deferOutbox (fun _ => keeps_pure)

lemma keeps_commandTarget : Keeps held (commandTarget command) := by
  refine keeps_ask (fun _ h => by cases h) rfl (fun a => ?_)
  split
  · exact keeps_pure
  · split
    · exact follows_then (keeps_setOutboxState (.inl rfl)) (fun _ => keeps_pure)
    · exact keeps_pure

lemma keeps_admitCommand : Keeps held (admitCommand target command) := by
  refine keeps_ask (fun _ h => by cases h) rfl (fun a => ?_)
  split
  · exact keeps_pure
  · exact follows_then keeps_waitOutbox (fun _ => keeps_pure)
  · refine keeps_ask (fun _ h => by cases h) rfl (fun delay => ?_)
    exact follows_then keeps_deferOutbox (fun _ => keeps_pure)
  · exact follows_then (keeps_setOutboxState (.inl rfl)) (fun _ => keeps_pure)

lemma keeps_historyContainsClientMessage :
    Keeps held (historyContainsClientMessage target command) := by
  unfold historyContainsClientMessage
  split
  · refine keeps_ask (fun _ h => by cases h) rfl (fun a => ?_)
    split <;> exact keeps_pure
  split
  · refine keeps_ask (fun _ h => by cases h) rfl (fun a => ?_)
    split
    · exact keeps_pure
    · split
      · exact follows_then keeps_rpcErrorMessage (fun _ => keeps_pure)
      · split <;> exact keeps_pure
  refine keeps_ask (fun _ h => by cases h) rfl (fun a => ?_)
  split
  · exact keeps_pure
  · exact keeps_pure
  · split <;> exact keeps_pure

lemma keeps_nativeResolution {delivered : Except DispatchError Json} :
    Keeps held (nativeResolution delivered claimed) := by
  unfold nativeResolution
  split
  · split
    · exact follows_then keeps_rpcErrorMessage (fun _ => keeps_pure)
    · exact keeps_pure
  · split
    · exact keeps_pure
    · exact keeps_ask (fun _ h => by cases h) rfl (fun _ => keeps_pure)

lemma keeps_updateTurnSettings : Keeps held (updateTurnSettings target claimed params) := by
  refine keeps_ask (fun _ h => by cases h) rfl (fun a => ?_)
  split
  · exact keeps_pure
  refine keeps_ask (fun _ h => by cases h) rfl (fun a => ?_)
  split
  · exact keeps_pure
  · exact keeps_pure
  · exact keeps_ask (fun _ h => by cases h) rfl (fun _ => keeps_pure)

lemma keeps_neutralTurnStart {input : Json} :
    Keeps (some (claimed.commandId, token)) (neutralTurnStart target claimed input) := by
  refine follows_handOver rfl (fun a => ?_)
  split
  · exact keeps_pure
  · exact keeps_pure
  · exact keeps_pure
  · split
    · exact keeps_pure
    · exact keeps_ask (fun _ h => by cases h) rfl (fun _ => keeps_pure)

lemma keeps_neutralResolution :
    Keeps (some (claimed.commandId, token)) (neutralResolution target claimed params) := by
  refine keeps_ask (fun _ h => by cases h) rfl (fun a => ?_)
  split
  · exact keeps_pure
  refine follows_then keeps_updateTurnSettings (fun r => ?_)
  split
  · exact keeps_pure
  · exact keeps_neutralTurnStart

variable {prepared : Json}

lemma keeps_refreshParams : Keeps held (refreshParams command claimed prepared) := by
  unfold refreshParams
  split
  · refine keeps_ask (fun _ h => by cases h) rfl (fun injected => ?_)
    exact keeps_ask (fun _ h => by cases h) rfl (fun _ => keeps_pure)
  · exact keeps_pure

lemma settles_sendClaimed :
    Settles claimed.commandId token (sendClaimed target command claimed token prepared) := by
  refine follows_then keeps_refreshParams (fun refreshed => ?_)
  split
  · exact follows_resolve
  split
  · refine follows_handOver rfl (fun delivered => ?_)
    exact follows_then keeps_nativeResolution (fun _ => follows_resolve)
  · exact follows_then keeps_neutralResolution (fun _ => follows_resolve)

/-- The task starts and ends without a claim. -/
abbrev Unburdened (p : Task Unit) : Prop := Keeps none p

lemma unburdened_deliverOutboxStart : Unburdened (deliverOutboxStart target command) := by
  refine keeps_ask (fun _ h => by cases h) rfl (fun injected => ?_)
  refine keeps_ask (fun _ h => by cases h) rfl (fun prepared => ?_)
  split
  · exact keeps_pure
  · exact keeps_failQueuedOutbox
  refine follows_claim rfl (fun a c claimed token hans hid => ?_) (fun a hans => ?_)
  · cases a with
    | error e => cases hans
    | ok outcome =>
    cases outcome with
    | acquired row token' =>
      cases hans
      rw [← hid]
      exact settles_sendClaimed
    | duplicate row | unavailable row => cases hans
  cases a with
  | error e => exact keeps_pure
  | ok outcome =>
  cases outcome with
  | acquired row token' => cases hans
  | duplicate row | unavailable row => exact keeps_pure

lemma unburdened_reconcileUncertain : Unburdened (reconcileUncertain target command) := by
  refine follows_then keeps_historyContainsClientMessage (fun found => ?_)
  split
  · exact keeps_setOutboxState (.inr rfl)
  · exact keeps_waitOutbox

lemma keeps_queueTurnReady : Keeps held (queueTurnReady command) := by
  unfold queueTurnReady
  split
  · refine keeps_ask (fun _ h => by cases h) rfl (fun a => ?_)
    split
    · exact keeps_pure
    · exact follows_then keeps_waitOutbox (fun _ => keeps_pure)
  · exact keeps_pure

lemma unburdened_reconcileAdmitted : Unburdened (reconcileAdmitted target command) := by
  unfold reconcileAdmitted
  split
  · exact unburdened_reconcileUncertain
  refine follows_then keeps_queueTurnReady (fun ready => ?_)
  split
  · exact keeps_pure
  · exact unburdened_deliverOutboxStart

lemma unburdened_reconcileRouted : Unburdened (reconcileRouted target command) := by
  refine keeps_ask (fun _ h => by cases h) rfl (fun scope => ?_)
  split
  · exact keeps_setOutboxState (.inl rfl)
  refine keeps_ask (fun _ h => by cases h) rfl (fun status => ?_)
  split
  · exact keeps_pure
  refine follows_then keeps_admitCommand (fun admitted => ?_)
  split
  · exact keeps_pure
  · exact unburdened_reconcileAdmitted

lemma unburdened_reconcileOutboxCommand : Unburdened (reconcileOutboxCommand command) := by
  refine follows_then keeps_workspaceReady (fun ready => ?_)
  split
  · exact keeps_pure
  refine follows_then keeps_commandTarget (fun target => ?_)
  split
  · exact keeps_pure
  · exact unburdened_reconcileRouted

lemma unburdened_pumpPass : Unburdened pumpPass := by
  refine keeps_ask (fun _ h => by cases h) rfl (fun heads => ?_)
  split
  · exact Prog.Follows.each (fun command _ => unburdened_reconcileOutboxCommand)
  · exact keeps_pure

lemma unburdened_pumpStart : Unburdened pumpStart := by
  have hprune : Unburdened (writeOutbox .prune) := follows_write trivial rfl (fun _ _ _ h => by cases h)
  have hrecover : Unburdened (writeOutbox .recoverLegacy) := follows_write trivial rfl (fun _ _ _ h => by cases h)
  exact follows_then hprune (fun _ => hrecover)

variable {expectedTurnId : String}

lemma settles_sendClaimedSteer {input : Json} :
    Settles claimed.commandId token (sendClaimedSteer claimed token input expectedTurnId) := by
  refine follows_handOver rfl (fun response => ?_)
  split
  · exact follows_ask (fun _ h => by cases h) rfl (fun _ => follows_resolve)
  · split
    · exact follows_then keeps_rpcErrorMessage (fun _ => follows_resolve)
    · exact follows_resolve

lemma settles_steerClaimed : Settles claimed.commandId token
      (steerClaimed command claimed token prepared expectedTurnId) := by
  unfold steerClaimed
  split
  · refine follows_ask (fun _ h => by cases h) rfl (fun prepared => ?_)
    split
    · exact follows_resolve
    · exact settles_sendClaimedSteer
  · exact settles_sendClaimedSteer

lemma unburdened_handleQueuedSteer {requestId : Json} {commandId expectedTurnId : String} :
    Unburdened (handleQueuedSteer requestId commandId expectedTurnId) := by
  refine keeps_ask (fun _ h => by cases h) rfl (fun commands => ?_)
  split
  · exact keeps_pure
  split
  · exact keeps_pure
  split
  · exact keeps_pure
  refine keeps_ask (fun _ h => by cases h) rfl (fun prepared => ?_)
  split
  · exact keeps_pure
  refine keeps_ask (fun _ h => by cases h) rfl (fun operationId => ?_)
  refine follows_claim rfl (fun a c claimed token hans hid => ?_) (fun a hans => ?_)
  · cases a with
    | error e => cases hans
    | ok outcome =>
    cases outcome with
    | acquired row token' =>
      cases hans
      rw [← hid]
      exact settles_steerClaimed
    | duplicate row | unavailable row => cases hans
  cases a with
  | error e => exact keeps_pure
  | ok outcome =>
  cases outcome with
  | acquired row token' => cases hans
  | duplicate row | unavailable row => exact keeps_pure

end CodeWide.Sync
