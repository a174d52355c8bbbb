import CodeWide.Store.OpenClaims
import CodeWide.Sync.Custody

/-!
# The outbox with its pump, its sockets and its restarts

The durable table with the pump and one task for each running steer.
-/

namespace CodeWide.Sync

open Lib Store Function

inductive TaskId where
  | pump
  | socket (n : Nat)
deriving DecidableEq

structure System where
  table : Outbox
  tasks : TaskId → Task Unit
  held : TaskId → Option (String × Nat)
  /-- The command's last attempt ended indeterminately, and no retry or steer since. -/
  ambiguous : String → Bool

inductive QueueRpc where
  | put (commandId remoteThreadId : String) (params : Json) (metadata : OutboxPutMetadata)
  | edit (commandId : String) (replacementInput : Json)
  | cancel (commandId : String)
  | retry (commandId : String)
  | move (commandId : String) (beforeCommandId : Option String)

def QueueRpc.op : QueueRpc → OutboxOp
  | put c thread params metadata => .put c thread params metadata
  | edit c input => .edit c input
  | cancel c => .cancel c
  | retry c => .retryFailed c
  | move c before => .place c before

inductive Action where
  | rpc (now : Nat) (request : QueueRpc)
  | pass
  | steer (n : Nat) (requestId : Json) (commandId expectedTurnId : String)
  | advance (id : TaskId) (now : Nat) (fails : Option StoreError) (world : (q : Query) → q.Answer)
  | abort (n : Nat)
  | restart

def endedUncertain? : (op : OutboxOp) → Except StoreError op.Answer → Option String
  | .resolve c _ (.indeterminate ..), .ok (.applied _) => some c
  | _, _ => none

def askedAgain? : (op : OutboxOp) → Except StoreError op.Answer → Option String
  | .retryFailed c, .ok _ => some c
  | .claimSteer c _, .ok (.acquired ..) => some c
  | _, _ => none

def nextHandOver? : Task Unit → Option OutboxCommand
  | .pure _ => none
  | .ask q _ => q.handsOver?

def nextOp? : Task Unit → Option OutboxOp
  | .ask (.store op) _ => some op
  | _ => none

namespace System

/-- An empty outbox before the first start of the process. -/
def empty : System := ⟨∅, fun _ => .pure (), fun _ => none, fun _ => false⟩

/-- The record of ambiguous commands after a transaction that left the table `after`. -/
def noteOp (ambiguous : String → Bool) (op : OutboxOp) (a : Except StoreError op.Answer)
    (after : Outbox) (c : String) : Bool :=
  after.contains c && (decide (endedUncertain? op a = some c) ||
    (ambiguous c && decide (askedAgain? op a ≠ some c)))

def perform (enc : Encoding) (s : System) (now : Nat) (op : OutboxOp) :
    System × Except StoreError op.Answer :=
  let r := op.run enc s.table now
  ({ s with table := r.1, ambiguous := noteOp s.ambiguous op r.2 r.1 }, r.2)

def reply (enc : Encoding) (s : System) (now : Nat) (fails : Option StoreError)
    (world : (q : Query) → q.Answer) : (q : Query) → System × q.Answer
  | .store op =>
    match fails with
    | some e => (s, .error e)
    | none => s.perform enc now op
  | .list => (s, fails.elim (.ok (outboxList s.table none)) .error)
  | .readyHeads => (s, fails.elim (.ok (outboxReadyHeads s.table now)) .error)
  | q => (s, world q)

def spawn (s : System) (id : TaskId) (task : Task Unit) : System :=
  if (s.tasks id).isDone then { s with tasks := update s.tasks id task } else s

def step (enc : Encoding) (s : System) : Action → System
  | .rpc now request => (s.perform enc now request.op).1
  | .pass => s.spawn .pump pumpPass
  | .steer n requestId commandId expectedTurnId =>
    s.spawn (.socket n) (handleQueuedSteer requestId commandId expectedTurnId)
  | .advance id now fails world =>
    match s.tasks id with
    | .pure _ => s
    | .ask q k =>
      let r := s.reply enc now fails world q
      { r.1 with
        tasks := update s.tasks id (k r.2)
        held := update s.held id (custody.next (s.held id) q r.2) }
  | .abort n =>
    { s with
      tasks := update s.tasks (.socket n) (.pure ())
      held := update s.held (.socket n) none }
  | .restart =>
    { s with
      tasks := update (fun _ => .pure ()) .pump pumpStart
      held := fun _ => none }

end System

lemma grant?_of_claimAnswer? {op : OutboxOp} {a : Except StoreError op.Answer} {c : String}
    {claimed : OutboxCommand} {token : Nat}
    (h : claimAnswer? (.store op) a = some (c, claimed, token)) :
    ∃ g, op.grant? a = some g ∧ g.commandId = c ∧ g.token = token := by
  unfold claimAnswer? at h
  split at h
  · rename_i heq hans
    cases heq
    cases hans
    cases h
    exact ⟨_, rfl, rfl, rfl⟩
  · rename_i heq hans
    cases heq
    cases hans
    cases h
    exact ⟨_, rfl, rfl, rfl⟩
  · cases h

lemma claimAnswer?_of_grant? {op : OutboxOp} {a : Except StoreError op.Answer}
    (h : claimAnswer? (.store op) a = none) : op.grant? a = none := by
  cases op <;> first
    | rfl
    | (cases a <;> first
        | rfl
        | (rename_i outcome; cases outcome <;> first
            | rfl
            | cases h))

lemma possible_run {enc : Encoding} {table : Outbox} (h : Keyed table) (now : Nat)
    (op : OutboxOp) : custody.possible (.store op) (op.run enc table now).2 := by
  intro c claimed token hansw
  have hclaim : ∀ {d kind operationId table'} {row : OutboxCommand} {t : Nat},
      outboxClaim table now d kind operationId = .ok (table', .acquired row t) →
      row.commandId = d := by
    intro d kind operationId table' row t hok
    rcases outboxClaim_ok hok with ⟨-, hnot⟩ | ⟨r, hr, -, -, -, -, ha⟩
    · exact absurd rfl (hnot row t)
    · cases ha
      exact h d r hr
  unfold OutboxOp.run at hansw
  cases hrun : op.transact enc table now with
  | error e =>
    rw [hrun] at hansw
    cases op <;> cases hansw
  | ok r =>
  obtain ⟨table', a⟩ := r
  rw [hrun] at hansw
  cases op <;> first
    | cases hansw
    | cases a <;> cases hansw
  · exact hclaim hrun
  · obtain ⟨_, -, hrun⟩ := bind_ok hrun
    exact hclaim hrun

namespace System

/-- Every task keeps custody of its claim, which is the open one of its row. -/
structure Inv (s : System) : Prop where
  sound : Outbox.Sound s.table
  follows : ∀ id, Prog.Follows custody (fun held _ => held = none) (s.held id) (s.tasks id)
  holds : ∀ id c token, s.held id = some (c, token) →
    validateOutboxId c "command id" = .ok () ∧
    ∃ row, s.table.get? c = some row ∧ InFlight row token
  apart : ∀ i j c t u, s.held i = some (c, t) → s.held j = some (c, u) → i = j

lemma inv_empty : empty.Inv where
  sound := Outbox.sound_empty
  follows := fun _ => rfl
  holds := by
    intro id c token h
    cases h
  apart := by
    intro i j c t u h
    cases h

variable {enc : Encoding} {s : System} {c : String} {token : Nat}

variable {op : OutboxOp}

lemma Inv.holds_run (h : s.Inv) {now : Nat}
    {row : OutboxCommand} (hrow : s.table.get? c = some row) (hopen : InFlight row token)
    (hop : ∀ resolution, op ≠ .resolve c token resolution) :
    ∃ row, (op.run enc s.table now).1.get? c = some row ∧ InFlight row token :=
  ⟨row, h.sound.run_open hrow hopen hop, hopen⟩

lemma Inv.rpc (h : s.Inv) (now : Nat) (request : QueueRpc) :
    (s.perform enc now request.op).1.Inv where
  sound := h.sound.run enc now request.op
  follows := h.follows
  holds := by
    intro id c token hheld
    obtain ⟨hvalid, row, hrow, hopen⟩ := h.holds id c token hheld
    refine ⟨hvalid, h.holds_run hrow hopen (fun resolution => ?_)⟩
    cases request <;> nofun
  apart := h.apart

variable {id : TaskId} {task : Task Unit}

lemma Inv.spawn (h : s.Inv) (htask : Unburdened task) : (s.spawn id task).Inv := by
  unfold System.spawn
  split
  · rename_i hdone
    have hnone : s.held id = none := by
      have hfol := h.follows id
      cases htask' : s.tasks id with
      | pure a =>
        rw [htask'] at hfol
        exact hfol
      | ask q k =>
        rw [htask'] at hdone
        cases hdone
    refine ⟨h.sound, fun id' => ?_, h.holds, h.apart⟩
    rcases eq_or_ne id' id with rfl | hne
    · simp only [update_self, hnone]
      exact htask
    · simp only [update_of_ne hne]
      exact h.follows id'
  · exact h

lemma Inv.drop (h : s.Inv) {id : TaskId} (htask : Unburdened task) : System.Inv { s with
      tasks := update s.tasks id task, held := update s.held id none } := by
  refine ⟨h.sound, fun id' => ?_, fun id' c token hheld => ?_, fun i j c t u hi hj => ?_⟩
  · rcases eq_or_ne id' id with rfl | hne
    · simp only [update_self]
      exact htask
    · simp only [update_of_ne hne]
      exact h.follows id'
  · rcases eq_or_ne id' id with rfl | hne
    · simp only [update_self] at hheld
      cases hheld
    · simp only [update_of_ne hne] at hheld
      exact h.holds id' c token hheld
  rcases eq_or_ne i id with rfl | hni
  · simp only [update_self] at hi
    cases hi
  rcases eq_or_ne j id with rfl | hnj
  · simp only [update_self] at hj
    cases hj
  · simp only [update_of_ne hni] at hi
    simp only [update_of_ne hnj] at hj
    exact h.apart i j c t u hi hj

lemma Inv.restart (h : s.Inv) : (s.step enc .restart).Inv := by
  refine ⟨h.sound, fun id => ?_, fun id c token hheld => ?_, fun i j c t u hi => ?_⟩
  · rcases eq_or_ne id .pump with rfl | hne
    · simp only [System.step, update_self]
      exact unburdened_pumpStart
    · simp only [System.step, update_of_ne hne]
      rfl
  · cases hheld
  · cases hi

variable {q : Query} {k : q.Answer → Task Unit}

variable {table : Outbox}

/-- The state after the task `id` got an answer that left `table`: the claims held are open in it.
-/
lemma Inv.answered (h : s.Inv) {a : q.Answer} {ambiguous : String → Bool} (htask : s.tasks id = .ask q k)
    (ha : custody.possible q a) (hsound : table.Sound)
    (hoth : ∀ j c token, j ≠ id → s.held j = some (c, token) →
      ∃ row, table.get? c = some row ∧ InFlight row token)
    (hown : ∀ c token, custody.next (s.held id) q a = some (c, token) →
      validateOutboxId c "command id" = .ok () ∧
      (∃ row, table.get? c = some row ∧ InFlight row token) ∧
      ∀ j u, s.held j = some (c, u) → j = id) :
    System.Inv
      { table, ambiguous
        tasks := update s.tasks id (k a)
        held := update s.held id (custody.next (s.held id) q a) } := by
  refine ⟨hsound, fun id' => ?_, fun id' c token hheld => ?_, fun i j c t u hi hj => ?_⟩
  · rcases eq_or_ne id' id with rfl | hne
    · have hfol := h.follows id'
      rw [htask] at hfol
      simp only [update_self]
      exact hfol.2 a ha
    · simp only [update_of_ne hne]
      exact h.follows id'
  · rcases eq_or_ne id' id with rfl | hne
    · simp only [update_self] at hheld
      exact ⟨(hown c token hheld).1, (hown c token hheld).2.1⟩
    · simp only [update_of_ne hne] at hheld
      exact ⟨(h.holds id' c token hheld).1, hoth id' c token hne hheld⟩
  rcases eq_or_ne i id with rfl | hni
  · rcases eq_or_ne j i with rfl | hnj
    · rfl
    · simp only [update_self] at hi
      simp only [update_of_ne hnj] at hj
      exact ((hown c t hi).2.2 j u hj).symm
  rcases eq_or_ne j id with rfl | hnj
  · simp only [update_of_ne hni] at hi
    simp only [update_self] at hj
    exact (hown c u hj).2.2 i t hi
  · simp only [update_of_ne hni] at hi
    simp only [update_of_ne hnj] at hj
    exact h.apart i j c t u hi hj

lemma Inv.own (h : s.Inv) (hheld : s.held id = some (c, token))
    (hopen : ∃ row, table.get? c = some row ∧ InFlight row token) :
    validateOutboxId c "command id" = .ok () ∧
      (∃ row, table.get? c = some row ∧ InFlight row token) ∧
      ∀ j u, s.held j = some (c, u) → j = id :=
  ⟨(h.holds id c token hheld).1, hopen, fun j u hj => h.apart j id c u token hj hheld⟩

lemma next_eq {held : Option (String × Nat)} {a : q.Answer}
    (hansw : claimAnswer? q a = none) (h : custody.next held q a = some (c, token)) :
    q.resolves = false ∧ held = some (c, token) := by
  simp only [custody, hansw] at h
  split at h
  · cases h
  · rename_i hres
    exact ⟨Bool.not_eq_true _ ▸ hres, h⟩

lemma claimAnswer?_error (op : OutboxOp) (e : StoreError) :
    claimAnswer? (.store op) (.error e) = none := by
  cases op <;> rfl

lemma Inv.failed (h : s.Inv)
    {k : Except StoreError op.Answer → Task Unit} (htask : s.tasks id = .ask (.store op) k)
    (e : StoreError) :
    System.Inv { s with
      tasks := update s.tasks id (k (.error e))
      held := update s.held id (custody.next (s.held id) (.store op) (.error e)) } := by
  have hansw := claimAnswer?_error op e
  refine h.answered htask ?_ h.sound (fun j c token _ hj => (h.holds j c token hj).2) ?_
  · intro c claimed token hsome
    rw [hansw] at hsome
    cases hsome
  · intro c token hnext
    obtain ⟨-, hheld⟩ := next_eq hansw hnext
    exact h.own hheld (h.holds id c token hheld).2

lemma Inv.performed (h : s.Inv)
    {k : Except StoreError op.Answer → Task Unit} (htask : s.tasks id = .ask (.store op) k)
    (now : Nat) :
    System.Inv { (s.perform enc now op).1 with
      tasks := update s.tasks id (k (s.perform enc now op).2)
      held := update s.held id
        (custody.next (s.held id) (.store op) (s.perform enc now op).2) } := by
  have hfol := h.follows id
  rw [htask] at hfol
  have hallowed : allowedOp (s.held id) op := hfol.1.1 op rfl
  refine h.answered htask (possible_run h.sound.keyed now op) (h.sound.run enc now op) ?_ ?_
  · intro j c token hne hj
    obtain ⟨-, row, hrow, hopen⟩ := h.holds j c token hj
    refine h.holds_run hrow hopen (fun resolution => ?_)
    -- A task resolves only its own claim, so it is not the other's.
    rintro rfl
    exact hne (h.apart j id c token token hj hallowed)
  intro c token hnext
  cases hansw : claimAnswer? (.store op) (s.perform enc now op).2 with
  | none =>
    obtain ⟨hres, hheld⟩ := next_eq hansw hnext
    obtain ⟨-, row, hrow, hopen⟩ := h.holds id c token hheld
    refine h.own hheld (h.holds_run hrow hopen (fun resolution => ?_))
    rintro rfl
    cases hres
  | some granted =>
  obtain ⟨d, claimed, t⟩ := granted
  simp only [custody, hansw, Option.some.injEq, Prod.mk.injEq] at hnext
  obtain ⟨rfl, rfl⟩ := hnext
  obtain ⟨g, hg, rfl, rfl⟩ := grant?_of_claimAnswer? hansw
  obtain ⟨-, row, hrow, hstate, htoken, -, -, htable⟩ := run_grant hg
  refine ⟨run_grant_answer hg, ⟨claimedRow now g.kind g.operationId row, ?_, ?_⟩, ?_⟩
  · change (op.run enc s.table now).1.get? g.commandId = _
    rw [htable]
    exact Table.get?_insert_self _ _ _
  · exact ⟨_, rfl, htoken.symm, rfl⟩
  intro j u hj
  obtain ⟨-, row', hrow', hopen⟩ := h.holds j _ u hj
  rw [hrow] at hrow'
  cases hrow'
  have hunc := h.sound.uncertain _ row hrow (inFlight_iff.mpr ⟨u, hopen⟩)
  rw [hstate] at hunc
  cases hunc

lemma reply_of_ne {now : Nat} {fails : Option StoreError} {world : (q : Query) → q.Answer}
    (hstore : ∀ op, q ≠ .store op) : (s.reply enc now fails world q).1 = s := by
  cases q <;> first
    | rfl
    | exact absurd rfl (hstore _)

lemma Inv.asked (h : s.Inv)
    (htask : s.tasks id = .ask q k) (hstore : ∀ op, q ≠ .store op) (a : q.Answer) :
    System.Inv { s with
      tasks := update s.tasks id (k a)
      held := update s.held id (custody.next (s.held id) q a) } := by
  have hansw : claimAnswer? q a = none :=
    claimAnswer?_of_ne (fun _ => hstore _) (fun _ _ => hstore _)
  refine h.answered htask ?_ h.sound (fun j c token _ hj => (h.holds j c token hj).2) ?_
  · intro c claimed token hsome
    rw [hansw] at hsome
    cases hsome
  · intro c token hnext
    obtain ⟨-, hheld⟩ := next_eq hansw hnext
    exact h.own hheld (h.holds id c token hheld).2

lemma advance_cases {id : TaskId} {now : Nat} {fails : Option StoreError}
    {world : (q : Query) → q.Answer} :
    s.step enc (.advance id now fails world) = s ∨
    (∃ op k e, s.tasks id = .ask (.store op) k ∧ fails = some e ∧
      s.step enc (.advance id now fails world) = { s with
        tasks := update s.tasks id (k (.error e))
        held := update s.held id (custody.next (s.held id) (.store op) (.error e)) }) ∨
    (∃ op k, s.tasks id = .ask (.store op) k ∧ fails = none ∧
      s.step enc (.advance id now fails world) = { (s.perform enc now op).1 with
        tasks := update s.tasks id (k (s.perform enc now op).2)
        held := update s.held id
          (custody.next (s.held id) (.store op) (s.perform enc now op).2) }) ∨
    (∃ q k a, s.tasks id = .ask q k ∧ (∀ op, q ≠ .store op) ∧
      s.step enc (.advance id now fails world) = { s with
        tasks := update s.tasks id (k a)
        held := update s.held id (custody.next (s.held id) q a) }) := by
  cases htask : s.tasks id with
  | pure a =>
    refine .inl ?_
    simp only [System.step, htask]
  | ask q k =>
  by_cases hstore : ∃ op, q = .store op
  · obtain ⟨op, rfl⟩ := hstore
    cases fails with
    | some e => exact .inr (.inl ⟨op, k, e, rfl, rfl, by simp only [System.step, htask, reply]⟩)
    | none => exact .inr (.inr (.inl ⟨op, k, rfl, rfl, by simp only [System.step, htask, reply]⟩))
  have hne : ∀ op, q ≠ .store op := fun op hop => hstore ⟨op, hop⟩
  refine .inr (.inr (.inr ⟨q, k, (s.reply enc now fails world q).2, rfl, hne, ?_⟩))
  simp only [System.step, htask]
  rw [reply_of_ne hne]

lemma Inv.step (h : s.Inv) (action : Action) : (s.step enc action).Inv := by
  cases action with
  | rpc now request => exact h.rpc now request
  | pass => exact h.spawn unburdened_pumpPass
  | steer n requestId commandId expectedTurnId => exact h.spawn unburdened_handleQueuedSteer
  | abort n => exact h.drop rfl
  | restart => exact h.restart
  | advance id now fails world =>
  rcases @advance_cases enc s id now fails world with
    hsame | ⟨op, k, e, htask, -, hstep⟩ | ⟨op, k, htask, -, hstep⟩ | ⟨q, k, a, htask, hne, hstep⟩
  · rw [hsame]
    exact h
  · rw [hstep]
    exact h.failed htask e
  · rw [hstep]
    exact h.performed htask now
  · rw [hstep]
    exact h.asked htask hne a

lemma Inv.held_of_handOver (h : s.Inv) {id : TaskId} {claimed : OutboxCommand}
    (hnext : nextHandOver? (s.tasks id) = some claimed) :
    ∃ token, s.held id = some (claimed.commandId, token) := by
  have hfol := h.follows id
  cases htask : s.tasks id with
  | pure _ =>
    rw [htask] at hnext
    cases hnext
  | ask q k =>
    rw [htask] at hnext hfol
    exact hfol.1.2 claimed hnext

/-- A command is handed over under its own open claim, and never by two tasks at once. -/
theorem hand_over_exclusive (enc : Encoding) (actions : List Action) :
    let s := exec (step enc) empty actions
    ∀ id claimed, nextHandOver? (s.tasks id) = some claimed →
      (∃ token row, s.held id = some (claimed.commandId, token) ∧
        s.table.get? claimed.commandId = some row ∧ InFlight row token) ∧
      ∀ other handed, nextHandOver? (s.tasks other) = some handed →
        handed.commandId = claimed.commandId → other = id := by
  intro s id claimed hnext
  have h : s.Inv := exec_invariant (fun _ action h => h.step action) inv_empty actions
  obtain ⟨token, htoken⟩ := h.held_of_handOver hnext
  obtain ⟨-, row, hrow, hopen⟩ := h.holds id _ token htoken
  refine ⟨⟨token, row, htoken, hrow, hopen⟩, fun other handed hother hsame => ?_⟩
  obtain ⟨u, hu⟩ := h.held_of_handOver hother
  rw [hsame] at hu
  exact h.apart other id _ u token hu htoken

end System

end CodeWide.Sync
