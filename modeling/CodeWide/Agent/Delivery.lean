import CodeWide.Lib.Run
import CodeWide.Lib.Positions

/-!
# Messages queued for an agent

`send` calls, and `deliver` calls of observed turn ends, go on from one lock, or one await, to the
next.
-/

namespace CodeWide.Agent.Orchestration

open Lib List

inductive TurnEnd where
  | completed
  | interrupted
  | failed

inductive ChildState where
  | running (turnId : Option Nat)
  | settled (ending : TurnEnd) (turnId : Option Nat)

def ChildState.isRunning : ChildState → Bool
  | .running _ => true
  | .settled .. => false

inductive SendMode where
  | queue
  | steer

inductive StartAnswer where
  | started (turnId : Nat)
  | busy (activeTurnId : Nat)
  | failed

inductive Stage where
  /-- `send` before `ensure_tracked` reads the tracker. -/
  | reading (mode : SendMode)
  | readingThread (mode : SendMode)
  | decided (mode : SendMode) (state : ChildState)
  | resolving
  | checking
  | marking
  | asking
  | answered (answer : StartAnswer)
  | requeueing

structure Task where
  message : String
  ticket : Option Nat
  stage : Stage

structure QueuedMessage where
  ticket : Nat
  message : String
deriving DecidableEq

inductive TurnEvent where
  | started (turnId : Nat)
  | ended (turnId : Nat) (ending : TurnEnd)

structure System where
  /-- `Tracked` of the agent, unless the companion has not seen it since it started. -/
  state : Option ChildState
  queue : List QueuedMessage
  tasks : List Task
  running : Option Nat
  nextTurn : Nat
  /-- Turn events the tracker has not observed yet. -/
  events : List TurnEvent
  nextTicket : Nat
  started : List Nat
  cancelled : List Nat

/-- What the lookup of the agent's provider finds. -/
inductive Resolved where
  | found
  | unreadable
  | unavailable

inductive Input where
  | send (message : String) (mode : SendMode)
  | advance (task : Nat) (state : ChildState) (resolved : Resolved) (fails : Bool)
  | cancel
  | track (state : ChildState)
  | turnStarts
  | turnEnds (ending : TurnEnd)
  | observe

namespace System

def replace (s : System) (i : Nat) (tasks : List Task) : System :=
  { s with tasks := s.tasks.take i ++ tasks ++ s.tasks.drop (i + 1) }

def registerIfAbsent (s : System) (state : ChildState) : System :=
  { s with state := some (s.state.getD state) }

def reported (turnId : Nat) : ChildState → ChildState
  | .settled ending (some ended) =>
    if ended = turnId then .settled ending (some ended) else .running (some turnId)
  | _ => .running (some turnId)

def recordStarted (s : System) (turnId : Nat) : System :=
  { s with state := s.state.map (reported turnId) }

def failedToStart (s : System) : System :=
  { s with state := s.state.map (fun _ => .settled .failed none) }

def enqueue (s : System) (message : String) : System :=
  match s.state with
  | none => s
  | some _ =>
    { s with queue := s.queue ++ [⟨s.nextTicket, message⟩], nextTicket := s.nextTicket + 1 }

def requeueFront (s : System) (task : Task) : System :=
  match s.state with
  | none => s
  | some _ =>
    match task.ticket with
    | some ticket => { s with queue := ⟨ticket, task.message⟩ :: s.queue }
    | none =>
      { s with
        queue := ⟨s.nextTicket, task.message⟩ :: s.queue
        nextTicket := s.nextTicket + 1 }

def turnStart (s : System) (ticket : Option Nat) (fails : Bool) : System × StartAnswer :=
  if fails then (s, .failed)
  else
    match s.running with
    | some active => (s, .busy active)
    | none =>
      let turnId := s.nextTurn
      ({ s with
          running := some turnId
          nextTurn := turnId + 1
          events := s.events ++ [.started turnId]
          started := s.started ++ ticket.toList },
        .started turnId)

def advance (s : System) (i : Nat) (task : Task) (state : ChildState) (resolved : Resolved)
    (fails : Bool) : System :=
  let goes (s : System) (stage : Stage) : System := s.replace i [{ task with stage }]
  let ends (s : System) : System := s.replace i []
  match task.stage with
  | .reading mode =>
    match s.state with
    | some tracked => goes s (.decided mode tracked)
    | none => goes s (.readingThread mode)
  | .readingThread mode =>
    let registered := s.registerIfAbsent state
    goes registered (.decided mode (s.state.getD state))
  | .decided .queue (.running _) => ends (s.enqueue task.message)
  | .decided .steer (.running _) => ends s
  | .decided _ (.settled ..) => goes s .checking
  | .resolving =>
    match resolved with
    | .found => goes s .checking
    | .unreadable => ends (s.requeueFront task)
    | .unavailable => ends s
  | .checking =>
    match s.state with
    | some (.settled ..) => goes s .marking
    | _ => goes s .asking
  | .marking => goes { s with state := some (.running none) } .asking
  | .asking =>
    let (answered, answer) := s.turnStart task.ticket fails
    goes answered (.answered answer)
  | .answered (.started turnId) => ends (s.recordStarted turnId)
  | .answered (.busy turnId) => goes (s.recordStarted turnId) .requeueing
  | .answered .failed => ends s.failedToStart
  | .requeueing => ends (s.requeueFront task)

def observe (s : System) : TurnEvent → System
  | .started turnId => { s with state := some (.running (some turnId)) }
  | .ended turnId ending =>
    let settled := { s with state := some (.settled ending (some turnId)) }
    match s.queue with
    | [] => settled
    | first :: rest =>
      { settled with
        queue := rest
        tasks := s.tasks ++ [⟨first.message, some first.ticket, .resolving⟩] }

def step (s : System) : Input → System
  | .send message mode => { s with tasks := s.tasks ++ [⟨message, none, .reading mode⟩] }
  | .advance i state resolved fails =>
    match s.tasks[i]? with
    | none => s
    | some task => s.advance i task state resolved fails
  | .cancel =>
    { s with queue := [], cancelled := s.cancelled ++ s.queue.map (fun queued => queued.ticket) }
  | .track state => s.registerIfAbsent state
  | .turnStarts =>
    match s.running with
    | some _ => s
    | none =>
      { s with
        running := some s.nextTurn
        nextTurn := s.nextTurn + 1
        events := s.events ++ [.started s.nextTurn] }
  | .turnEnds ending =>
    match s.running with
    | none => s
    | some turnId => { s with running := none, events := s.events ++ [.ended turnId ending] }
  | .observe =>
    match s.events with
    | [] => s
    | event :: rest => { s with events := rest }.observe event

def initial (state : Option ChildState) (running : Option Nat) : System where
  state
  queue := []
  tasks := []
  running
  nextTurn := running.elim 0 (fun turnId => turnId + 1)
  events := []
  nextTicket := 0
  started := []
  cancelled := []

/-! ## What the messages are promised -/

def Task.onItsWay (task : Task) : Option Nat :=
  match task.stage with
  | .answered (.started _) => none
  | _ => task.ticket

def delivering (s : System) : List Nat := s.tasks.filterMap Task.onItsWay

def queued (s : System) : List Nat := s.queue.map (fun queued => queued.ticket)

def Stage.beforeStart : Stage → Bool
  | .resolving => true
  | .checking => true
  | .marking => true
  | .asking => true
  | _ => false

/-- A turn runs, or its end is still to be observed, or a start is on its way. -/
def awake (s : System) : Bool :=
  s.running.isSome ||
    s.events.any (fun event => match event with
      | .ended .. => true
      | .started _ => false) ||
    s.tasks.any (fun task => Stage.beforeStart task.stage)

structure Delivered (s : System) : Prop where
  /-- A queued message is started, on its way to a start, in the queue or cancelled. -/
  kept : ∀ ticket < s.nextTicket, ticket ∈ s.started ∨ ticket ∈ s.delivering ∨
    ticket ∈ s.queued ∨ ticket ∈ s.cancelled
  /-- Nothing is handed over again after a start. -/
  once : (s.started ++ s.delivering ++ s.queued).Nodup
  ordered : s.started.Pairwise (fun a b => a < b)
  noneLeft : s.awake = false → s.queue = []

/-! ## Steps that keep the promises -/

/-- The step loses no message, keeps their order, and lets one wait only for an agent that will wake
it. -/
def Orderly (s : System) : Input → Prop
  | .advance i _ resolved fails =>
    match s.tasks[i]? with
    | none => True
    | some task =>
      match task.stage with
      | .decided .queue (.running _) => s.awake = true
      | .resolving =>
        match resolved with
        | .found => True
        | .unreadable => (s.replace i []).awake = true
        | .unavailable => False
      | .asking =>
        fails = true → task.ticket = none ∧ (s.queue = [] ∨ (s.replace i []).awake = true)
      | .requeueing => s.awake = true ∧ (task.ticket = none → s.queue = [])
      | _ => True
  | .observe =>
    match s.events with
    | .ended .. :: _ => s.queue = [] ∨ s.delivering = []
    | _ => True
  | _ => True

/-! ## The invariant -/

/-- What a task has at its stage. -/
def Task.Sound (state : Option ChildState) (task : Task) : Prop :=
  match task.stage with
  | .reading _ => task.ticket = none
  | .readingThread _ => task.ticket = none
  | .decided .. => task.ticket = none ∧ state.isSome = true
  | .resolving => task.ticket.isSome = true ∧ state.isSome = true
  | .answered .failed => task.ticket = none ∧ state.isSome = true
  | _ => state.isSome = true

structure Inv (s : System) : Prop where
  sorted : (s.started ++ s.delivering ++ s.queued).Pairwise (fun a b => a < b)
  bound : ∀ ticket ∈ s.started ++ s.delivering ++ s.queued, ticket < s.nextTicket
  kept : ∀ ticket < s.nextTicket, ticket ∈ s.started ∨ ticket ∈ s.delivering ∨
    ticket ∈ s.queued ∨ ticket ∈ s.cancelled
  single : s.delivering.length ≤ 1
  wake : s.queue ≠ [] → s.awake = true
  sound : ∀ task ∈ s.tasks, Task.Sound s.state task
  tracked : s.queue ≠ [] → s.state.isSome = true

variable {s s' : System}

lemma Inv.delivered (h : Inv s) : s.Delivered where
  kept := h.kept
  once := h.sorted.imp (fun hlt => Nat.ne_of_lt hlt)
  ordered := by
    have hsort := h.sorted
    rw [append_assoc, pairwise_append] at hsort
    exact hsort.1
  noneLeft hasleep := by
    by_contra hqueue
    rw [h.wake hqueue] at hasleep
    exact Bool.noConfusion hasleep

lemma Task.Sound.mono {state state' : Option ChildState} {task : Task}
    (h : Task.Sound state task) (hstate : state.isSome = true → state'.isSome = true) :
    Task.Sound state' task := by
  unfold Task.Sound at h ⊢
  split <;> simp_all

lemma Inv.of_moved (h : Inv s)
    (hsame : s'.started ++ s'.delivering ++ s'.queued = s.started ++ s.delivering ++ s.queued)
    (hnext : s'.nextTicket = s.nextTicket) (hcanc : s'.cancelled = s.cancelled)
    (hsingle : s'.delivering.length ≤ 1) (hwake : s'.queue ≠ [] → s'.awake = true)
    (hsound : ∀ task ∈ s'.tasks, Task.Sound s'.state task)
    (htrack : s'.queue ≠ [] → s'.state.isSome = true) : Inv s' where
  sorted := by
    rw [hsame]
    exact h.sorted
  bound := by
    rw [hsame, hnext]
    exact h.bound
  kept := by
    intro ticket htick
    have hold := h.kept ticket (by omega)
    have hmem : (ticket ∈ s'.started ++ s'.delivering ++ s'.queued) =
        (ticket ∈ s.started ++ s.delivering ++ s.queued) := by rw [hsame]
    simp only [mem_append, or_assoc, eq_iff_iff] at hmem
    rw [hcanc]
    tauto
  single := hsingle
  wake := hwake
  sound := hsound
  tracked := htrack

lemma Inv.of_same (h : Inv s) (hqueue : s'.queue = s.queue) (hnext : s'.nextTicket = s.nextTicket)
    (hstarted : s'.started = s.started) (hcanc : s'.cancelled = s.cancelled)
    (hdlv : s'.delivering = s.delivering)
    (hwake : s.queue ≠ [] → s.awake = true → s'.awake = true)
    (hsound : ∀ task ∈ s'.tasks, Task.Sound s'.state task)
    (hstate : s.state.isSome = true → s'.state.isSome = true) : Inv s' := by
  have hq : s'.queued = s.queued := by
    unfold queued
    rw [hqueue]
  refine h.of_moved ?_ hnext hcanc ?_ ?_ hsound ?_
  · rw [hstarted, hdlv, hq]
  · rw [hdlv]
    exact h.single
  · rw [hqueue]
    exact fun hne => hwake hne (h.wake hne)
  · rw [hqueue]
    exact fun hne => hstate (h.tracked hne)

/-! ### Tasks -/

section Tasks

variable {front back : List Task} {task : Task}

lemma replace_tasks (h : s.tasks = front ++ task :: back) (new : List Task) :
    s.replace front.length new = { s with tasks := front ++ new ++ back } := by
  unfold replace
  rw [h]
  simp

lemma delivering_split (h : s.tasks = front ++ task :: back) :
    s.delivering = front.filterMap Task.onItsWay ++ (Task.onItsWay task).toList ++
      back.filterMap Task.onItsWay := by
  unfold delivering
  rw [h, filterMap_append, append_assoc]
  cases hway : Task.onItsWay task <;> simp [hway]

lemma Inv.only (h : Inv s) (htasks : s.tasks = front ++ task :: back) {ticket : Nat}
    (hway : Task.onItsWay task = some ticket) :
    front.filterMap Task.onItsWay = [] ∧ back.filterMap Task.onItsWay = [] := by
  have hsingle := h.single
  rw [delivering_split htasks, hway] at hsingle
  simp only [length_append, Option.toList_some, length_cons, length_nil] at hsingle
  constructor
  · exact eq_nil_of_length_eq_zero (by omega)
  · exact eq_nil_of_length_eq_zero (by omega)

lemma any_split {p : Task → Bool} (hp : p task = false) :
    (front ++ task :: back).any p = (front ++ back).any p := by
  simp [hp]

lemma Inv.sound_replaced (h : Inv s) (htasks : s.tasks = front ++ task :: back) {new : List Task}
    {state : Option ChildState} (hstate : s.state.isSome = true → state.isSome = true)
    (hnew : ∀ other ∈ new, Task.Sound state other) :
    ∀ other ∈ front ++ new ++ back, Task.Sound state other := by
  intro other hother
  rw [mem_append, mem_append] at hother
  rcases hother with (hother | hother) | hother
  · exact (h.sound other (by rw [htasks]; simp [hother])).mono hstate
  · exact hnew other hother
  · exact (h.sound other (by rw [htasks]; simp [hother])).mono hstate

lemma Inv.goes (h : Inv s) (htasks : s.tasks = front ++ task :: back) (state : Option ChildState)
    (stage : Stage) (hway : Task.onItsWay { task with stage } = Task.onItsWay task)
    (hstage : Stage.beforeStart task.stage = true →
      Stage.beforeStart stage = true ∨ s.queue = [] ∨ (s.replace front.length []).awake = true)
    (hstate : s.state.isSome = true → state.isSome = true)
    (hsound : Task.Sound state { task with stage }) :
    Inv (replace { s with state } front.length [{ task with stage }]) := by
  rw [@replace_tasks { s with state } front back task htasks]
  refine h.of_same rfl rfl rfl rfl ?_ ?_ ?_ hstate
  · rw [delivering_split htasks]
    unfold delivering
    rw [append_assoc, singleton_append, filterMap_append, append_assoc]
    cases hold : Task.onItsWay task <;> simp [hway, hold]
  · intro hqueue hawake
    unfold awake at hawake ⊢
    rw [htasks] at hawake
    rw [replace_tasks htasks] at hstage
    simp only [awake, any_append, any_cons, any_nil, Bool.or_false, Bool.or_eq_true,
      Bool.or_assoc] at hawake hstage ⊢
    tauto
  refine h.sound_replaced htasks hstate ?_
  intro other hother
  rw [mem_singleton.mp hother]
  exact hsound

lemma Inv.ends (h : Inv s) (htasks : s.tasks = front ++ task :: back)
    (hway : Task.onItsWay task = none) (hstage : Stage.beforeStart task.stage = false)
    (state : Option ChildState) (hstate : s.state.isSome = true → state.isSome = true) :
    Inv (replace { s with state } front.length []) := by
  rw [@replace_tasks { s with state } front back task htasks]
  refine h.of_same rfl rfl rfl rfl ?_ ?_ ?_ hstate
  · rw [delivering_split htasks, hway]
    unfold delivering
    simp
  · intro _ hawake
    unfold awake at hawake ⊢
    rw [htasks, any_split hstage] at hawake
    simpa using hawake
  · refine h.sound_replaced htasks hstate ?_
    intro other hother
    exact absurd hother not_mem_nil

lemma Inv.enqueue (h : Inv s) (hawake : s.awake = true) (message : String) :
    Inv (s.enqueue message) := by
  unfold System.enqueue
  split
  · exact h
  rename_i tracked hstate
  constructor
  · show (s.started ++ s.delivering ++ map _ (s.queue ++ [_])).Pairwise _
    rw [map_append, ← append_assoc, pairwise_append]
    refine ⟨h.sorted, pairwise_singleton _ _, ?_⟩
    intro ticket htick other hother
    rw [mem_singleton.mp hother]
    exact h.bound ticket htick
  · show ∀ ticket ∈ s.started ++ s.delivering ++ map _ (s.queue ++ [_]), _
    intro ticket htick
    rw [map_append, ← append_assoc, mem_append] at htick
    rcases htick with htick | htick
    · exact Nat.lt_succ_of_lt (h.bound ticket htick)
    · rw [mem_singleton.mp htick]
      exact Nat.lt_succ_self _
  · show ∀ ticket < s.nextTicket + 1, _ ∨ _ ∨ ticket ∈ map _ (s.queue ++ [_]) ∨ _
    intro ticket htick
    rw [map_append, mem_append]
    by_cases hnew : ticket = s.nextTicket
    · exact .inr (.inr (.inl (.inr (by simp [hnew]))))
    rcases h.kept ticket (by omega) with hkept | hkept | hkept | hkept
    · exact .inl hkept
    · exact .inr (.inl hkept)
    · exact .inr (.inr (.inl (.inl hkept)))
    · exact .inr (.inr (.inr hkept))
  · exact h.single
  · exact fun _ => hawake
  · exact h.sound
  · exact fun _ => by rw [hstate]; rfl

lemma requeueFront_fresh (htick : task.ticket = none) (hqueue : s.queue = []) :
    s.requeueFront task = s.enqueue task.message := by
  unfold requeueFront System.enqueue
  rw [htick, hqueue]
  rfl

lemma Inv.requeue (h : Inv s) (htasks : s.tasks = front ++ task :: back)
    (hway : Task.onItsWay task = task.ticket)
    (hawake : (s.replace front.length []).awake = true) (hstate : s.state.isSome = true)
    (hfront : task.ticket = none → s.queue = []) :
    Inv ((s.requeueFront task).replace front.length []) := by
  rw [replace_tasks htasks] at hawake
  cases htick : task.ticket with
  | none =>
    have hended : Inv { s with tasks := front ++ [] ++ back } := by
      refine h.of_same rfl rfl rfl rfl ?_ (fun _ _ => hawake)
        (h.sound_replaced htasks (fun h => h) (fun _ hother => absurd hother not_mem_nil))
        (fun h => h)
      rw [delivering_split htasks, hway, htick]
      simp [delivering]
    have hq := hended.enqueue hawake task.message
    have hcommutes : (s.enqueue task.message).replace front.length [] =
        System.enqueue { s with tasks := front ++ [] ++ back } task.message := by
      obtain ⟨tracked, htrack⟩ := Option.isSome_iff_exists.mp hstate
      simp [System.enqueue, htrack, replace, htasks]
    rw [requeueFront_fresh htick (hfront htick), hcommutes]
    exact hq
  | some ticket =>
  obtain ⟨tracked, htrack⟩ := Option.isSome_iff_exists.mp hstate
  obtain ⟨hnoneFront, hnoneBack⟩ := h.only htasks (hway.trans htick)
  have hres : (s.requeueFront task).replace front.length [] = { s with
        queue := ⟨ticket, task.message⟩ :: s.queue
        tasks := front ++ [] ++ back } := by
    simp [requeueFront, htrack, htick, replace, htasks]
  have hnone : (front ++ [] ++ back).filterMap Task.onItsWay = [] := by
    simp [filterMap_append, hnoneFront, hnoneBack]
  rw [hres]
  refine h.of_moved ?_ rfl rfl ?_ (fun _ => hawake)
    (h.sound_replaced htasks (fun h => h) (fun _ hother => absurd hother not_mem_nil))
    (fun _ => hstate)
  · rw [delivering_split htasks, hway, htick, hnoneFront, hnoneBack]
    unfold delivering
    rw [hnone]
    simp [queued]
  · unfold delivering
    rw [hnone]
    exact Nat.zero_le 1

lemma Inv.starts (h : Inv s) (htasks : s.tasks = front ++ task :: back)
    (hway : Task.onItsWay task = task.ticket) (hstate : s.state.isSome = true) (turnId : Nat) :
    Inv (replace { s with
      running := some turnId
      nextTurn := turnId + 1
      events := s.events ++ [.started turnId]
      started := s.started ++ task.ticket.toList } front.length
      [{ task with stage := .answered (.started turnId) }]) := by
  rw [@replace_tasks { s with
    running := some turnId
    nextTurn := turnId + 1
    events := s.events ++ [.started turnId]
    started := s.started ++ task.ticket.toList } front back task htasks]
  have hdlv : (front ++ [{ task with stage := Stage.answered (.started turnId) }] ++
      back).filterMap Task.onItsWay =
      front.filterMap Task.onItsWay ++ back.filterMap Task.onItsWay := by
    rw [append_assoc, filterMap_append, singleton_append, filterMap_cons_none]
    rfl
  have hsound : ∀ other ∈ front ++ [{ task with stage := Stage.answered (.started turnId) }] ++
      back, Task.Sound s.state other := by
    refine h.sound_replaced htasks (fun h => h) ?_
    intro other hother
    rw [mem_singleton.mp hother]
    exact hstate
  refine h.of_moved ?_ rfl rfl ?_ (fun _ => rfl) hsound (fun _ => hstate)
  · rw [delivering_split htasks, hway]
    unfold delivering
    rw [hdlv]
    cases htick : task.ticket with
    | none => simp [queued]
    | some ticket =>
      obtain ⟨hnoneFront, hnoneBack⟩ := h.only htasks (hway.trans htick)
      simp [queued, hnoneFront, hnoneBack]
  have hsingle := h.single
  rw [delivering_split htasks] at hsingle
  unfold delivering
  rw [hdlv]
  simp only [length_append] at hsingle ⊢
  omega

lemma Inv.advance (h : Inv s) {state : ChildState} {resolved : Resolved} {fails : Bool}
    (htasks : s.tasks = front ++ task :: back)
    (horderly : Orderly s (.advance front.length state resolved fails)) :
    Inv (s.advance front.length task state resolved fails) := by
  have hget : s.tasks[front.length]? = some task := by simp [htasks]
  have hsound := h.sound task (by simp [htasks])
  obtain ⟨message, ticket, stage⟩ := task
  simp only [Orderly, hget] at horderly
  cases stage with
  | reading mode =>
    cases hstate : s.state with
    | none =>
      simp only [System.advance, hstate]
      exact h.goes htasks s.state _ rfl (fun hstage => Bool.noConfusion hstage) (fun h => h) hsound
    | some tracked =>
    simp only [System.advance, hstate]
    refine h.goes htasks s.state _ rfl (fun hstage => Bool.noConfusion hstage) (fun h => h) ?_
    rw [hstate]
    exact And.intro hsound rfl
  | readingThread mode =>
    exact h.goes htasks (some (s.state.getD state)) _ rfl (fun hstage => Bool.noConfusion hstage)
      (fun _ => rfl) (And.intro hsound rfl)
  | decided mode tracked =>
    have hnone : ticket = none := hsound.1
    have hstate : s.state.isSome = true := hsound.2
    cases tracked with
    | settled ending turnId =>
      cases mode <;> exact h.goes htasks s.state _ rfl (fun hstage => Bool.noConfusion hstage)
        (fun h => h) hstate
    | running turnId =>
    cases mode with
    | steer => exact h.ends htasks hnone rfl s.state (fun h => h)
    | queue =>
    have hsame : (s.enqueue message).tasks = s.tasks := by
      unfold System.enqueue
      split <;> rfl
    exact (h.enqueue horderly message).ends (hsame.trans htasks) hnone rfl _ (fun h => h)
  | resolving =>
    cases resolved with
    | found => exact h.goes htasks s.state _ rfl (fun _ => .inl rfl) (fun h => h) hsound.2
    | unreadable =>
      obtain ⟨htick, hstate⟩ := hsound
      refine h.requeue htasks rfl horderly hstate ?_
      intro hnone
      rw [hnone] at htick
      exact Bool.noConfusion htick
    | unavailable => exact horderly.elim
  | checking =>
    cases hstate : s.state with
    | none =>
      simp only [System.advance, hstate]
      exact h.goes htasks s.state _ rfl (fun _ => .inl rfl) (fun h => h) hsound
    | some tracked =>
    cases tracked <;> simp only [System.advance, hstate]
    · exact h.goes htasks s.state _ rfl (fun _ => .inl rfl) (fun h => h) hsound
    · exact h.goes htasks s.state _ rfl (fun _ => .inl rfl) (fun h => h) hsound
  | marking =>
    exact h.goes htasks (some (.running none)) _ rfl (fun _ => .inl rfl) (fun _ => rfl) (by rfl)
  | asking =>
    have hstate : s.state.isSome = true := hsound
    cases fails with
    | true =>
      obtain ⟨hnone, hwake⟩ := horderly rfl
      exact h.goes htasks s.state _ rfl (fun _ => .inr hwake) (fun h => h) ⟨hnone, hstate⟩
    | false =>
    cases hrun : s.running with
    | some active =>
      have hans : s.advance front.length ⟨message, ticket, .asking⟩ state resolved false =
          s.replace front.length [⟨message, ticket, .answered (.busy active)⟩] := by
        simp [System.advance, turnStart, hrun]
      rw [hans]
      refine h.goes htasks s.state _ rfl (fun _ => .inr (.inr ?_)) (fun h => h) hstate
      simp [awake, replace, hrun]
    | none =>
    have hans : s.advance front.length ⟨message, ticket, .asking⟩ state resolved false =
        replace { s with
          running := some s.nextTurn
          nextTurn := s.nextTurn + 1
          events := s.events ++ [.started s.nextTurn]
          started := s.started ++ ticket.toList } front.length
          [⟨message, ticket, .answered (.started s.nextTurn)⟩] := by
      simp [System.advance, turnStart, hrun]
    rw [hans]
    exact h.starts htasks rfl hstate s.nextTurn
  | answered answer =>
    cases answer with
    | started turnId =>
      exact h.ends htasks rfl rfl (s.state.map (reported turnId)) (fun h => by simpa using h)
    | busy turnId =>
      have hstate : s.state.isSome = true := hsound
      have hmapped : (s.state.map (reported turnId)).isSome = true := by simpa using hstate
      exact h.goes htasks _ _ rfl (fun hstage => Bool.noConfusion hstage) (fun _ => hmapped) hmapped
    | failed =>
      exact h.ends htasks hsound.1 rfl (s.state.map (fun _ => .settled .failed none))
        (fun h => by simpa using h)
  | requeueing =>
  refine h.requeue htasks rfl ?_ hsound horderly.2
  have hawake : s.awake = true := horderly.1
  rw [replace_tasks htasks]
  unfold awake at hawake ⊢
  rw [htasks, any_split rfl] at hawake
  simpa using hawake

end Tasks

lemma Inv.cancel (h : Inv s) : Inv (s.step .cancel) where
  sorted := by
    show (s.started ++ s.delivering ++ []).Pairwise _
    rw [append_nil]
    exact (pairwise_append.mp h.sorted).1
  bound := by
    show ∀ ticket ∈ s.started ++ s.delivering ++ [], _
    rw [append_nil]
    exact fun ticket htick => h.bound ticket (mem_append_left _ htick)
  kept := by
    intro ticket htick
    rcases h.kept ticket htick with hkept | hkept | hkept | hkept
    · exact .inl hkept
    · exact .inr (.inl hkept)
    · exact .inr (.inr (.inr (mem_append_right _ hkept)))
    · exact .inr (.inr (.inr (mem_append_left _ hkept)))
  single := h.single
  wake := fun hne => absurd rfl hne
  sound := h.sound
  tracked := fun hne => absurd rfl hne

/-- A turn event is observed; the end of a turn hands the first queued message to a task. -/
lemma Inv.observed (h : Inv s) (horderly : Orderly s .observe) : Inv (s.step .observe) := by
  unfold System.step
  cases hevs : s.events with
  | nil => exact h
  | cons event rest =>
  cases event with
  | started turnId =>
    refine h.of_same rfl rfl rfl rfl rfl ?_ ?_ (fun _ => rfl)
    · intro _ hawake
      unfold awake at hawake
      rw [hevs] at hawake
      exact hawake
    · exact fun task htask => (h.sound task htask).mono (fun _ => rfl)
  | ended turnId ending =>
  simp only [Orderly, hevs] at horderly
  have hkeep : ∀ task ∈ s.tasks, Task.Sound (some (.settled ending (some turnId))) task :=
    fun task htask => (h.sound task htask).mono (fun _ => rfl)
  cases hqueue : s.queue with
  | nil =>
    simp only [System.observe]
    refine h.of_same hqueue.symm rfl rfl rfl rfl ?_ hkeep (fun _ => rfl)
    exact fun hne => absurd hqueue hne
  | cons first others =>
  simp only [System.observe]
  have hnone : s.tasks.filterMap Task.onItsWay = [] := by
    rcases horderly with hempty | hnone
    · rw [hempty] at hqueue
      exact absurd hqueue (cons_ne_nil first others).symm
    · exact hnone
  refine h.of_moved ?_ rfl rfl ?_ ?_ ?_ (fun _ => rfl)
  · simp [delivering, queued, hqueue, hnone, Task.onItsWay]
  · simp [delivering, hnone, Task.onItsWay]
  · simp [awake, Stage.beforeStart]
  intro task htask
  rcases mem_concat.mp htask with htask | htask
  · exact hkeep task htask
  · rw [htask]
    exact And.intro rfl rfl

lemma Inv.step (s : System) (input : Input) (h : Inv s) (horderly : Orderly s input) :
    Inv (s.step input) := by
  cases input with
  | send message mode =>
    refine h.of_same rfl rfl rfl rfl ?_ ?_ ?_ (fun h => h)
    · simp [System.step, delivering, Task.onItsWay]
    · intro _ hawake
      simpa [System.step, awake, Stage.beforeStart] using hawake
    intro task htask
    rcases mem_concat.mp htask with htask | htask
    · exact h.sound task htask
    · rw [htask]
      rfl
  | advance i state resolved fails =>
    cases htask : s.tasks[i]? with
    | none =>
      simp only [System.step, htask]
      exact h
    | some task =>
    obtain ⟨front, back, htasks, rfl⟩ := exists_split htask
    simp only [System.step, htask]
    exact h.advance htasks horderly
  | cancel => exact h.cancel
  | track state =>
    refine h.of_same rfl rfl rfl rfl rfl (fun _ hawake => hawake) ?_ (fun _ => rfl)
    exact fun task htask => (h.sound task htask).mono (fun _ => rfl)
  | turnStarts =>
    simp only [System.step]
    split
    · exact h
    · refine h.of_same rfl rfl rfl rfl rfl ?_ h.sound (fun h => h)
      exact fun _ _ => rfl
  | turnEnds ending =>
    simp only [System.step]
    split
    · exact h
    · refine h.of_same rfl rfl rfl rfl rfl ?_ h.sound (fun h => h)
      intro _ _
      simp [awake]
  | observe => exact h.observed horderly

lemma Inv.initial (state : Option ChildState) (running : Option Nat) :
    Inv (initial state running) where
  sorted := List.Pairwise.nil
  bound := fun _ htick => absurd htick not_mem_nil
  kept := fun _ htick => absurd htick (Nat.not_lt_zero _)
  single := Nat.zero_le 1
  wake := fun hne => absurd rfl hne
  sound := fun _ htask => absurd htask not_mem_nil
  tracked := fun hne => absurd rfl hne

/-- Queued messages are started once, in their order, and none stays behind. -/
theorem delivered_of_orderly (state : Option ChildState) (running : Option Nat)
    (inputs : List Input) (horderly : Always System.step Orderly (initial state running) inputs) :
    ∀ l m, inputs = l ++ m → (exec System.step (initial state running) l).Delivered := by
  rintro l m rfl
  exact (exec_invariant_of_always Inv.step (Inv.initial state running)
    (always_append.mp horderly).1).delivered

/-- A task goes on to its next stage, without a failure. -/
def goOn (task : Nat) : Input := .advance task (.running none) .found false

/-- One message starts a turn, another is queued behind it and started after its end. -/
def twoMessages : List Input :=
  [.send "review" .queue, goOn 0, goOn 0, goOn 0, goOn 0, goOn 0, .observe, goOn 0,
    .send "fix" .queue, goOn 0, goOn 0, .turnEnds .completed, .observe, goOn 0, goOn 0, goOn 0,
    goOn 0, goOn 0]

theorem twoMessages_delivered :
    (exec System.step (initial (some (.settled .completed none)) none) twoMessages).Delivered ∧
    (exec System.step (initial (some (.settled .completed none)) none) twoMessages).started =
      [0] := by
  constructor
  · refine delivered_of_orderly _ _ twoMessages ?_ twoMessages [] (append_nil _).symm
    exact ⟨trivial, trivial, trivial, trivial, trivial, nofun, trivial, trivial, trivial, trivial,
      rfl, trivial, .inr rfl, trivial, trivial, trivial, nofun, trivial, trivial⟩
  · decide

/-- The turn the sender sees ends before the message enters the queue, and nothing starts it any
more. -/
theorem message_queued_after_turn_end :
    ¬ ∀ (state : Option ChildState) (running : Option Nat) (inputs : List Input),
      (exec System.step (initial state running) inputs).Delivered := by
  intro hall
  let inputs : List Input :=
    [.send "fix" .queue, goOn 0, .turnEnds .completed, .observe, goOn 0]
  have hstranded := (hall (some (.running (some 0))) (some 0) inputs).noneLeft (by decide)
  have hqueue : (exec System.step (initial (some (.running (some 0))) (some 0)) inputs).queue =
      [⟨0, "fix"⟩] := by decide
  rw [hqueue] at hstranded
  exact absurd hstranded (cons_ne_nil _ _)

end System

end CodeWide.Agent.Orchestration
