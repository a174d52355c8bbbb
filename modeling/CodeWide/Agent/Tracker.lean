import CodeWide.Agent.Delivery

/-!
# The tracked state of an agent

One agent of `tracker.rs` from its registration at the spawn on.
-/

namespace CodeWide.Agent.Tracker

open Lib List Orchestration

inductive ChildState
  | running (turnId : Option Nat)
  | settled (ending : TurnEnd) (turnId : Option Nat) (finalMessage : Option String)

def ChildState.isRunning : ChildState → Bool
  | .running _ => true
  | .settled .. => false

structure TurnMessages where
  turnId : Option Nat
  finalAnswer : Option String
  last : Option String

structure Tracked where
  state : ChildState
  messages : TurnMessages

inductive TurnFact
  | started (turnId : Nat)
  | agentMessage (turnId : Nat) (text : String) (finalAnswer : Bool)
  | ended (turnId : Nat) (ending : TurnEnd) (error : Option String)

namespace Tracked

def started (entry : Tracked) (turnId : Nat) : Tracked :=
  match entry.state with
  | .settled _ (some ended) _ =>
    if ended = turnId then entry else { entry with state := .running (some turnId) }
  | _ => { entry with state := .running (some turnId) }

def failedToStart (entry : Tracked) : Tracked :=
  { entry with state := .settled .failed none none }

def observe (entry : Tracked) : TurnFact → Tracked
  | .started turnId => ⟨.running (some turnId), ⟨some turnId, none, none⟩⟩
  | .agentMessage turnId text finalAnswer =>
    let messages :=
      if entry.messages.turnId = some turnId then entry.messages else ⟨some turnId, none, none⟩
    if finalAnswer then { entry with messages := { messages with finalAnswer := some text } }
    else { entry with messages := { messages with last := some text } }
  | .ended turnId ending error =>
    let said := if entry.messages.turnId = some turnId then
      entry.messages.finalAnswer.or entry.messages.last else none
    ⟨.settled ending (some turnId) (said.or error), ⟨none, none, none⟩⟩

end Tracked

structure Turn where
  said : List (String × Bool)
  ending : Option (TurnEnd × Option String)

def Turn.lastOf (said : List (String × Bool)) (finalAnswer : Bool) : Option String :=
  ((said.filter fun m => m.2 == finalAnswer).map Prod.fst).getLast?

/-- Its own final answer, else its last message, else its error. -/
def Turn.message (turn : Turn) (error : Option String) : Option String :=
  ((lastOf turn.said true).or (lastOf turn.said false)).or error

structure System where
  tracked : Tracked
  /-- For each start request without an answer, how many turns had ended. -/
  requests : List Nat
  turns : Nat
  latest : Option Turn
  /-- An answer named the turn after the latest. -/
  ahead : Bool

def System.initial : System := ⟨⟨.running none, ⟨none, none, none⟩⟩, [], 0, none, false⟩

def System.over (s : System) : Prop := ∀ turn ∈ s.latest, turn.ending ≠ none

instance (s : System) : Decidable s.over :=
  inferInstanceAs (Decidable (∀ turn ∈ s.latest, turn.ending ≠ none))

inductive Event
  /-- The task read, at that moment or before, whether the agent runs. -/
  | startTurn (isRunning : Bool)
  | answered (request turnId : Nat)
  | rejected (request : Nat)
  | turnStarted
  | agentMessage (text : String) (finalAnswer : Bool)
  | turnEnded (ending : TurnEnd) (error : Option String)

def System.step (s : System) : Event → System
  | .startTurn isRunning =>
    { s with
      requests := s.requests ++ [if s.over then s.turns else s.turns - 1]
      tracked := if isRunning then s.tracked else { s.tracked with state := .running none } }
  | .answered i turnId =>
    match s.requests[i]? with
    | some since =>
      if since ≤ turnId then
        { s with requests := s.requests.eraseIdx i, tracked := s.tracked.started turnId,
                 ahead := s.ahead || decide (s.turns ≤ turnId) }
      else s
    | none => s
  | .rejected i =>
    match s.requests[i]? with
    | some _ => { s with requests := s.requests.eraseIdx i, tracked := s.tracked.failedToStart }
    | none => s
  | .turnStarted =>
    if s.over then
      { s with tracked := s.tracked.observe (.started s.turns), turns := s.turns + 1,
               latest := some ⟨[], none⟩, ahead := false }
    else s
  | .agentMessage text finalAnswer =>
    match s.latest with
    | some ⟨said, none⟩ =>
      { s with tracked := s.tracked.observe (.agentMessage (s.turns - 1) text finalAnswer),
               latest := some ⟨said ++ [(text, finalAnswer)], none⟩ }
    | _ => s
  | .turnEnded ending error =>
    match s.latest with
    | some ⟨said, none⟩ =>
      { s with tracked := s.tracked.observe (.ended (s.turns - 1) ending error),
               latest := some ⟨said, some (ending, error)⟩ }
    | _ => s

/-- A request was made after the latest turn had ended. -/
def Fresh (requests : List Nat) (turns : Nat) : Prop := ∃ since ∈ requests, turns ≤ since

/-- The answers that leave the tracker right. -/
def Meets (s : System) : Event → Prop
  | .answered i turnId =>
    (turnId + 1 < s.turns → ¬s.over ∨ s.ahead = true ∨ Fresh (s.requests.eraseIdx i) s.turns) ∧
      (s.turns ≤ turnId → turnId = s.turns ∧ s.over)
  | .rejected i => s.over ∧ s.ahead = false ∧
      (s.latest = none ∨ Fresh (s.requests.eraseIdx i) s.turns)
  | _ => True

/-- The tracked state tells what the most recently started turn does, or how it ended. -/
def Agrees (s : System) : Prop :=
  s.requests = [] →
    (s.ahead = true → s.tracked.state.isRunning = true) ∧
    (s.ahead = false → ∀ turn ∈ s.latest,
      match turn.ending with
      | none => s.tracked.state.isRunning = true
      | some (ending, error) =>
        s.tracked.state = .settled ending (some (s.turns - 1)) (turn.message error))

structure Inv (s : System) : Prop where
  unstarted : s.latest = none ↔ s.turns = 0
  ahead : s.ahead = true → s.over ∧ s.tracked.state.isRunning = true
  running : ∀ turn ∈ s.latest, turn.ending = none → s.tracked.state.isRunning = true ∧
    s.tracked.messages =
      ⟨some (s.turns - 1), Turn.lastOf turn.said true, Turn.lastOf turn.said false⟩
  settled : s.ahead = false → ∀ turn ∈ s.latest, ∀ ending error,
    turn.ending = some (ending, error) → Fresh s.requests s.turns ∨
      s.tracked.state = .settled ending (some (s.turns - 1)) (turn.message error)
  past : ∀ ending turnId message,
    s.tracked.state = .settled ending (some turnId) message → turnId < s.turns

variable {s : System}

lemma isRunning_started (entry : Tracked) (turnId : Nat)
    (h : ∀ ending message, entry.state ≠ .settled ending (some turnId) message) :
    (entry.started turnId).state.isRunning = true := by
  unfold Tracked.started
  split
  · rename_i ending ended message heq
    split
    · rename_i hsame
      exact absurd (hsame ▸ heq) (h ending message)
    · rfl
  · rfl

lemma eraseIdx_fresh {requests : List Nat} {i since turns : Nat} (h : Fresh requests turns)
    (hget : requests[i]? = some since) (hlt : since < turns) : Fresh (requests.eraseIdx i) turns := by
  obtain ⟨other, hother, hle⟩ := h
  obtain ⟨j, hj⟩ := mem_iff_getElem?.mp hother
  refine ⟨other, mem_eraseIdx_iff_getElem?.mpr ⟨j, ?_, hj⟩, hle⟩
  rintro rfl
  have := Option.some.inj (hj.symm.trans hget)
  omega

lemma lastOf_concat (said : List (String × Bool)) (text : String) (finalAnswer b : Bool) :
    Turn.lastOf (said ++ [(text, finalAnswer)]) b =
      if finalAnswer = b then some text else Turn.lastOf said b := by
  unfold Turn.lastOf
  cases finalAnswer <;> cases b <;> simp

/-- While the latest turn runs nothing else is expected. -/
lemma Inv.of_running (h : Inv s) {said : List (String × Bool)}
    (hlat : s.latest = some ⟨said, none⟩) : s.ahead = false ∧ s.turns ≠ 0 := by
  refine ⟨Bool.eq_false_iff.mpr fun hahead => (h.ahead hahead).1 _ hlat rfl, fun hzero => ?_⟩
  rw [h.unstarted.mpr hzero] at hlat
  cases hlat

lemma over_of_ending {turn : Turn} (hlat : s.latest = some turn) (hended : turn.ending ≠ none) :
    s.over := fun other hother => by
  rw [Option.mem_unique hother hlat]
  exact hended

lemma messages_started (entry : Tracked) (turnId : Nat) :
    (entry.started turnId).messages = entry.messages := by
  unfold Tracked.started
  split
  · split <;> rfl
  · rfl

/-- The answer leaves a tracker that has seen the end of its turn; any other tracker runs then. -/
lemma Inv.answered (h : Inv s) {i since turnId : Nat} (hget : s.requests[i]? = some since)
    (hsince : since ≤ turnId) (hmeets : Meets s (.answered i turnId)) :
    Inv { s with requests := s.requests.eraseIdx i, tracked := s.tracked.started turnId,
                 ahead := s.ahead || decide (s.turns ≤ turnId) } := by
  obtain ⟨hbef, hnext⟩ := hmeets
  by_cases hseen : ∃ ending message, s.tracked.state = .settled ending (some turnId) message
  · obtain ⟨ending, message, hstate⟩ := hseen
    have hpast := h.past ending turnId message hstate
    have hsame : s.tracked.started turnId = s.tracked := by simp [Tracked.started, hstate]
    have hahead : (s.ahead || decide (s.turns ≤ turnId)) = s.ahead := by
      simp [Nat.not_le.mpr hpast]
    rw [hsame, hahead]
    exact ⟨h.unstarted, h.ahead, h.running, fun ha t ht e r hr =>
      (h.settled ha t ht e r hr).imp_left
        fun hfresh => eraseIdx_fresh hfresh hget (Nat.lt_of_le_of_lt hsince hpast), h.past⟩
  have hruns := isRunning_started s.tracked turnId
    (fun ending message heq => hseen ⟨ending, message, heq⟩)
  refine ⟨h.unstarted, fun ha => ⟨?_, hruns⟩, fun t ht hnone => ⟨hruns, ?_⟩,
    fun ha t ht e r hr => .inl ?_, fun e t m heq => ?_⟩
  · rcases Bool.or_eq_true_iff.mp ha with ha | ha
    · exact (h.ahead ha).1
    · exact (hnext (of_decide_eq_true ha)).2
  · rw [messages_started]
    exact (h.running t ht hnone).2
  · obtain ⟨hahead, hlt⟩ := Bool.or_eq_false_iff.mp ha
    have hlt : turnId < s.turns := Nat.not_le.mp (of_decide_eq_false hlt)
    by_cases hlast : turnId + 1 < s.turns
    · rcases hbef hlast with hnot | ha' | hfresh
      · exact absurd (over_of_ending ht (by rw [hr]; simp)) hnot
      · exact absurd (ha'.symm.trans hahead) (by simp)
      · exact hfresh
    rcases h.settled hahead t ht e r hr with hfresh | hstate
    · exact eraseIdx_fresh hfresh hget (Nat.lt_of_le_of_lt hsince hlt)
    · have hturn : s.turns - 1 = turnId := by omega
      exact absurd ⟨e, _, hturn ▸ hstate⟩ hseen
  · rw [heq] at hruns
    cases hruns

lemma Inv.step (h : Inv s) {e : Event} (hmeets : Meets s e) : Inv (s.step e) := by
  cases e with
  | turnStarted =>
    simp only [System.step]
    split
    · constructor <;> simp [Tracked.observe, ChildState.isRunning, Turn.lastOf]
    · exact h
  | agentMessage text finalAnswer =>
    simp only [System.step]
    split
    · rename_i said hlat
      obtain ⟨hrun, hmessages⟩ := h.running _ hlat rfl
      obtain ⟨hahead, hturns⟩ := h.of_running hlat
      constructor <;> cases finalAnswer <;>
        simp [Tracked.observe, hmessages, hahead, hturns, hrun, lastOf_concat] <;>
        exact h.past
    · exact h
  | turnEnded ending error =>
    simp only [System.step]
    split
    · rename_i said hlat
      obtain ⟨hrun, hmessages⟩ := h.running _ hlat rfl
      obtain ⟨hahead, hturns⟩ := h.of_running hlat
      constructor <;> simp [Tracked.observe, hmessages, Turn.message, hahead, hturns]
      omega
    · exact h
  | startTurn isRunning =>
    simp only [System.step]
    have hset : ∀ turn ∈ s.latest, ∀ ending error, turn.ending = some (ending, error) →
        Fresh (s.requests ++ [if s.over then s.turns else s.turns - 1]) s.turns := by
      intro turn hturn _ _ hended
      have hover : s.over := over_of_ending hturn (by rw [hended]; simp)
      exact ⟨s.turns, mem_append_right _ (by simp [hover]), Nat.le_refl _⟩
    split
    · exact ⟨h.unstarted, h.ahead, h.running, fun _ t ht e r hr => .inl (hset t ht e r hr), h.past⟩
    · exact ⟨h.unstarted, fun ha => ⟨(h.ahead ha).1, rfl⟩, fun t ht hnone =>
        ⟨rfl, (h.running t ht hnone).2⟩, fun _ t ht e r hr => .inl (hset t ht e r hr), by simp⟩
  | answered i turnId =>
    simp only [System.step]
    split
    · rename_i since hget
      split
      · exact h.answered hget ‹_› hmeets
      · exact h
    · exact h
  | rejected i =>
  simp only [System.step]
  split
  · obtain ⟨hover, hahead, hfresh⟩ := hmeets
    refine ⟨h.unstarted, fun ha => absurd (ha.symm.trans hahead) (by simp), fun t ht hnone =>
      absurd hnone (hover t ht), fun _ t ht _ _ _ => .inl ?_, by simp [Tracked.failedToStart]⟩
    refine hfresh.resolve_left fun hnone => ?_
    rw [hnone] at ht
    cases ht
  · exact h

lemma Inv.agrees (h : Inv s) : Agrees s := by
  intro hnone
  refine ⟨fun ha => (h.ahead ha).2, fun ha turn hturn => ?_⟩
  split
  · rename_i hrun
    exact (h.running turn hturn hrun).1
  rename_i ending error hended
  refine (h.settled ha turn hturn ending error hended).resolve_left ?_
  rintro ⟨since, hmem, -⟩
  rw [hnone] at hmem
  cases hmem

lemma inv_initial : Inv .initial where
  unstarted := by simp [System.initial]
  ahead h := Bool.noConfusion h
  running _ h := by cases h
  settled _ _ h := by cases h
  past _ _ _ h := by cases h

/-- The tracker agrees after every run that meets the condition. -/
theorem tracked_agrees (events : List Event) (h : Always System.step Meets .initial events) :
    Agrees (exec System.step .initial events) :=
  (exec_invariant_of_always (P := Inv) (Q := Meets) (fun _ _ hs hmeets => hs.step hmeets)
    inv_initial h).agrees

theorem tracked_agrees_of_overtaken :
    Agrees (exec System.step .initial [.startTurn true, .turnStarted, .agentMessage "done" true,
      .turnEnded .completed none, .answered 0 0]) :=
  tracked_agrees _ ⟨trivial, ⟨trivial, ⟨trivial, ⟨trivial,
    ⟨⟨fun hlt => absurd hlt (by decide), fun hle => absurd hle (by decide)⟩, trivial⟩⟩⟩⟩⟩

/-- A second turn runs and ends before the answer to the request that started the first. -/
theorem late_answer_left_running :
    let s := exec System.step .initial [.startTurn true, .turnStarted, .turnEnded .completed none,
      .turnStarted, .turnEnded .completed none, .answered 0 0]
    s.requests = [] ∧ s.latest = some ⟨[], some (.completed, none)⟩ ∧
      s.tracked.state = .running (some 0) :=
  ⟨rfl, rfl, rfl⟩

end CodeWide.Agent.Tracker
