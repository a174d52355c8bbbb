import CodeWide.Lib.Run

/-!
# Declarations of the thread interest

One connection of `createThreadInterestPort`.
-/

namespace CodeWide.Sync.Declarations

open Lib List Option

variable {α : Type} [DecidableEq α]

structure Call (α : Type) where
  threadIds : List α
  outcome : Option Bool

inductive Promise
  | resolvedDeclaration
  | declaration (call : Nat)
  | scheduled (index : Nat)
deriving DecidableEq

/-- A call of `declared`; `heard` says that a call with its thread has succeeded since the thread
was added before it. -/
structure Waiter (α : Type) where
  thread : α
  awaits : Promise
  heard : Bool

structure ConnectionInterest (α : Type) where
  declaration : Promise
  failed : Bool
  scheduled : Bool
  threads : List α
  calls : List (Call α)
  /-- The call a scheduled promise forwards, once its microtask has run. -/
  forwards : List (Option Nat)
  waiters : List (Waiter α)
  /-- Threads with which a call has succeeded since they were added. -/
  confirmed : List α

namespace ConnectionInterest

def initial : ConnectionInterest α :=
  ⟨.resolvedDeclaration, false, false, [], [], [], [], []⟩

def startDeclaration (p : ConnectionInterest α) : ConnectionInterest α :=
  { p with scheduled := false, failed := false, calls := p.calls ++ [⟨p.threads, none⟩],
           declaration := .declaration p.calls.length }

def schedule (p : ConnectionInterest α) : ConnectionInterest α :=
  if p.scheduled then p
  else { p with scheduled := true, declaration := .scheduled p.forwards.length,
                forwards := p.forwards ++ [none] }

def update (p : ConnectionInterest α) (thread : α) (interested : Bool) : ConnectionInterest α :=
  if decide (thread ∈ p.threads) = interested then p
  else if interested then
    { p with threads := p.threads ++ [thread],
             confirmed := p.confirmed.filter (· ≠ thread) }.schedule
  else { p with threads := p.threads.filter (· ≠ thread) }.schedule

def await (p : ConnectionInterest α) (thread : α) : ConnectionInterest α :=
  { p with waiters := ⟨thread, p.declaration, decide (thread ∈ p.confirmed)⟩ :: p.waiters }

def declared (p : ConnectionInterest α) (thread : α) : ConnectionInterest α :=
  if thread ∉ p.threads then p
  else if p.failed then p.startDeclaration.await thread
  else p.await thread

end ConnectionInterest

open ConnectionInterest

inductive Event (α : Type)
  | update (thread : α) (interested : Bool)
  | declared (thread : α)
  | microtask (index : Nat)
  | settle (call : Nat) (succeeds : Bool)
  | caught (call : Nat)

def Waiter.hear (threadIds : List α) (x : Waiter α) : Waiter α :=
  { x with heard := x.heard || decide (x.thread ∈ threadIds) }

def ConnectionInterest.step (p : ConnectionInterest α) : Event α → ConnectionInterest α
  | .update thread interested => p.update thread interested
  | .declared thread => p.declared thread
  | .microtask i =>
    if p.forwards[i]? = some none then
      { p.startDeclaration with forwards := p.forwards.set i (some p.calls.length) }
    else p
  | .settle i succeeds =>
    match p.calls[i]? with
    | some ⟨threadIds, none⟩ =>
      let settled := { p with calls := p.calls.set i ⟨threadIds, some succeeds⟩ }
      if succeeds then
        { settled with waiters := p.waiters.map (.hear threadIds),
                       confirmed := p.confirmed ++ threadIds }
      else settled
    | _ => p
  | .caught i =>
    if (p.calls[i]?.bind Call.outcome) = some false ∧ p.declaration = .declaration i then
      { p with failed := true }
    else p

def ConnectionInterest.callOf (p : ConnectionInterest α) : Promise → Option Nat
  | .resolvedDeclaration => none
  | .declaration i => some i
  | .scheduled i => p.forwards[i]?.join

def ConnectionInterest.fulfilled (p : ConnectionInterest α) (promise : Promise) : Prop :=
  promise = .resolvedDeclaration ∨
    ∃ i, p.callOf promise = some i ∧ (p.calls[i]?.bind Call.outcome) = some true

/-- A microtask finds the threads of those who wait for it in the desired set, or has nothing
left to tell them. -/
def Meets (p : ConnectionInterest α) : Event α → Prop
  | .microtask i => p.forwards[i]? = some none → ∀ x ∈ p.waiters, x.awaits = .scheduled i →
      x.heard = true ∨ x.thread ∈ p.threads
  | _ => True

def Waits (p : ConnectionInterest α) (x : Waiter α) : Prop :=
  (∃ i, x.awaits = .scheduled i ∧ p.forwards[i]? = some none) ∨
    ∃ i call, p.callOf x.awaits = some i ∧ p.calls[i]? = some call ∧
      (x.heard = true ∨ x.thread ∈ call.threadIds ∧ call.outcome ≠ some true)

structure Current (p : ConnectionInterest α) : Prop where
  scheduled : p.scheduled = true → ∃ i, p.declaration = .scheduled i ∧ p.forwards[i]? = some none
  last : p.scheduled = false → p.declaration = .resolvedDeclaration ∧ p.threads = [] ∧ p.calls = [] ∨
    ∃ before call, p.calls = before ++ [call] ∧ p.declaration = .declaration before.length ∧
      call.threadIds = p.threads ∧
      (call.outcome = some true → ∀ thread ∈ p.threads, thread ∈ p.confirmed)

set_option linter.unusedSectionVars false

variable {p : ConnectionInterest α} {x : Waiter α} {thread : α}

lemma current_startDeclaration (p : ConnectionInterest α) : Current p.startDeclaration where
  scheduled h := Bool.noConfusion h
  last _ := .inr ⟨p.calls, _, rfl, rfl, rfl, fun h => absurd h (by simp)⟩

variable {threads confirmed : List α}

lemma current_schedule (h : Current p) : Current { p with threads, confirmed }.schedule := by
  unfold schedule
  split
  · rename_i hsched
    exact ⟨fun _ => h.scheduled hsched, fun hnot => absurd (hsched.symm.trans hnot) (by simp)⟩
  · refine ⟨fun _ => ⟨p.forwards.length, rfl, ?_⟩, fun hnot => Bool.noConfusion hnot⟩
    exact getElem?_concat_length

lemma set_last {calls before : List (Call α)} {call old new : Call α} {i : Nat}
    (hcalls : calls = before ++ [call]) (hold : calls[i]? = some old) :
    i = before.length ∧ call = old ∧ calls.set i new = before ++ [new] ∨
      ∃ others, others.length = before.length ∧ calls.set i new = others ++ [call] := by
  subst hcalls
  rcases Nat.lt_or_ge i before.length with hlt | hge
  · exact .inr ⟨before.set i new, length_set, set_append_left i new hlt⟩
  have hi : i = before.length := by
    have := (List.getElem?_eq_some_iff.mp hold).1
    simp only [length_append, length_singleton] at this
    omega
  subst hi
  rw [getElem?_concat_length] at hold
  exact .inl ⟨rfl, some.inj hold, by simp⟩

lemma Current.settle (h : Current p) {i : Nat} {threadIds confirmed : List α} {succeeds : Bool}
    (hcall : p.calls[i]? = some ⟨threadIds, none⟩) (waiters : List (Waiter α))
    (hconf : ∀ t ∈ p.confirmed, t ∈ confirmed)
    (hheard : succeeds = true → ∀ t ∈ threadIds, t ∈ confirmed) :
    Current { p with calls := p.calls.set i ⟨threadIds, some succeeds⟩, waiters, confirmed } where
  scheduled := h.scheduled
  last hnot := by
    rcases h.last hnot with ⟨-, -, hnone⟩ | ⟨before, call, hcalls, hdeclaration, hthrs, htrue⟩
    · rw [hnone] at hcall
      cases hcall
    rcases set_last hcalls hcall with ⟨rfl, rfl, hset⟩ | ⟨others, hlen, hset⟩
    · refine .inr ⟨before, _, hset, hdeclaration, hthrs, fun hsome t ht => ?_⟩
      rw [← hthrs] at ht
      exact hheard (some.inj hsome) t ht
    · exact .inr ⟨others, call, hset, hlen.symm ▸ hdeclaration, hthrs,
        fun hsome t ht => hconf t (htrue hsome t ht)⟩

lemma Current.step (h : Current p) (e : Event α) : Current (p.step e) := by
  cases e with
  | update thread interested =>
    simp only [ConnectionInterest.step, update]
    split
    · exact h
    · split
      · exact current_schedule h
      · exact current_schedule h
  | declared thread =>
    simp only [ConnectionInterest.step, declared, await]
    split
    · exact h
    · split
      · exact { current_startDeclaration p with }
      · exact { h with }
  | microtask i =>
    simp only [ConnectionInterest.step]
    split
    · exact ⟨fun h => Bool.noConfusion h, (current_startDeclaration p).last⟩
    · exact h
  | settle i succeeds =>
    simp only [ConnectionInterest.step]
    split
    · rename_i threadIds hcall
      split
      · rename_i hsucceeds
        exact h.settle hcall _ (fun _ ht => mem_append_left _ ht)
          (fun _ _ ht => mem_append_right _ ht)
      · rename_i hfails
        exact h.settle hcall _ (fun _ ht => ht) (fun hsucceeds => absurd hsucceeds hfails)
    · exact h
  | caught i =>
  simp only [ConnectionInterest.step]
  split
  · exact { h with }
  · exact h

lemma waits_await (h : Current p) (hthr : thread ∈ p.threads) :
    Waits p ⟨thread, p.declaration, decide (thread ∈ p.confirmed)⟩ := by
  cases hsched : p.scheduled with
  | true => exact .inl (h.scheduled hsched)
  | false =>
  rcases h.last hsched with ⟨-, hnone, -⟩ | ⟨before, call, hcalls, hcall, hthrs, htrue⟩
  · rw [hnone] at hthr
    cases hthr
  refine .inr ⟨before.length, call, ?_, ?_, ?_⟩
  · rw [hcall]
    rfl
  · rw [hcalls]
    exact getElem?_concat_length
  · by_cases hsome : call.outcome = some true
    · exact .inl (decide_eq_true (htrue hsome thread hthr))
    · exact .inr ⟨hthrs.symm ▸ hthr, hsome⟩

lemma Waits.grown {q : ConnectionInterest α} (h : Waits p x)
    (hforwards : ∀ (i : Nat) f, p.forwards[i]? = some f → q.forwards[i]? = some f)
    (hcalls : ∀ (i : Nat) call, p.calls[i]? = some call → q.calls[i]? = some call) : Waits q x := by
  rcases h with ⟨i, hawaits, hnone⟩ | ⟨i, call, hcall, hget, hkeeps⟩
  · exact .inl ⟨i, hawaits, hforwards i none hnone⟩
  refine .inr ⟨i, call, ?_, hcalls i call hget, hkeeps⟩
  cases hx : x.awaits with
  | scheduled j =>
    rw [hx] at hcall
    have hj : p.forwards[j]? = some (some i) := by
      simpa [callOf, join_eq_some_iff] using hcall
    simp [callOf, hforwards j _ hj]
  | _ =>
    rw [hx] at hcall
    exact hcall

lemma Waits.schedule (h : Waits p x) : Waits { p with threads, confirmed }.schedule x := by
  unfold ConnectionInterest.schedule
  split
  · exact h
  · exact h.grown (fun _ _ hget => by grind) (fun _ _ hget => hget)

lemma Waits.startDeclaration (h : Waits p x) : Waits p.startDeclaration x :=
  h.grown (fun _ _ hget => hget) (fun _ _ hget => by grind [ConnectionInterest.startDeclaration])

lemma Waits.settle (h : Waits p x) {i : Nat} {threadIds confirmed : List α} {succeeds : Bool}
    (hcall : p.calls[i]? = some ⟨threadIds, none⟩) (waiters : List (Waiter α))
    (hheard : succeeds = false ∨ x.heard = true ∨ x.thread ∉ threadIds) :
    Waits { p with calls := p.calls.set i ⟨threadIds, some succeeds⟩, waiters, confirmed } x := by
  rcases h with hnone | ⟨j, call, hof, hget, hkeeps⟩
  · exact .inl hnone
  · refine .inr ⟨j, if j = i then ⟨threadIds, some succeeds⟩ else call, hof, ?_, ?_⟩
    · grind
    · grind

lemma waits_step (h : Current p) (hwaits : ∀ x ∈ p.waiters, Waits p x) {e : Event α}
    (hmeets : Meets p e) : ∀ x ∈ (p.step e).waiters, Waits (p.step e) x := by
  cases e with
  | update thread interested =>
    simp only [step, update]
    have hkept : ∀ q : ConnectionInterest α, q.schedule.waiters = q.waiters := fun q => by
      unfold schedule
      split <;> rfl
    split
    · exact hwaits
    split
    · intro x hx
      rw [hkept] at hx
      exact (hwaits x hx).schedule
    · intro x hx
      rw [hkept] at hx
      exact (hwaits x hx).schedule
  | declared thread =>
    simp only [step, declared]
    split
    · exact hwaits
    rename_i hthr
    split
    · rintro x (_ | ⟨_, hx⟩)
      · exact waits_await (p := p.startDeclaration) (current_startDeclaration p) (not_not.mp hthr)
      · exact (hwaits x hx).startDeclaration
    · rintro x (_ | ⟨_, hx⟩)
      · exact waits_await (p := p) h (not_not.mp hthr)
      · exact hwaits x hx
  | microtask i =>
    simp only [step]
    split
    · rename_i hnone
      intro x hx
      by_cases hi : x.awaits = .scheduled i
      · refine .inr ⟨p.calls.length, ⟨p.threads, none⟩, ?_, getElem?_concat_length, ?_⟩
        · rw [hi]
          simp [callOf, (List.getElem?_eq_some_iff.mp hnone).1]
        · exact (hmeets hnone x hx hi).imp id (fun hthr => ⟨hthr, by simp⟩)
      rcases (hwaits x hx).startDeclaration with ⟨j, hj, hget⟩ | ⟨j, call, hof, hget, hkeeps⟩
      · refine .inl ⟨j, hj, ?_⟩
        grind [ConnectionInterest.startDeclaration]
      refine .inr ⟨j, call, ?_, hget, hkeeps⟩
      cases hx : x.awaits with
      | scheduled k =>
        have hne : i ≠ k := fun heq => hi (by rw [hx, heq])
        rw [hx] at hof
        exact (congrArg join (List.getElem?_set_ne hne)).trans hof
      | _ =>
        rw [hx] at hof
        exact hof
    · exact hwaits
  | settle i succeeds =>
    simp only [step]
    split
    · rename_i threadIds hcall
      split
      · rename_i hsucceeds
        intro x hx
        obtain ⟨y, hy, rfl⟩ := mem_map.mp hx
        have hy' : Waits p (y.hear threadIds) := (hwaits y hy).imp id fun ⟨j, call, hof, hget, hk⟩ =>
          ⟨j, call, hof, hget, hk.imp (fun hheard => by simp [Waiter.hear, hheard]) id⟩
        refine hy'.settle hcall _ (.inr ?_)
        simp only [Waiter.hear, Bool.or_eq_true, decide_eq_true_eq]
        tauto
      · rename_i hfails
        exact fun x hx => (hwaits x hx).settle hcall _ (.inl (Bool.eq_false_iff.mpr hfails))
    · exact hwaits
  | caught i =>
  simp only [step]
  split
  · exact hwaits
  · exact hwaits

structure Inv (p : ConnectionInterest α) : Prop where
  current : Current p
  waits : ∀ x ∈ p.waiters, Waits p x

lemma Inv.step (h : Inv p) {e : Event α} (hmeets : Meets p e) : Inv (p.step e) :=
  ⟨h.current.step e, waits_step h.current h.waits hmeets⟩

lemma Waits.heard (h : Waits p x) (hdone : p.fulfilled x.awaits) : x.heard = true := by
  rcases h with ⟨i, hawaits, hnone⟩ | ⟨i, call, hof, hget, hkeeps⟩
  · rcases hdone with hres | ⟨j, hj, -⟩
    · exact absurd (hawaits.symm.trans hres) (by simp)
    · simp [hawaits, callOf, hnone] at hj
  rcases hdone with hres | ⟨j, hj, htrue⟩
  · simp [hres, callOf] at hof
  · obtain rfl := some.inj (hof.symm.trans hj)
    rw [hget] at htrue
    exact hkeeps.resolve_right fun hnot => hnot.2 htrue

lemma carries_step (e : Event α) (call : Call α) (hcall : (p.step e).calls[p.calls.length]? = some call) :
    call = ⟨(p.step e).threads, none⟩ := by
  cases e <;> grind [step, update, schedule, declared, await, startDeclaration]

/-- What `declared` and the declarations promise in a state and at the step that follows. -/
structure Kept (p : ConnectionInterest α) : Prop where
  declared : ∀ x ∈ p.waiters, p.fulfilled x.awaits → x.heard = true
  carries : ∀ e call, (p.step e).calls[p.calls.length]? = some call →
    call = ⟨(p.step e).threads, none⟩
  reached : (∀ f ∈ p.forwards, f ≠ none) → ∀ call ∈ p.calls.getLast?,
    call.outcome = some true → call.threadIds = p.threads

lemma Inv.kept (h : Inv p) : Kept p where
  declared x hx hdone := (h.waits x hx).heard hdone
  carries := carries_step
  reached hnone call hcall _ := by
    cases hsched : p.scheduled with
    | true =>
      obtain ⟨i, -, hget⟩ := h.current.scheduled hsched
      exact absurd rfl (hnone none (mem_of_getElem? hget))
    | false =>
    rcases h.current.last hsched with ⟨-, -, hempty⟩ | ⟨before, last, hcalls, -, hthrs, -⟩
    · rw [hempty] at hcall
      cases hcall
    · rw [hcalls, getLast?_concat] at hcall
      obtain rfl := some.inj hcall
      exact hthrs

/-- What every run that meets the condition keeps. -/
theorem declarations_kept (events : List (Event α))
    (h : Always step Meets .initial events) :
    Kept (exec step .initial events) :=
  (exec_invariant_of_always (P := Inv) (Q := Meets) (fun _ _ hp hmeets => hp.step hmeets)
    ⟨⟨fun h => Bool.noConfusion h, fun _ => .inl ⟨rfl, rfl, rfl⟩⟩, fun _ hx => by cases hx⟩
    h).kept

theorem declarations_kept_of_retry :
    Kept (exec step .initial
      [.update 1 true, .microtask 0, .settle 0 false, .caught 0, .declared 1, .settle 1 true]) :=
  declarations_kept _
    ⟨trivial, ⟨fun _ _ hx => absurd hx not_mem_nil, ⟨trivial, ⟨trivial, ⟨trivial, ⟨trivial, trivial⟩⟩⟩⟩⟩⟩

/-- The thread leaves the set before the microtask and comes back behind it. -/
def replaced : List (Event Nat) :=
  [.update 1 true, .declared 1, .update 1 false, .microtask 0, .update 1 true, .settle 0 true]

theorem declared_without_thread :
    let p := exec step .initial replaced
    1 ∈ p.threads ∧ (∃ x ∈ p.waiters, x.thread = 1 ∧ p.fulfilled x.awaits) ∧
      p.calls = [⟨[], some true⟩] :=
  ⟨by decide, ⟨_, mem_cons_self, rfl, .inr ⟨0, rfl, rfl⟩⟩, rfl⟩

end CodeWide.Sync.Declarations
