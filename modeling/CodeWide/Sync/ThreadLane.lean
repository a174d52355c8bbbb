import CodeWide.Lib.Run
import Mathlib.Logic.Function.Basic

/-!
# The lane of a thread's reads

Reads of one thread run one at a time. A caller that needs a read begun after its call takes the one
after that in progress; other callers share the one in progress.
-/

set_option linter.unusedSectionVars false

namespace CodeWide.Sync.ThreadLane

open Lib List Option Function

inductive Freshness
  | inFlight
  | afterCurrent

/-- A promise the lane hands out: a read's own, or that of what follows one. -/
inductive Ticket
  | operation (read : Nat)
  | followUp (id : Nat)

structure LaneState where
  followUp : Option Nat
  promise : Nat

inductive Phase (ω : Type)
  | running
  | settled (outcome : ω)
  | released (outcome : ω)
  | done (outcome : ω)

section Phases

variable {ω : Type}

def Phase.held : Phase ω → Bool
  | .running => true
  | .settled _ => true
  | _ => false

def Phase.outcome : Phase ω → Option ω
  | .done outcome => some outcome
  | _ => none

def Phase.rank : Phase ω → Nat
  | .running => 3
  | .settled _ => 2
  | .released _ => 1
  | .done _ => 0

end Phases

structure Read (κ ω : Type) where
  key : κ
  phase : Phase ω

/-- What `existing.promise.then(startNext, startNext)` gives. -/
structure FollowUp (κ ω : Type) where
  key : κ
  after : Nat
  target : Option Ticket
  outcome : Option ω

structure Call (κ : Type) where
  key : κ
  freshness : Freshness
  before : Nat
  promise : Ticket

structure Lane (κ ω : Type) where
  states : κ → Option LaneState
  reads : List (Read κ ω)
  followUps : List (FollowUp κ ω)
  calls : List (Call κ)

/-- What the language does: a caller calls, or one of the things that are due happens. -/
inductive Event (κ ω : Type)
  | run (key : κ) (freshness : Freshness)
  | settle (read : Nat) (outcome : ω)
  | release (read : Nat)
  | complete (read : Nat)
  | startNext (id : Nat)
  | adopt (id : Nat)

section Lanes

variable {κ ω : Type} [DecidableEq κ]

def Lane.empty : Lane κ ω := ⟨fun _ => none, [], [], []⟩

def Lane.begin (lane : Lane κ ω) (key : κ) : Lane κ ω :=
  { lane with
    reads := lane.reads ++ [⟨key, .running⟩]
    states := update lane.states key (some ⟨none, lane.reads.length⟩) }

def Lane.queue (lane : Lane κ ω) (key : κ) (existing : LaneState) : Lane κ ω :=
  { lane with
    followUps := lane.followUps ++ [⟨key, existing.promise, none, none⟩]
    states := update lane.states key
      (some { existing with followUp := some lane.followUps.length }) }

def Lane.run (lane : Lane κ ω) (key : κ) (freshness : Freshness) : Lane κ ω × Ticket :=
  match lane.states key with
  | some existing =>
    match freshness with
    | .inFlight => (lane, .operation existing.promise)
    | .afterCurrent =>
      match existing.followUp with
      | none => (lane.queue key existing, .followUp lane.followUps.length)
      | some followUp => (lane, .followUp followUp)
  | none => (lane.begin key, .operation lane.reads.length)

def Lane.outcome (lane : Lane κ ω) : Ticket → Option ω
  | .operation n => lane.reads[n]?.bind (fun read => read.phase.outcome)
  | .followUp f => lane.followUps[f]?.bind FollowUp.outcome

def Lane.setPhase (lane : Lane κ ω) (n : Nat) (read : Read κ ω) (phase : Phase ω) : Lane κ ω :=
  { lane with reads := lane.reads.set n { read with phase := phase } }

def Lane.delete (lane : Lane κ ω) (key : κ) (n : Nat) : Lane κ ω :=
  if (lane.states key).map LaneState.promise = some n then
    { lane with states := update lane.states key none }
  else lane

def Lane.setFollowUp (lane : Lane κ ω) (f : Nat) (next : FollowUp κ ω) : Lane κ ω :=
  { lane with followUps := lane.followUps.set f next }

def Lane.record (lane : Lane κ ω) (call : Call κ) : Lane κ ω :=
  { lane with calls := lane.calls ++ [call] }

def Lane.step (lane : Lane κ ω) : Event κ ω → Lane κ ω
  | .run key freshness =>
    (lane.run key freshness).1.record
      ⟨key, freshness, lane.reads.length, (lane.run key freshness).2⟩
  | .settle n outcome =>
    match lane.reads[n]? with
    | some ⟨key, .running⟩ => lane.setPhase n ⟨key, .running⟩ (.settled outcome)
    | _ => lane
  | .release n =>
    match lane.reads[n]? with
    | some ⟨key, .settled outcome⟩ =>
      (lane.setPhase n ⟨key, .settled outcome⟩ (.released outcome)).delete key n
    | _ => lane
  | .complete n =>
    match lane.reads[n]? with
    | some ⟨key, .released outcome⟩ => lane.setPhase n ⟨key, .released outcome⟩ (.done outcome)
    | _ => lane
  | .startNext f =>
    match lane.followUps[f]? with
    | some ⟨key, after, none, none⟩ =>
      -- Both branches of `then` start the next read, whatever the outcome.
      if (lane.outcome (.operation after)).isSome then
        (lane.run key .inFlight).1.setFollowUp f ⟨key, after, some (lane.run key .inFlight).2, none⟩
      else lane
    | _ => lane
  | .adopt f =>
    match lane.followUps[f]? with
    | some ⟨key, after, some target, none⟩ =>
      match lane.outcome target with
      | some outcome => lane.setFollowUp f ⟨key, after, some target, some outcome⟩
      | none => lane
    | _ => lane

/-- The read of the key is in progress: it has started and `finally` has not run. -/
def Lane.InProgress (lane : Lane κ ω) (key : κ) (n : Nat) : Prop :=
  ∃ read, lane.reads[n]? = some read ∧ read.key = key ∧ read.phase.held = true

/-! ## What the lane keeps -/

structure FollowUp.Ok (lane : Lane κ ω) (x : FollowUp κ ω) : Prop where
  after : ∃ read, lane.reads[x.after]? = some read
  open_ : x.target = none → x.outcome = none
  target : ∀ t, x.target = some t → ∃ n read, t = .operation n ∧ lane.reads[n]? = some read ∧
    read.key = x.key ∧ ∀ o, x.outcome = some o → read.phase = .done o

def Call.Kept (lane : Lane κ ω) (call : Call κ) : Prop :=
  match call.promise with
  | .operation n => ∃ read, lane.reads[n]? = some read ∧ read.key = call.key ∧
      (call.freshness = .afterCurrent → call.before ≤ n)
  | .followUp f => call.before ≤ lane.reads.length ∧ ∃ x, lane.followUps[f]? = some x ∧
      x.key = call.key ∧ (∀ n, x.target = some (.operation n) → call.before ≤ n) ∧
      (x.target = none → ∀ m, m < call.before → m ≠ x.after → ¬ lane.InProgress call.key m)

structure Inv (lane : Lane κ ω) : Prop where
  held : ∀ key st, lane.states key = some st → lane.InProgress key st.promise
  shown : ∀ key n, lane.InProgress key n → ∃ st, lane.states key = some st ∧ st.promise = n
  queued : ∀ key st f, lane.states key = some st → st.followUp = some f →
    lane.followUps[f]? = some ⟨key, st.promise, none, none⟩
  follows : ∀ (f : Nat) x, lane.followUps[f]? = some x → x.Ok lane
  calls : ∀ call ∈ lane.calls, call.Kept lane

/-- Every read is still there, no less far, and every follow-up is as it was. -/
structure Grows (lane next : Lane κ ω) : Prop where
  length : lane.reads.length ≤ next.reads.length
  reads : ∀ (n : Nat) read, lane.reads[n]? = some read → ∃ read', next.reads[n]? = some read' ∧
    read'.key = read.key ∧ (read'.phase.held = true → read.phase.held = true) ∧
      ∀ o, read.phase = .done o → read'.phase = .done o
  followUps : ∀ (f : Nat) x, lane.followUps[f]? = some x → next.followUps[f]? = some x

lemma Grows.ok {lane next : Lane κ ω} (h : Grows lane next) {x : FollowUp κ ω}
    (hx : x.Ok lane) : x.Ok next := by
  refine ⟨?_, hx.open_, ?_⟩
  · obtain ⟨read, hread⟩ := hx.after
    obtain ⟨read', hread', -⟩ := h.reads _ _ hread
    exact ⟨read', hread'⟩
  intro t ht
  obtain ⟨n, read, htn, hread, hkey, hdone⟩ := hx.target t ht
  obtain ⟨read', hread', hkey', -, hdone'⟩ := h.reads n read hread
  exact ⟨n, read', htn, hread', hkey'.trans hkey, fun o ho => hdone' o (hdone o ho)⟩

variable {call : Call κ}

lemma Grows.kept {lane next : Lane κ ω} (h : Grows lane next)
    (hcall : call.Kept lane) : call.Kept next := by
  unfold Call.Kept at hcall ⊢
  split at hcall
  · obtain ⟨read, hread, hkey, hfresh⟩ := hcall
    obtain ⟨read', hread', hkey', -, -⟩ := h.reads _ _ hread
    exact ⟨read', hread', hkey'.trans hkey, hfresh⟩
  obtain ⟨hle, x, hx, hkey, htgt, hopen⟩ := hcall
  refine ⟨Nat.le_trans hle h.length, x, h.followUps _ _ hx, hkey, htgt, ?_⟩
  rintro hnone m hm hne ⟨read', hread', hkey', hheld⟩
  apply hopen hnone m hm hne
  obtain ⟨read, hread⟩ : ∃ read, lane.reads[m]? = some read :=
    ⟨_, getElem?_eq_getElem (by omega)⟩
  obtain ⟨other, hother, hsame, hback, -⟩ := h.reads m read hread
  rw [hread'] at hother
  cases hother
  exact ⟨read, hread, hsame.symm.trans hkey', hback hheld⟩

/-! ## The steps, one by one -/

lemma Grows.begin (lane : Lane κ ω) (key : κ) : Grows lane (lane.begin key) := by
  refine ⟨?_, ?_, fun _ _ hx => hx⟩
  · simp [Lane.begin]
  · intro n read hread
    refine ⟨read, ?_, rfl, id, fun _ => id⟩
    exact (getElem?_append_left (List.getElem?_eq_some_iff.mp hread).1).trans hread

variable {lane : Lane κ ω} {n : Nat}

lemma inProgress_begin {key other : κ} : (lane.begin key).InProgress other n ↔
      lane.InProgress other n ∨ other = key ∧ n = lane.reads.length := by
  unfold Lane.InProgress Lane.begin
  simp only
  constructor
  · rintro ⟨read, hread, hkey, hheld⟩
    rcases Nat.lt_trichotomy n lane.reads.length with hlt | heq | hgt
    · rw [getElem?_append_left hlt] at hread
      exact .inl ⟨read, hread, hkey, hheld⟩
    · subst heq
      rw [getElem?_concat_length] at hread
      cases hread
      exact .inr ⟨hkey.symm, rfl⟩
    · rw [getElem?_eq_none (by simp; omega)] at hread
      cases hread
  · rintro (⟨read, hread, hrest⟩ | ⟨rfl, rfl⟩)
    · exact ⟨read, (getElem?_append_left (List.getElem?_eq_some_iff.mp hread).1).trans hread, hrest⟩
    · exact ⟨⟨other, .running⟩, getElem?_concat_length, rfl, rfl⟩

variable {key : κ}

lemma Inv.begin (h : Inv lane) (hfree : lane.states key = none) : Inv (lane.begin key) := by
  have hgrows := Grows.begin lane key
  refine ⟨?_, ?_, ?_, fun f x hx => hgrows.ok (h.follows f x hx),
    fun call hcall => hgrows.kept (h.calls call hcall)⟩
  · intro other st hst
    rw [inProgress_begin]
    by_cases heq : other = key
    · subst heq
      simp only [Lane.begin, update_self, some.injEq] at hst
      rw [← hst]
      exact .inr ⟨rfl, rfl⟩
    · simp only [Lane.begin, update_of_ne heq] at hst
      exact .inl (h.held other st hst)
  · intro other n hn
    by_cases heq : other = key
    · subst heq
      refine ⟨_, update_self .., ?_⟩
      rcases inProgress_begin.mp hn with hold | ⟨-, rfl⟩
      · obtain ⟨st, hst, -⟩ := h.shown other n hold
        rw [hfree] at hst
        cases hst
      · rfl
    rcases inProgress_begin.mp hn with hold | ⟨hsame, -⟩
    · obtain ⟨st, hst, hn⟩ := h.shown other n hold
      exact ⟨st, (update_of_ne heq _ _).trans hst, hn⟩
    · exact absurd hsame heq
  intro other st f hst hf
  by_cases heq : other = key
  · subst heq
    simp only [Lane.begin, update_self, some.injEq] at hst
    rw [← hst] at hf
    cases hf
  · simp only [Lane.begin, update_of_ne heq] at hst
    exact h.queued other st f hst hf

lemma Grows.queue (lane : Lane κ ω) (key : κ) (st : LaneState) :
    Grows lane (lane.queue key st) := by
  refine ⟨Nat.le_refl _, fun n read hread => ⟨read, hread, rfl, id, fun _ => id⟩, ?_⟩
  intro f x hx
  exact (getElem?_append_left (List.getElem?_eq_some_iff.mp hx).1).trans hx

lemma Inv.queue (h : Inv lane) {existing : LaneState}
    (hst : lane.states key = some existing) : Inv (lane.queue key existing) := by
  have hgrows := Grows.queue lane key existing
  refine ⟨?_, ?_, ?_, ?_, fun call hcall => hgrows.kept (h.calls call hcall)⟩
  · intro other st hother
    by_cases heq : other = key
    · subst heq
      simp only [Lane.queue, update_self, some.injEq] at hother
      rw [← hother]
      exact h.held other existing hst
    · simp only [Lane.queue, update_of_ne heq] at hother
      exact h.held other st hother
  · intro other n hn
    obtain ⟨st, hother, hn⟩ := h.shown other n hn
    by_cases heq : other = key
    · subst heq
      rw [hst] at hother
      cases hother
      exact ⟨_, update_self .., hn⟩
    · exact ⟨st, (update_of_ne heq _ _).trans hother, hn⟩
  · intro other st f hother hf
    by_cases heq : other = key
    · subst heq
      simp only [Lane.queue, update_self, some.injEq] at hother
      rw [← hother] at hf ⊢
      cases hf
      exact getElem?_concat_length
    · simp only [Lane.queue, update_of_ne heq] at hother
      exact hgrows.followUps f _ (h.queued other st f hother hf)
  intro f x hx
  rcases Nat.lt_trichotomy f lane.followUps.length with hlt | heq | hgt
  · simp only [Lane.queue, getElem?_append_left hlt] at hx
    exact hgrows.ok (h.follows f x hx)
  · subst heq
    simp only [Lane.queue, getElem?_concat_length, some.injEq] at hx
    subst hx
    obtain ⟨read, hread, -⟩ := h.held key existing hst
    exact ⟨⟨read, hread⟩, fun _ => rfl, fun t ht => (by cases ht)⟩
  · rw [Lane.queue, getElem?_eq_none (by simp; omega)] at hx
    cases hx

variable {read : Read κ ω}

variable {phase : Phase ω}

lemma Grows.setPhase
    (hread : lane.reads[n]? = some read) (hheld : phase.held = true → read.phase.held = true)
    (hdone : ∀ o, read.phase ≠ .done o) : Grows lane (lane.setPhase n read phase) := by
  refine ⟨?_, ?_, fun _ _ hx => hx⟩
  · simp [Lane.setPhase]
  intro m other hother
  have hlt := (List.getElem?_eq_some_iff.mp hother).1
  unfold Lane.setPhase
  rw [getElem?_set]
  split
  · rename_i heq
    subst heq
    rw [hread] at hother
    cases hother
    rw [if_pos hlt]
    exact ⟨_, rfl, rfl, hheld, fun o ho => absurd ho (hdone o)⟩
  · exact ⟨other, hother, rfl, id, fun _ => id⟩

lemma inProgress_setPhase {n m : Nat} (hread : lane.reads[n]? = some read) :
    (lane.setPhase n read phase).InProgress key m ↔
      (m ≠ n ∧ lane.InProgress key m) ∨ (m = n ∧ read.key = key ∧ phase.held = true) := by
  have hlt := (List.getElem?_eq_some_iff.mp hread).1
  unfold Lane.InProgress Lane.setPhase
  simp only [List.getElem?_set]
  by_cases heq : n = m
  · subst heq
    rw [if_pos rfl, if_pos hlt]
    constructor
    · rintro ⟨other, hother, hkey, hheld⟩
      cases hother
      exact .inr ⟨rfl, hkey, hheld⟩
    · rintro (⟨hne, -⟩ | ⟨-, hkey, hheld⟩)
      · exact absurd rfl hne
      · exact ⟨_, rfl, hkey, hheld⟩
  rw [if_neg heq]
  constructor
  · intro h
    exact .inl ⟨Ne.symm heq, h⟩
  · rintro (⟨-, h⟩ | ⟨hsame, -⟩)
    · exact h
    · exact absurd hsame.symm heq

lemma Inv.setPhase (h : Inv lane) (hread : lane.reads[n]? = some read)
    (hheld : phase.held = read.phase.held) (hdone : ∀ o, read.phase ≠ .done o) :
    Inv (lane.setPhase n read phase) := by
  have hgrows : Grows lane (lane.setPhase n read phase) :=
    Grows.setPhase hread (fun hp => hheld ▸ hp) hdone
  have hiff : ∀ key m, (lane.setPhase n read phase).InProgress key m ↔ lane.InProgress key m := by
    intro key m
    rw [inProgress_setPhase hread, hheld]
    constructor
    · rintro (⟨-, hm⟩ | ⟨rfl, hkey, hh⟩)
      · exact hm
      · exact ⟨read, hread, hkey, hh⟩
    intro hm
    by_cases heq : m = n
    · subst heq
      obtain ⟨other, hother, hkey, hh⟩ := hm
      rw [hread] at hother
      cases hother
      exact .inr ⟨rfl, hkey, hh⟩
    · exact .inl ⟨heq, hm⟩
  refine ⟨?_, ?_, h.queued, fun f x hx => hgrows.ok (h.follows f x hx),
    fun call hcall => hgrows.kept (h.calls call hcall)⟩
  · intro key st hst
    exact (hiff key st.promise).mpr (h.held key st hst)
  · intro key m hm
    exact h.shown key m ((hiff key m).mp hm)

lemma Inv.release (h : Inv lane) {outcome : ω}
    (hread : lane.reads[n]? = some ⟨key, .settled outcome⟩) :
    Inv ((lane.setPhase n ⟨key, .settled outcome⟩ (.released outcome)).delete key n) := by
  have hgrows : Grows lane (lane.setPhase n ⟨key, .settled outcome⟩ (.released outcome)) := by
    refine Grows.setPhase hread (fun hp => Bool.noConfusion hp) ?_
    intro o ho
    cases ho
  obtain ⟨st, hst, hpromise⟩ := h.shown key n ⟨_, hread, rfl, rfl⟩
  have hdelete : (lane.setPhase n ⟨key, .settled outcome⟩ (.released outcome)).delete key n =
      { lane.setPhase n ⟨key, .settled outcome⟩ (.released outcome) with
        states := update lane.states key none } := by
    unfold Lane.delete
    rw [if_pos]
    · rfl
    · simp only [Lane.setPhase, hst, map_some, hpromise]
  rw [hdelete]
  have hgrows' : Grows lane { lane.setPhase n ⟨key, .settled outcome⟩ (.released outcome) with
      states := update lane.states key none } :=
    ⟨hgrows.length, hgrows.reads, hgrows.followUps⟩
  refine ⟨?_, ?_, ?_, fun f x hx => hgrows'.ok (h.follows f x hx),
    fun call hcall => hgrows'.kept (h.calls call hcall)⟩
  · intro other st' hst'
    by_cases heq : other = key
    · subst heq
      simp only [update_self, reduceCtorEq] at hst'
    simp only [update_of_ne heq] at hst'
    have hheld := h.held other st' hst'
    refine (inProgress_setPhase hread).mpr (.inl ⟨?_, hheld⟩)
    rintro rfl
    obtain ⟨read, hother, hkey, -⟩ := hheld
    rw [hread] at hother
    cases hother
    exact heq hkey.symm
  · intro other m hm
    rcases (inProgress_setPhase hread).mp hm with ⟨hne, hold⟩ | ⟨-, -, hfalse⟩
    · obtain ⟨st', hst', hm⟩ := h.shown other m hold
      have hother : other ≠ key := by
        rintro rfl
        rw [hst] at hst'
        cases hst'
        exact hne (hm.symm.trans hpromise)
      exact ⟨st', (update_of_ne hother _ _).trans hst', hm⟩
    · cases hfalse
  intro other st' f hst' hf
  by_cases heq : other = key
  · subst heq
    simp only [update_self, reduceCtorEq] at hst'
  · simp only [update_of_ne heq] at hst'
    exact h.queued other st' f hst' hf

lemma Inv.record (h : Inv lane) (hcall : call.Kept lane) : Inv (lane.record call) := by
  refine ⟨h.held, h.shown, h.queued, fun f x hx => ?_, ?_⟩
  · have hok := h.follows f x hx
    exact ⟨hok.after, hok.open_, hok.target⟩
  intro other hother
  rcases mem_concat.mp hother with hold | hnew
  · exact h.calls other hold
  · rw [hnew]
    exact hcall

lemma mem_set_followUp {f i : Nat} {next x : FollowUp κ ω}
    (hx : (lane.setFollowUp f next).followUps[i]? = some x) :
    (i = f ∧ x = next) ∨ (i ≠ f ∧ lane.followUps[i]? = some x) := by
  unfold Lane.setFollowUp at hx
  simp only [getElem?_set] at hx
  by_cases heq : f = i
  · rw [if_pos heq] at hx
    split at hx
    · cases hx
      exact .inl ⟨heq.symm, rfl⟩
    · cases hx
  · rw [if_neg heq] at hx
    exact .inr ⟨Ne.symm heq, hx⟩

variable {f : Nat}

variable {x next : FollowUp κ ω}

lemma Inv.setFollowUp (h : Inv lane) (hx : lane.followUps[f]? = some x) (hkey : next.key = x.key)
    (hidle : ∀ key st, lane.states key = some st → st.followUp ≠ some f) (hok : next.Ok lane)
    (hkept : ∀ call : Call κ, call.Kept lane → call.promise = .followUp f →
      ∀ n, next.target = some (.operation n) → call.before ≤ n)
    (htgt : next.target ≠ none) : Inv (lane.setFollowUp f next) := by
  refine ⟨h.held, h.shown, ?_, ?_, ?_⟩
  · intro key st i hst hi
    have hne : f ≠ i := by
      rintro rfl
      exact hidle key st hst hi
    exact (getElem?_set_ne hne).trans (h.queued key st i hst hi)
  · intro i y hy
    rcases mem_set_followUp hy with ⟨-, rfl⟩ | ⟨-, hold⟩
    · exact ⟨hok.after, hok.open_, hok.target⟩
    · have hold := h.follows i y hold
      exact ⟨hold.after, hold.open_, hold.target⟩
  intro call hcall
  have hold := h.calls call hcall
  unfold Call.Kept at hold ⊢
  split
  · rename_i n hn
    rw [hn] at hold
    exact hold
  rename_i i hi
  rw [hi] at hold
  obtain ⟨hle, y, hy, hykey, hytarget, hyopen⟩ := hold
  by_cases heq : i = f
  · subst heq
    rw [hx] at hy
    cases hy
    refine ⟨hle, next, ?_, hkey.trans hykey, hkept call (h.calls call hcall) hi,
      fun hnone => absurd hnone htgt⟩
    exact getElem?_set_self (List.getElem?_eq_some_iff.mp hx).1
  · exact ⟨hle, y, (getElem?_set_ne (Ne.symm heq)).trans hy, hykey, hytarget, hyopen⟩

/-! ## Every step -/

lemma Inv.one (h : Inv lane) {m n : Nat}
    (hm : lane.InProgress key m) (hn : lane.InProgress key n) : m = n := by
  obtain ⟨st, hst, rfl⟩ := h.shown key m hm
  obtain ⟨st', hst', rfl⟩ := h.shown key n hn
  rw [hst] at hst'
  cases hst'
  rfl

lemma Inv.kept_followUp {lane next : Lane κ ω} (h : Inv lane) {st : LaneState}
    {freshness : Freshness} (hst : lane.states key = some st)
    (hreads : next.reads = lane.reads)
    (hf : next.followUps[f]? = some ⟨key, st.promise, none, none⟩) :
    Call.Kept next ⟨key, freshness, lane.reads.length, .followUp f⟩ := by
  refine ⟨Nat.le_of_eq (by rw [hreads]), _, hf, rfl, ?_, ?_⟩
  · intro n hn
    cases hn
  rintro - m - hne ⟨read, hread, hkey, hheld⟩
  rw [hreads] at hread
  exact hne (h.one ⟨read, hread, hkey, hheld⟩ (h.held key st hst))

lemma Inv.run (h : Inv lane) (key : κ) (freshness : Freshness) : Inv (lane.run key freshness).1 ∧
      Call.Kept (lane.run key freshness).1
        ⟨key, freshness, lane.reads.length, (lane.run key freshness).2⟩ := by
  unfold Lane.run
  cases hst : lane.states key with
  | none =>
    refine ⟨h.begin hst, ⟨key, .running⟩, ?_, rfl, fun _ => Nat.le_refl _⟩
    exact getElem?_concat_length
  | some st =>
  cases freshness with
  | inFlight =>
    obtain ⟨read, hread, hkey, -⟩ := h.held key st hst
    refine ⟨h, read, hread, hkey, ?_⟩
    intro hfresh
    cases hfresh
  | afterCurrent =>
  cases hf : st.followUp with
  | none =>
    simp only [hf]
    exact ⟨h.queue hst, h.kept_followUp hst rfl getElem?_concat_length⟩
  | some f =>
    simp only [hf]
    exact ⟨h, h.kept_followUp hst rfl (h.queued key st f hst hf)⟩

lemma Inv.run_inFlight (h : Inv lane) (key : κ) :
    (∀ n, lane.InProgress key n → lane.run key .inFlight = (lane, .operation n)) ∧
      ((∀ n, ¬ lane.InProgress key n) →
        lane.run key .inFlight = (lane.begin key, .operation lane.reads.length)) := by
  unfold Lane.run
  cases hst : lane.states key with
  | none =>
    refine ⟨?_, fun _ => rfl⟩
    intro n hn
    obtain ⟨st, hst', -⟩ := h.shown key n hn
    rw [hst] at hst'
    cases hst'
  | some st =>
  refine ⟨?_, fun hnone => absurd (h.held key st hst) (hnone _)⟩
  intro n hn
  simp only [h.one hn (h.held key st hst)]

lemma Inv.run_inFlight_progress (h : Inv lane) (key : κ) :
    ∃ n, (lane.run key .inFlight).2 = .operation n ∧ (lane.run key .inFlight).1.InProgress key n ∧
      (∀ m, (lane.run key .inFlight).1.InProgress key m → m < n → lane.InProgress key m) ∧
      Grows lane (lane.run key .inFlight).1 ∧
      (lane.run key .inFlight).1.followUps = lane.followUps := by
  by_cases hsome : ∃ n, lane.InProgress key n
  · obtain ⟨n, hn⟩ := hsome
    rw [(h.run_inFlight key).1 n hn]
    exact ⟨n, rfl, hn, fun m hm _ => hm,
      ⟨Nat.le_refl _, fun i read hread => ⟨read, hread, rfl, id, fun _ => id⟩, fun _ _ hx => hx⟩,
      rfl⟩
  rw [(h.run_inFlight key).2 (fun n hn => hsome ⟨n, hn⟩)]
  refine ⟨_, rfl, inProgress_begin.mpr (.inr ⟨rfl, rfl⟩), ?_, Grows.begin lane key, rfl⟩
  intro m hm hlt
  rcases inProgress_begin.mp hm with hold | ⟨-, heq⟩
  · exact hold
  · exact absurd hlt (by rw [heq]; exact Nat.lt_irrefl _)

lemma outcome_operation {outcome : ω} (h : lane.outcome (.operation n) = some outcome) :
    ∃ key, lane.reads[n]? = some ⟨key, .done outcome⟩ := by
  obtain ⟨⟨key, phase⟩, hread, hphase⟩ := bind_eq_some_iff.mp h
  cases phase <;> cases hphase
  exact ⟨key, hread⟩

lemma outcome_of_read
    (h : lane.reads[n]? = some read) : lane.outcome (.operation n) = read.phase.outcome := by
  rw [Lane.outcome, h, bind_some]

lemma outcome_of_followUp {x : FollowUp κ ω}
    (h : lane.followUps[f]? = some x) : lane.outcome (.followUp f) = x.outcome := by
  rw [Lane.outcome, h, bind_some]

lemma Inv.startNext (h : Inv lane) {after : Nat}
    (hf : lane.followUps[f]? = some ⟨key, after, none, none⟩)
    (hdone : (lane.outcome (.operation after)).isSome = true) :
    Inv ((lane.run key .inFlight).1.setFollowUp f
      ⟨key, after, some (lane.run key .inFlight).2, none⟩) := by
  obtain ⟨outcome, hout⟩ := isSome_iff_exists.mp hdone
  obtain ⟨owner, hafter⟩ := outcome_operation hout
  obtain ⟨n, htick, hprogress, -, hgrows, hfollowUps⟩ := h.run_inFlight_progress key
  have hrun := (h.run key .inFlight).1
  have hnotAfter : ∀ other, ¬ (lane.run key .inFlight).1.InProgress other after := by
    rintro other ⟨read, hread, -, hheld⟩
    obtain ⟨read', hread', -, -, hkeeps⟩ := hgrows.reads after _ hafter
    rw [hread] at hread'
    cases hread'
    rw [hkeeps outcome rfl] at hheld
    cases hheld
  refine hrun.setFollowUp (x := ⟨key, after, none, none⟩) (by rw [hfollowUps]; exact hf) rfl ?_ ?_ ?_ (some_ne_none _)
  · intro other st hst hwaits
    have hq := hrun.queued other st f hst hwaits
    rw [hfollowUps, hf] at hq
    cases hq
    exact hnotAfter _ (hrun.held _ st hst)
  · refine ⟨?_, fun hnone => (by cases hnone), ?_⟩
    · obtain ⟨read, hread, -⟩ := hgrows.reads after _ hafter
      exact ⟨read, hread⟩
    intro t ht
    obtain ⟨read, hread, hkey, -⟩ := hprogress
    refine ⟨n, read, ?_, hread, hkey, fun o ho => (by cases ho)⟩
    rw [← htick]
    exact (some.inj ht).symm
  intro call hcall hpromise m hm
  unfold Call.Kept at hcall
  rw [hpromise] at hcall
  obtain ⟨-, x, hx, hkey, -, hopen⟩ := hcall
  rw [hfollowUps, hf] at hx
  cases hx
  have hmn : m = n := by
    rw [htick] at hm
    cases hm
    rfl
  subst hmn
  by_contra hlt
  refine hopen rfl m (Nat.lt_of_not_le hlt) ?_ (hkey ▸ hprogress)
  rintro rfl
  exact hnotAfter key hprogress

lemma Inv.adopt (h : Inv lane) {after : Nat} {target : Ticket} {outcome : ω}
    (hf : lane.followUps[f]? = some ⟨key, after, some target, none⟩)
    (htgt : lane.outcome target = some outcome) :
    Inv (lane.setFollowUp f ⟨key, after, some target, some outcome⟩) := by
  have hok := h.follows f _ hf
  refine h.setFollowUp hf rfl ?_ ?_ ?_ (some_ne_none _)
  · intro other st hst hwaits
    have hq := h.queued other st f hst hwaits
    rw [hf] at hq
    cases hq
  · refine ⟨hok.after, fun hnone => (by cases hnone), ?_⟩
    intro t ht
    obtain ⟨n, read, htn, hread, hkey, -⟩ := hok.target t ht
    refine ⟨n, read, htn, hread, hkey, ?_⟩
    intro o ho
    cases ht
    cases ho
    rw [htn] at htgt
    obtain ⟨owner, hdone⟩ := outcome_operation htgt
    rw [hread] at hdone
    cases hdone
    rfl
  intro call hcall hpromise n hn
  unfold Call.Kept at hcall
  rw [hpromise] at hcall
  obtain ⟨-, x, hx, -, hbef, -⟩ := hcall
  rw [hf] at hx
  cases hx
  exact hbef n hn

lemma Inv.step {lane : Lane κ ω} (h : Inv lane) (event : Event κ ω) : Inv (lane.step event) := by
  cases event with
  | run key freshness =>
    obtain ⟨hrun, hkept⟩ := h.run key freshness
    exact hrun.record hkept
  | settle n outcome =>
    rw [Lane.step]
    split
    · rename_i key hread
      exact h.setPhase hread rfl (fun o ho => by cases ho)
    · exact h
  | release n =>
    rw [Lane.step]
    split
    · rename_i key outcome hread
      exact h.release hread
    · exact h
  | complete n =>
    rw [Lane.step]
    split
    · rename_i key outcome hread
      exact h.setPhase hread rfl (fun o ho => by cases ho)
    · exact h
  | startNext f =>
    rw [Lane.step]
    split
    · rename_i key after hf
      split
      · rename_i hdone
        exact h.startNext hf hdone
      · exact h
    · exact h
  | adopt f =>
  rw [Lane.step]
  split
  · rename_i key after target hf
    split
    · rename_i outcome htgt
      exact h.adopt hf htgt
    · exact h
  · exact h

lemma Inv.empty : Inv (Lane.empty : Lane κ ω) := by
  refine ⟨fun key st hst => (by cases hst), ?_, fun key st f hst => (by cases hst),
    fun f x hx => (by cases hx), fun call hcall => (by cases hcall)⟩
  rintro key n ⟨read, hread, -⟩
  cases hread

lemma Inv.exec (events : List (Event κ ω)) : Inv (exec Lane.step (Lane.empty : Lane κ ω) events) :=
  exec_invariant (P := Inv) (fun _ event h => h.step event) Inv.empty events

/-! ## What is due -/

/-- What the language owes: a read that runs settles, and every reaction that can run does. -/
inductive Task
  | settle (read : Nat)
  | release (read : Nat)
  | complete (read : Nat)
  | startNext (id : Nat)
  | adopt (id : Nat)

def Lane.Due (lane : Lane κ ω) : Task → Prop
  | .settle n => ∃ key, lane.reads[n]? = some ⟨key, .running⟩
  | .release n => ∃ key outcome, lane.reads[n]? = some ⟨key, .settled outcome⟩
  | .complete n => ∃ key outcome, lane.reads[n]? = some ⟨key, .released outcome⟩
  | .startNext f => ∃ key after, lane.followUps[f]? = some ⟨key, after, none, none⟩ ∧
      (lane.outcome (.operation after)).isSome = true
  | .adopt f => ∃ key after target, lane.followUps[f]? = some ⟨key, after, some target, none⟩ ∧
      (lane.outcome target).isSome = true

def Lane.after (lane : Lane κ ω) (later : Nat → Event κ ω) : Nat → Lane κ ω
  | 0 => lane
  | i + 1 => (lane.after later i).step (later i)

def Lane.rank (lane : Lane κ ω) (n : Nat) : Nat :=
  match lane.reads[n]? with
  | some read => read.phase.rank
  | none => 0

/-- The steps until a promise settles, at most. -/
def Lane.wait (lane : Lane κ ω) : Ticket → Nat
  | .operation n => lane.rank n
  | .followUp f =>
    match lane.followUps[f]? with
    | some ⟨_, _, _, some _⟩ => 0
    | some ⟨_, _, some (.operation n), none⟩ => lane.rank n + 1
    | some ⟨_, after, none, none⟩ => lane.rank after + 5
    | _ => 0

def Phase.task (n : Nat) : Phase ω → Task
  | .running => .settle n
  | .settled _ => .release n
  | _ => .complete n

def Lane.readTask (lane : Lane κ ω) (n : Nat) (done : Task) : Task :=
  match lane.reads[n]? with
  | some ⟨_, .done _⟩ => done
  | some read => read.phase.task n
  | none => done

def Lane.task (lane : Lane κ ω) : Ticket → Task
  | .operation n => lane.readTask n (.complete n)
  | .followUp f =>
    match lane.followUps[f]? with
    | some ⟨_, _, _, some _⟩ => .adopt f
    | some ⟨_, _, some (.operation n), none⟩ => lane.readTask n (.adopt f)
    | some ⟨_, after, none, none⟩ => lane.readTask after (.startNext f)
    | _ => .adopt f

def Lane.Known (lane : Lane κ ω) : Ticket → Prop
  | .operation n => ∃ read, lane.reads[n]? = some read
  | .followUp f => ∃ x, lane.followUps[f]? = some x

lemma Inv.known (h : Inv lane) (hcall : call ∈ lane.calls) : lane.Known call.promise := by
  have hkept := h.calls call hcall
  unfold Call.Kept at hkept
  unfold Lane.Known
  split at hkept
  · obtain ⟨read, hread, -⟩ := hkept
    exact ⟨read, hread⟩
  · obtain ⟨-, x, hx, -⟩ := hkept
    exact ⟨x, hx⟩

structure Advance (lane next : Lane κ ω) : Prop where
  reads : ∀ (n : Nat) read, lane.reads[n]? = some read → ∃ read', next.reads[n]? = some read' ∧
    (read' = read ∨ read'.phase.rank < read.phase.rank)
  followUps : ∀ (f : Nat) x, lane.followUps[f]? = some x → ∃ x', next.followUps[f]? = some x' ∧
    (x' = x ∨
      (x.target = none ∧ x.outcome = none ∧ x'.outcome = none ∧
        ∃ n, x'.target = some (.operation n)) ∨
      (∃ n o, x.target = some (.operation n) ∧ x.outcome = none ∧ x'.outcome = some o))

lemma Advance.refl (lane : Lane κ ω) : Advance lane lane :=
  ⟨fun _ read hread => ⟨read, hread, .inl rfl⟩, fun _ x hx => ⟨x, hx, .inl rfl⟩⟩

lemma Advance.of_append {lane next : Lane κ ω} {reads : List (Read κ ω)}
    {followUps : List (FollowUp κ ω)} (hreads : next.reads = lane.reads ++ reads)
    (hfollowUps : next.followUps = lane.followUps ++ followUps) : Advance lane next := by
  refine ⟨?_, ?_⟩
  · intro n read hread
    refine ⟨read, ?_, .inl rfl⟩
    rw [hreads]
    exact (getElem?_append_left (List.getElem?_eq_some_iff.mp hread).1).trans hread
  intro f x hx
  refine ⟨x, ?_, .inl rfl⟩
  rw [hfollowUps]
  exact (getElem?_append_left (List.getElem?_eq_some_iff.mp hx).1).trans hx

lemma Advance.run (lane : Lane κ ω) (key : κ) (freshness : Freshness) :
    Advance lane (lane.run key freshness).1 := by
  unfold Lane.run
  cases lane.states key with
  | none => exact Advance.of_append rfl (append_nil _).symm
  | some st =>
  cases freshness with
  | inFlight => exact Advance.refl lane
  | afterCurrent =>
  cases hf : st.followUp with
  | none =>
    simp only [hf]
    exact Advance.of_append (append_nil _).symm rfl
  | some f =>
    simp only [hf]
    exact Advance.refl lane

lemma Advance.setPhase {lane next : Lane κ ω} (phase : Phase ω)
    (hread : lane.reads[n]? = some read) (hrank : phase.rank < read.phase.rank)
    (hreads : next.reads = lane.reads.set n { read with phase := phase })
    (hfollowUps : next.followUps = lane.followUps) : Advance lane next := by
  refine ⟨?_, fun f x hx => ⟨x, by rw [hfollowUps]; exact hx, .inl rfl⟩⟩
  intro m other hother
  rw [hreads, getElem?_set]
  split
  · rename_i heq
    subst heq
    rw [hread] at hother
    cases hother
    rw [if_pos (List.getElem?_eq_some_iff.mp hread).1]
    exact ⟨_, rfl, .inr hrank⟩
  · exact ⟨other, hother, .inl rfl⟩

lemma Advance.setFollowUp {lane middle : Lane κ ω}
    (h : Advance lane middle) (hx : lane.followUps[f]? = some x)
    (hsame : middle.followUps = lane.followUps)
    (hnext : (x.target = none ∧ x.outcome = none ∧ next.outcome = none ∧
        ∃ n, next.target = some (.operation n)) ∨
      ∃ n o, x.target = some (.operation n) ∧ x.outcome = none ∧ next.outcome = some o) :
    Advance lane (middle.setFollowUp f next) := by
  refine ⟨h.reads, ?_⟩
  intro i y hy
  unfold Lane.setFollowUp
  simp only [hsame, getElem?_set]
  split
  · rename_i heq
    subst heq
    rw [hx] at hy
    cases hy
    rw [if_pos (List.getElem?_eq_some_iff.mp hx).1]
    exact ⟨next, rfl, .inr hnext⟩
  · exact ⟨y, hy, .inl rfl⟩

lemma Inv.advance (h : Inv lane) (event : Event κ ω) : Advance lane (lane.step event) := by
  cases event with
  | run key freshness =>
    have hrun := Advance.run lane key freshness
    exact ⟨hrun.reads, hrun.followUps⟩
  | settle n outcome =>
    rw [Lane.step]
    split
    · rename_i key hread
      exact Advance.setPhase (.settled outcome) hread (show 2 < 3 by omega) rfl rfl
    · exact Advance.refl lane
  | release n =>
    rw [Lane.step]
    split
    · rename_i key outcome hread
      unfold Lane.delete
      split
      · exact Advance.setPhase (.released outcome) hread (show 1 < 2 by omega) rfl rfl
      · exact Advance.setPhase (.released outcome) hread (show 1 < 2 by omega) rfl rfl
    · exact Advance.refl lane
  | complete n =>
    rw [Lane.step]
    split
    · rename_i key outcome hread
      exact Advance.setPhase (.done outcome) hread (show 0 < 1 by omega) rfl rfl
    · exact Advance.refl lane
  | startNext f =>
    rw [Lane.step]
    split
    · rename_i key after hf
      split
      · obtain ⟨n, htick, -, -, -, hfollowUps⟩ := h.run_inFlight_progress key
        refine (Advance.run lane key .inFlight).setFollowUp hf hfollowUps (.inl ?_)
        exact ⟨rfl, rfl, rfl, n, by rw [htick]⟩
      · exact Advance.refl lane
    · exact Advance.refl lane
  | adopt f =>
  rw [Lane.step]
  split
  · rename_i key after target hf
    split
    · rename_i outcome htgt
      obtain ⟨n, -, htn, -⟩ := (h.follows f _ hf).target target rfl
      refine (Advance.refl lane).setFollowUp hf rfl (.inr ⟨n, outcome, ?_, rfl, rfl⟩)
      rw [htn]
    · exact Advance.refl lane
  · exact Advance.refl lane

/-! ## Nearer and nearer -/

lemma rank_of_reads (h : lane.reads[n]? = some read) : lane.rank n = read.phase.rank := by
  unfold Lane.rank
  rw [h]

lemma readTask_congr {lane next : Lane κ ω} (h : next.reads[n]? = lane.reads[n]?)
    (done : Task) : next.readTask n done = lane.readTask n done := by
  unfold Lane.readTask
  rw [h]

lemma Advance.rank {lane next : Lane κ ω} (h : Advance lane next)
    (hread : lane.reads[n]? = some read) :
    next.rank n < lane.rank n ∨ next.reads[n]? = lane.reads[n]? := by
  obtain ⟨read', hread', rfl | hlt⟩ := h.reads n read hread
  · exact .inr (hread'.trans hread.symm)
  · rw [rank_of_reads hread', rank_of_reads hread]
    exact .inl hlt

lemma rank_congr {lane next : Lane κ ω} (h : next.reads[n]? = lane.reads[n]?) :
    next.rank n = lane.rank n := by
  unfold Lane.rank
  rw [h]

lemma rank_le_three (lane : Lane κ ω) (n : Nat) : lane.rank n ≤ 3 := by
  unfold Lane.rank
  split
  · rename_i read hread
    cases read.phase <;> simp [Phase.rank]
  · omega

variable {t : Ticket}

lemma Advance.known {lane next : Lane κ ω} (h : Advance lane next)
    (ht : lane.Known t) : next.Known t := by
  cases t with
  | operation n =>
    obtain ⟨read, hread⟩ := ht
    obtain ⟨read', hread', -⟩ := h.reads n read hread
    exact ⟨read', hread'⟩
  | followUp f =>
  obtain ⟨x, hx⟩ := ht
  obtain ⟨x', hx', -⟩ := h.followUps f x hx
  exact ⟨x', hx'⟩

lemma Advance.wait {lane next : Lane κ ω} (hinv : Inv lane) (h : Advance lane next) {t : Ticket}
    (ht : lane.Known t) :
    next.wait t < lane.wait t ∨ (next.wait t = lane.wait t ∧ next.task t = lane.task t) := by
  cases t with
  | operation n =>
    obtain ⟨read, hread⟩ := ht
    rcases h.rank hread with hlt | hsame
    · exact .inl hlt
    · exact .inr ⟨rank_congr hsame, readTask_congr hsame _⟩
  | followUp f =>
  obtain ⟨x, hx⟩ := ht
  obtain ⟨x', hx', hcase⟩ := h.followUps f x hx
  have hok := hinv.follows f x hx
  obtain ⟨key, after, target, outcome⟩ := x
  unfold Lane.wait Lane.task
  simp only [hx, hx']
  rcases hcase with rfl | ⟨rfl, rfl, hout, n, htgt⟩ | ⟨n, o, rfl, rfl, hout⟩
  · cases outcome with
    | some o => exact .inr ⟨rfl, rfl⟩
    | none =>
    cases target with
    | none =>
      obtain ⟨read, hread⟩ := hok.after
      rcases h.rank hread with hlt | hsame
      · exact .inl (Nat.add_lt_add_right hlt 5)
      · exact .inr ⟨congrArg (· + 5) (rank_congr hsame), readTask_congr hsame _⟩
    | some t =>
    obtain ⟨n, read, rfl, hread, -⟩ := hok.target t rfl
    rcases h.rank hread with hlt | hsame
    · exact .inl (Nat.add_lt_add_right hlt 1)
    · exact .inr ⟨congrArg (· + 1) (rank_congr hsame), readTask_congr hsame _⟩
  · obtain ⟨key', after', target', outcome'⟩ := x'
    simp only at hout htgt
    subst hout htgt
    have hle := rank_le_three next n
    refine .inl ?_
    simp only
    omega
  obtain ⟨key', after', target', outcome'⟩ := x'
  simp only at hout
  subst hout
  exact .inl (Nat.succ_pos _)

lemma due_readTask {done : Task} (hread : lane.reads[n]? = some read)
    (hdone : (lane.outcome (.operation n)).isSome = true → lane.Due done) :
    lane.Due (lane.readTask n done) := by
  obtain ⟨key, phase⟩ := read
  unfold Lane.readTask
  rw [hread]
  cases phase with
  | running => exact ⟨key, hread⟩
  | settled outcome | released outcome => exact ⟨key, outcome, hread⟩
  | done outcome =>
  apply hdone
  rw [outcome_of_read hread]
  rfl

lemma Inv.due (h : Inv lane) (ht : lane.Known t)
    (hopen : lane.outcome t = none) : lane.Due (lane.task t) := by
  cases t with
  | operation n =>
    obtain ⟨read, hread⟩ := ht
    refine due_readTask hread ?_
    intro hsome
    rw [hopen] at hsome
    cases hsome
  | followUp f =>
  obtain ⟨⟨key, after, target, outcome⟩, hx⟩ := ht
  have hout : outcome = none := (outcome_of_followUp hx).symm.trans hopen
  subst hout
  have hok := h.follows f _ hx
  unfold Lane.task
  simp only [hx]
  cases target with
  | none =>
    obtain ⟨read, hread⟩ := hok.after
    exact due_readTask hread (fun hdone => ⟨key, after, hx, hdone⟩)
  | some t =>
    obtain ⟨n, read, rfl, hread, -⟩ := hok.target t rfl
    exact due_readTask hread (fun hdone => ⟨key, after, .operation n, hx, hdone⟩)

end Lanes

variable {κ ω : Type} [DecidableEq κ]

variable {lane : Lane κ ω}

lemma Inv.after (h : Inv lane) (later : Nat → Event κ ω) (i : Nat) : Inv (lane.after later i) := by
  induction i with
  | zero => exact h
  | succ i ih => exact ih.step _

variable {t : Ticket}

lemma Inv.fresh (h : Inv lane) {call : Call κ} (hcall : call ∈ lane.calls)
    (hfresh : call.freshness = .afterCurrent) {outcome : ω}
    (hout : lane.outcome call.promise = some outcome) :
    ∃ n, call.before ≤ n ∧ lane.reads[n]? = some ⟨call.key, .done outcome⟩ := by
  have hkept := h.calls call hcall
  unfold Call.Kept at hkept
  split at hkept
  · rename_i n hn
    rw [hn] at hout
    obtain ⟨read, hread, hkey, hbef⟩ := hkept
    obtain ⟨key, hdone⟩ := outcome_operation hout
    rw [hread] at hdone
    cases hdone
    subst hkey
    exact ⟨n, hbef hfresh, hread⟩
  rename_i f hf
  rw [hf] at hout
  obtain ⟨-, x, hx, hkey, hbef, -⟩ := hkept
  have hok := h.follows f x hx
  rw [outcome_of_followUp hx] at hout
  cases htgt : x.target with
  | none =>
    rw [hok.open_ htgt] at hout
    cases hout
  | some t =>
  obtain ⟨n, ⟨key, phase⟩, rfl, hread, hsame, hdone⟩ := hok.target t htgt
  have hphase : phase = .done outcome := hdone outcome hout
  subst hphase
  refine ⟨n, hbef n htgt, hread.trans ?_⟩
  rw [← hkey, ← hsame]

end CodeWide.Sync.ThreadLane
