import CodeWide.Relay.Routes
import Mathlib.Logic.Function.Basic

/-!
# The enrollment window of the relay

The candidate lock makes a test of `is_open` and the write after it one step; the write of
`Connecting` takes no lock.
-/

namespace CodeWide.Relay.Enrollment

open Lib

inductive Phase
  | waiting
  | confirm (candidate : Nat) (label code : String)
  | approved
  | connecting (label : String)
  | connected (label : String) (routeId : Nat)
  | cancelled
  | expired
deriving DecidableEq

def Phase.finished : Phase → Bool
  | .connected _ _ | .cancelled | .expired => true
  | _ => false

structure Candidate where
  id : Nat
  label : String
  approved : Bool
  routeId : Option Nat

/-- How far `exchange` is while its `UncommittedRoute` is alive. -/
inductive Held
  | registered
  | noted
  | granted
  | stored
  | connecting
  | online

inductive Stage
  | idle
  | claimed
  | confirming
  | approved
  | held (stage : Held) (label : String) (routeId : Nat)
  | committed
  | failed
  | ended

structure Window where
  phase : Phase
  stopped : Bool
  late : Bool
  candidate : Option Candidate
  online : Option Nat
  /-- The handshakes, by the channel each of them runs on. -/
  serve : Nat → Stage
  routes : List Nat
  /-- What has happened so far; an identifier is claimed on a channel. -/
  claims : List (Nat × Nat)
  shown : List Nat
  approvals : List Nat
  issued : List Nat
  sent : List (Nat × Nat)

def Window.opened (routes : List Nat) : Window :=
  ⟨.waiting, false, false, none, none, fun _ => .idle, routes, [], [], [], [], []⟩

def Window.isOpen (w : Window) : Bool := !w.stopped && !w.late && !w.phase.finished

def Window.finish (w : Window) (phase : Phase) : Window :=
  if w.phase.finished then w else { w with phase := phase, stopped := true }

def Window.at (w : Window) (channel : Nat) (stage : Stage) : Window :=
  { w with serve := Function.update w.serve channel stage }

inductive Event
  | approve (id : Nat)
  | cancel
  | deadline
  | expire
  | connected (routeId : Nat)
  | claim (channel id : Nat) (label : String)
  | showSymbols (channel : Nat) (code : String)
  | seeApproved (channel : Nat)
  | register (channel routeId : Nat)
  | note (channel : Nat)
  | grant (channel : Nat)
  | receiveStored (channel : Nat)
  | connect (channel : Nat)
  | seeOnline (channel : Nat)
  | commit (channel : Nat)
  | complete (channel : Nat)
  | fail (channel : Nat)
  | leave (channel : Nat)

/-- The guard of the route is dropped when `exchange` ends without a commit. -/
def Window.drop (w : Window) : Stage → Window
  | .held _ _ r => { w with routes := w.routes.filter (· ≠ r) }
  | _ => w

def Window.step (w : Window) : Event → Window
  | .approve id =>
    match w.candidate, w.phase with
    | some c, .confirm _ _ _ =>
      if w.isOpen ∧ c.id = id ∧ ¬c.approved then
        { w with candidate := some { c with approved := true }, phase := .approved,
                 approvals := id :: w.approvals }
      else w
    | _, _ => w
  | .cancel => w.finish .cancelled
  | .deadline => { w with late := true }
  | .expire => if w.late then w.finish .expired else w
  | .connected r =>
    -- `current` reads `is_open` before the lock is taken, and can only refuse
    if w.candidate.bind Candidate.routeId = some r then { w with online := some r } else w
  | .claim channel id label =>
    match w.serve channel with
    | .idle =>
      if Routes.validateLabel label ∧ w.isOpen ∧ w.candidate.isNone then
        { w.at channel .claimed with candidate := some ⟨id, label, false, none⟩,
                                     claims := (id, channel) :: w.claims }
      else w
    | _ => w
  | .showSymbols channel code =>
    match w.serve channel, w.candidate with
    | .claimed, some c =>
      if w.isOpen then
        { w.at channel .confirming with phase := .confirm c.id c.label code,
                                        shown := c.id :: w.shown }
      else w
    | _, _ => w
  | .seeApproved channel =>
    match w.serve channel, w.phase with
    | .confirming, .approved => w.at channel .approved
    | _, _ => w
  | .register channel r =>
    match w.serve channel, w.candidate with
    | .approved, some c =>
      if r ∈ w.routes then w
      else { w.at channel (.held .registered c.label r) with routes := r :: w.routes,
                                                             issued := r :: w.issued }
    | _, _ => w
  | .note channel =>
    match w.serve channel, w.candidate with
    | .held .registered label r, some c =>
      { w.at channel (.held .noted label r) with candidate := some { c with routeId := some r } }
    | _, _ => w
  | .grant channel =>
    match w.serve channel with
    | .held .noted label r =>
      { w.at channel (.held .granted label r) with sent := (channel, r) :: w.sent }
    | _ => w
  | .receiveStored channel =>
    match w.serve channel with
    | .held .granted label r => w.at channel (.held .stored label r)
    | _ => w
  | .connect channel =>
    match w.serve channel with
    | .held .stored label r =>
      { w.at channel (.held .connecting label r) with phase := .connecting label }
    | _ => w
  | .seeOnline channel =>
    match w.serve channel with
    | .held .connecting label r =>
      if w.online = some r then w.at channel (.held .online label r) else w
    | _ => w
  | .commit channel =>
    match w.serve channel with
    | .held .online label r =>
      if w.isOpen then { w.at channel .committed with phase := .connected label r } else w
    | _ => w
  | .complete channel =>
    match w.serve channel with
    | .committed => w.at channel .ended
    | _ => w
  | .fail channel =>
    match w.serve channel with
    | .idle | .failed | .ended => w
    | stage => (w.drop stage).at channel .failed
  | .leave channel =>
    match w.serve channel with
    | .failed => (w.finish .cancelled).at channel .ended
    | _ => w

structure Kept (w : Window) : Prop where
  claims : w.claims.length ≤ 1
  issued : ∀ r ∈ w.issued, ∃ id channel, (id, channel) ∈ w.claims ∧ id ∈ w.shown ∧ id ∈ w.approvals
  sent : ∀ channel r, (channel, r) ∈ w.sent → r ∈ w.issued ∧ ∃ id, (id, channel) ∈ w.claims
  routes : w.phase.finished → (∀ id channel, (id, channel) ∈ w.claims → w.serve channel = .ended) →
    ∀ r ∈ w.issued, r ∈ w.routes ↔ ∃ label, w.phase = .connected label r

def Final (w : Window) (e : Event) : Prop := w.phase.finished → (w.step e).phase = w.phase

def Meets (w : Window) : Event → Prop
  | .connect channel => ∀ label r, w.serve channel = .held .stored label r → ¬w.phase.finished
  | _ => True

structure Owned (w : Window) (c : Candidate) (owner : Nat) : Prop where
  candidate : w.candidate = some c
  claims : w.claims = [(c.id, owner)]
  others : ∀ other, other ≠ owner → w.serve other = .idle
  confirm : ∀ id label code, w.phase = .confirm id label code → c.id ∈ w.shown
  approved : w.phase = .approved ∨ w.serve owner = .approved ∨ w.issued ≠ [] →
    c.id ∈ w.shown ∧ c.id ∈ w.approvals
  held : ∀ stage label r, w.serve owner = .held stage label r → r ∈ w.issued
  sent : ∀ channel r, (channel, r) ∈ w.sent → channel = owner ∧ r ∈ w.issued
  routes : ∀ r ∈ w.issued, r ∈ w.routes ↔
    (∃ stage label, w.serve owner = .held stage label r) ∨ ∃ label, w.phase = .connected label r
  connected : ∀ label r, w.phase = .connected label r →
    w.serve owner = .committed ∨ w.serve owner = .failed ∨ w.serve owner = .ended

structure Unclaimed (w : Window) : Prop where
  candidate : w.candidate = none
  claims : w.claims = []
  idle : ∀ channel, w.serve channel = .idle
  phase : w.phase = .waiting ∨ w.phase = .cancelled ∨ w.phase = .expired
  issued : w.issued = []
  sent : w.sent = []

variable {w : Window} {c : Candidate} {owner channel : Nat}

lemma Owned.owner_of (h : Owned w c owner) (hne : w.serve channel ≠ .idle) : channel = owner := by
  by_contra hother
  exact hne (h.others channel hother)

lemma Owned.finish (h : Owned w c owner) {phase : Phase}
    (hphase : phase = .cancelled ∨ phase = .expired) : Owned (w.finish phase) c owner := by
  unfold Window.finish
  split
  · exact h
  rename_i hopen
  have hnot : ∀ label r, w.phase ≠ .connected label r := fun label r heq =>
    hopen (by rw [heq]; rfl)
  constructor <;> grind [Owned]

/-- Only the handshake that claimed has left `idle`, so each of its steps is the owner's. -/
lemma Owned.step (h : Owned w c owner) (e : Event) : ∃ c', Owned (w.step e) c' owner := by
  cases e with
  | cancel => exact ⟨c, h.finish (.inl rfl)⟩
  | deadline => exact ⟨c, { h with }⟩
  | expire =>
    simp only [Window.step]
    split
    · exact ⟨c, h.finish (.inr rfl)⟩
    · exact ⟨c, h⟩
  | approve id =>
    simp only [Window.step]
    split
    · split
      · refine ⟨{ c with approved := true }, ?_⟩
        constructor <;> grind [Owned]
      · exact ⟨c, h⟩
    · exact ⟨c, h⟩
  | connected r =>
    simp only [Window.step]
    split
    · exact ⟨c, { h with }⟩
    · exact ⟨c, h⟩
  | claim channel id label =>
    simp only [Window.step]
    split
    · split
      · rename_i hclaim
        rw [h.candidate] at hclaim
        simp at hclaim
      · exact ⟨c, h⟩
    · exact ⟨c, h⟩
  | fail channel =>
    simp only [Window.step]
    split
    · exact ⟨c, h⟩
    · exact ⟨c, h⟩
    · exact ⟨c, h⟩
    rename_i hidle hfailed hended
    obtain rfl := h.owner_of hidle
    refine ⟨c, ?_⟩
    cases hstage : w.serve channel with
    | held stage label r => constructor <;> simp only [Window.at, Window.drop] <;> grind [Owned]
    | _ => constructor <;> simp only [Window.at, Window.drop] <;> grind [Owned]
  | leave channel =>
    simp only [Window.step]
    split
    · rename_i hstage
      obtain rfl := h.owner_of (by rw [hstage]; exact Stage.noConfusion)
      have hfinish := h.finish (.inl (Eq.refl Phase.cancelled))
      have hserve : (w.finish .cancelled).serve = w.serve := by unfold Window.finish; split <;> rfl
      refine ⟨c, ?_⟩
      constructor <;> simp only [Window.at] <;> grind [Owned]
    · exact ⟨c, h⟩
  | note channel =>
    simp only [Window.step]
    split
    · rename_i label r held hstage hcand
      obtain rfl := h.owner_of (by rw [hstage]; exact Stage.noConfusion)
      obtain rfl := Option.some.inj (h.candidate.symm.trans hcand)
      refine ⟨{ c with routeId := some r }, ?_⟩
      constructor <;> simp only [Window.at] <;> grind [Owned]
    · exact ⟨c, h⟩
  | register channel r =>
    simp only [Window.step]
    split
    · split
      · exact ⟨c, h⟩
      rename_i hstage _ _
      obtain rfl := h.owner_of (by rw [hstage]; exact Stage.noConfusion)
      have hunheld : ∀ stage label r, w.serve channel ≠ .held stage label r := by simp [hstage]
      have hunconn : ∀ label r, w.phase ≠ .connected label r := fun label r hphase => by
        simpa [hstage] using h.connected label r hphase
      have hroutes : ∀ r' ∈ w.issued, r' ∉ w.routes := fun r' hr' hin => by
        simpa [hunheld, hunconn] using (h.routes r' hr').mp hin
      refine ⟨c, ?_⟩
      constructor
      case routes =>
        intro r' hr'
        simp only [Window.at, Function.update_self, List.mem_cons] at hr' ⊢
        simp only [Stage.held.injEq, hunconn, exists_const, or_false]
        grind
      all_goals
        simp only [Window.at]
        grind [Owned]
    · exact ⟨c, h⟩
  | commit channel =>
    simp only [Window.step]
    split
    · split
      · rename_i label r hstage hopen
        obtain rfl := h.owner_of (by rw [hstage]; exact Stage.noConfusion)
        have hunconn : ∀ label r, w.phase ≠ .connected label r := fun label r hphase => by
          simpa [hstage] using h.connected label r hphase
        refine ⟨c, ?_⟩
        constructor
        case routes =>
          intro r' hr'
          have hbef := h.routes r' hr'
          simp only [hstage, hunconn] at hbef
          simpa [Window.at, eq_comm] using hbef
        all_goals
          simp only [Window.at]
          grind [Owned]
      · exact ⟨c, h⟩
    · exact ⟨c, h⟩
  | showSymbols channel | seeOnline channel =>
    simp only [Window.step]
    split
    · split
      all_goals first
        | exact ⟨c, h⟩
        | refine ⟨c, ?_⟩
          constructor <;> simp only [Window.at] <;> grind [Owned, Window.isOpen, Phase.finished]
    · exact ⟨c, h⟩
  | seeApproved channel | grant channel | receiveStored channel | connect channel
  | complete channel =>
  simp only [Window.step]
  split
  · refine ⟨c, ?_⟩
    constructor <;> simp only [Window.at] <;> grind [Owned]
  · exact ⟨c, h⟩

lemma Unclaimed.finish (h : Unclaimed w) {phase : Phase}
    (hphase : phase = .cancelled ∨ phase = .expired) : Unclaimed (w.finish phase) := by
  unfold Window.finish
  split
  · exact h
  · exact { h with phase := .inr hphase }

lemma Unclaimed.step (h : Unclaimed w) (e : Event) :
    Unclaimed (w.step e) ∨ ∃ c owner, Owned (w.step e) c owner := by
  have hidle := h.idle
  cases e with
  | claim channel id label =>
    simp only [Window.step, hidle]
    split
    · refine .inr ⟨⟨id, label, false, none⟩, channel, ?_⟩
      constructor <;> simp only [Window.at] <;> grind [Unclaimed]
    · exact .inl h
  | cancel => exact .inl (h.finish (.inl rfl))
  | deadline => exact .inl { h with }
  | expire =>
    simp only [Window.step]
    split
    · exact .inl (h.finish (.inr rfl))
    · exact .inl h
  | approve | connected =>
    refine .inl ?_
    simpa [Window.step, h.candidate] using h
  | _ => simpa only [Window.step, hidle] using .inl h

lemma owned_or_unclaimed (routes : List Nat) (events : List Event) :
    Unclaimed (exec Window.step (.opened routes) events) ∨
      ∃ c owner, Owned (exec Window.step (.opened routes) events) c owner := by
  refine exec_invariant (P := fun w => Unclaimed w ∨ ∃ c owner, Owned w c owner)
    (fun w e h => ?_) (.inl ⟨rfl, rfl, fun _ => rfl, .inl rfl, rfl, rfl⟩) events
  obtain h | ⟨c, owner, h⟩ := h
  · exact h.step e
  · obtain ⟨c', h'⟩ := h.step e
    exact .inr ⟨c', owner, h'⟩

lemma Unclaimed.kept (h : Unclaimed w) : Kept w where
  claims := by simp [h.claims]
  issued := by simp [h.issued]
  sent := by simp [h.sent]
  routes := by simp [h.issued]

lemma Owned.kept (h : Owned w c owner) : Kept w where
  claims := by simp [h.claims]
  issued r hr := by
    obtain ⟨hshown, happroved⟩ := h.approved (.inr (.inr (List.ne_nil_of_mem hr)))
    exact ⟨c.id, owner, by simp [h.claims], hshown, happroved⟩
  sent channel r hsent := by
    obtain ⟨rfl, hr⟩ := h.sent channel r hsent
    exact ⟨hr, c.id, by simp [h.claims]⟩
  routes _ hended r hr := by
    have howner := hended c.id owner (by simp [h.claims])
    rw [h.routes r hr, howner]
    simp

lemma Window.drop_phase (stage : Stage) : (w.drop stage).phase = w.phase := by
  cases stage <;> rfl

lemma final_iff (e : Event) : Final w e ↔ Meets w e := by
  cases e with
  | connect channel =>
    simp only [Final, Meets, Window.step]
    split
    · rename_i label r hstage
      grind [Phase.finished]
    · simp_all
  | _ =>
  refine iff_of_true (fun hfinished => ?_) trivial
  simp only [Window.step, Window.finish, Window.isOpen, Window.at] <;>
    grind [Window.drop_phase, Phase.finished]

theorem enrollment_runs (routes : List Nat) (events : List Event) :
    Kept (exec Window.step (.opened routes) events) ∧
      (Always Window.step Final (.opened routes) events ↔
        Always Window.step Meets (.opened routes) events) := by
  refine ⟨?_, Always.imp (fun _ e => (final_iff e).mp), Always.imp (fun _ e => (final_iff e).mpr)⟩
  obtain h | ⟨c, owner, h⟩ := owned_or_unclaimed routes events
  · exact h.kept
  · exact h.kept

def cancelled : List Event :=
  [.claim 1 0 "phone", .showSymbols 1 "code", .approve 0, .seeApproved 1, .register 1 7, .note 1,
    .grant 1, .receiveStored 1, .cancel]

theorem finished_phase_followed :
    (exec Window.step (.opened []) cancelled).phase = .cancelled ∧
      (exec Window.step (.opened []) (cancelled ++ [.connect 1])).phase = .connecting "phone" := by
  decide +kernel

end CodeWide.Relay.Enrollment
