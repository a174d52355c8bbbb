import CodeWide.Lib.Run
import Mathlib.Logic.Function.Basic

/-!
# Account credentials and their rotation

Refresh requests rotate the tokens of a profile without the switch lock, while its holder copies
tokens it has read before.
-/

namespace CodeWide.Accounts

open Lib Option Function

structure Token where
  profile : String
  version : Nat

inductive Rotation where
  /-- The credential file is read, the token endpoint is asked. -/
  | requesting (profile : String)
  | writing (token : Token)
  /-- The credential file is written, the active profile is still to be read. -/
  | checking (token : Token)
  | writingLive (token : Token)

inductive SwitchStage where
  | holding
  /-- `capture_current_credentials_unpublished_locked` has read the live file. -/
  | capturing (token : Token)
  | captured (profile : String)
  /-- `activate_profile_locked` has read the credential file. -/
  | loggingIn (token : Token)
  | activated (profile : String)
  | refreshingActive (profile : String)
  | refreshingInactive (token : Token)
  /-- `attach_refreshed_credentials` has read the tokens after the refresh. -/
  | attached (token : Token)
  /-- `store_enrolled_profile_locked` has the tokens of a login. -/
  | enrolling (token : Token)

structure Switch where
  stage : SwitchStage
  observations : List Token

structure Pool where
  credentials : String → Option Nat
  live : Option Token
  active : Option String
  rotation : Option Rotation
  switch : Option Switch
  nextVersion : Nat
  newest : String → Option Nat

inductive Input where
  | rotate (profile : String)
  | rotationGoes (answered : Bool)
  | lock
  | capture
  | activate (profile : String)
  | refreshActive
  | refreshInactive (profile : String)
  | enroll (profile : String)
  | switchGoes (succeeds rotated : Bool)
  | commit
  | unlock

namespace Pool

def wrote (s : Pool) (token : Token) : String → Option Nat :=
  update s.newest token.profile (some (max token.version ((s.newest token.profile).getD 0)))

def writeCredentials (s : Pool) (token : Token) : Pool :=
  { s with
    credentials := update s.credentials token.profile (some token.version)
    newest := s.wrote token }

def writeLive (s : Pool) (token : Token) : Pool :=
  { s with live := some token, newest := s.wrote token }

def credentialsOf (s : Pool) (profile : String) : Option Token :=
  (s.credentials profile).map (fun version => ⟨profile, version⟩)

def rotationGoes (s : Pool) (rotation : Rotation) (answered : Bool) : Pool :=
  match rotation with
  | .requesting profile =>
    if answered then
      { s with
        rotation := some (.writing ⟨profile, s.nextVersion⟩)
        nextVersion := s.nextVersion + 1 }
    else { s with rotation := none }
  | .writing token => { s.writeCredentials token with rotation := some (.checking token) }
  | .checking token =>
    if s.active = some token.profile then { s with rotation := some (.writingLive token) }
    else { s with rotation := none }
  | .writingLive token => { s.writeLive token with rotation := none }

def goes (s : Pool) (switch : Switch) (stage : SwitchStage) : Pool :=
  { s with switch := some { switch with stage } }

def switchGoes (s : Pool) (switch : Switch) (succeeds rotated : Bool) : Pool :=
  match switch.stage with
  | .holding => s
  | .capturing token => (s.writeCredentials token).goes switch (.captured token.profile)
  | .captured profile => { s with active := some profile }.goes switch .holding
  | .loggingIn token =>
    if succeeds then (s.writeLive token).goes switch (.activated token.profile)
    else s.goes switch .holding
  | .activated profile => { s with active := some profile }.goes switch .holding
  | .refreshingActive profile =>
    match s.live with
    | none => s.goes switch .holding
    | some token =>
      -- the App Server may have changed accounts
      if token.profile = profile then s.goes switch (.attached token)
      else s.goes switch .holding
  | .refreshingInactive token =>
    if rotated then
      { s with nextVersion := s.nextVersion + 1 }.goes switch
        (.attached ⟨token.profile, s.nextVersion⟩)
    else s.goes switch (.attached token)
  | .attached token =>
    if succeeds then
      { s with switch := some ⟨.holding, switch.observations ++ [token]⟩ }
    else (s.writeCredentials token).goes switch .holding
  | .enrolling token => (s.writeCredentials token).goes switch .holding

def begin (s : Pool) (stage : Pool → Option SwitchStage) : Pool :=
  match s.switch with
  | some ⟨.holding, observations⟩ =>
    match stage s with
    | some stage => { s with switch := some ⟨stage, observations⟩ }
    | none => s
  | _ => s

def step (s : Pool) : Input → Pool
  | .rotate profile =>
    match s.rotation, s.credentials profile with
    | none, some _ => { s with rotation := some (.requesting profile) }
    | _, _ => s
  | .rotationGoes answered =>
    match s.rotation with
    | none => s
    | some rotation => s.rotationGoes rotation answered
  | .lock =>
    match s.switch with
    | none => { s with switch := some ⟨.holding, []⟩ }
    | some _ => s
  | .capture => s.begin (fun s => s.live.map SwitchStage.capturing)
  | .activate profile =>
    -- the live file is read as well, for a rollback
    s.begin (fun s => if s.live.isSome then (s.credentialsOf profile).map SwitchStage.loggingIn else none)
  | .refreshActive => s.begin (fun s => s.active.map SwitchStage.refreshingActive)
  | .refreshInactive profile =>
    s.begin (fun s =>
      if s.active = some profile then none
      else (s.credentialsOf profile).map SwitchStage.refreshingInactive)
  | .enroll profile =>
    match s.switch with
    | some ⟨.holding, observations⟩ =>
      { s with
        nextVersion := s.nextVersion + 1
        switch := some ⟨.enrolling ⟨profile, s.nextVersion⟩, observations⟩ }
    | _ => s
  | .switchGoes succeeds rotated =>
    match s.switch with
    | none => s
    | some switch => s.switchGoes switch succeeds rotated
  | .commit =>
    match s.switch with
    | some ⟨.holding, token :: rest⟩ =>
      { s.writeCredentials token with switch := some ⟨.holding, rest⟩ }
    | _ => s
  | .unlock =>
    match s.switch with
    | some ⟨.holding, _⟩ => { s with switch := none }
    | _ => s

def stage (s : Pool) : Option SwitchStage := s.switch.map (fun switch => switch.stage)

def liveProfile (s : Pool) : Option String := s.live.map (fun token => token.profile)

def LiveIsNewest (s : Pool) : Prop :=
  s.active = s.liveProfile ∧
    ∀ token, s.live = some token → s.newest token.profile = some token.version

structure Kept (s : Pool) : Prop where
  /-- No older token is written over the newest one. -/
  credentials : ∀ profile, s.credentials profile = s.newest profile
  live : s.rotation = none → s.switch = none → s.LiveIsNewest

def Current (s : Pool) (token : Token) : Prop :=
  ∀ version, s.newest token.profile = some version → version ≤ token.version

/-- The credential file is not of the profile whose tokens are live, or gets the same tokens. -/
def KeepsLive (s : Pool) (token : Token) : Prop :=
  s.liveProfile = some token.profile → s.newest token.profile = some token.version

/-- Only the latest tokens are written, and the live file is written exactly if it is the profile's.
-/
def Orderly (s : Pool) : Input → Prop
  | .rotationGoes _ =>
    match s.rotation with
    | some (.writing token) => s.Current token
    | some (.checking token) => s.active = some token.profile ∨ s.liveProfile ≠ some token.profile
    | some (.writingLive token) => s.Current token ∧ s.liveProfile = some token.profile
    | _ => True
  | .switchGoes succeeds _ =>
    match s.stage with
    | some (.capturing token) => s.Current token ∧ s.KeepsLive token
    | some (.loggingIn token) => succeeds = true → s.Current token
    | some (.attached token) => succeeds = false → s.Current token ∧ s.KeepsLive token
    | some (.enrolling token) => s.Current token ∧ s.KeepsLive token
    | _ => True
  | .commit =>
    match s.switch with
    | some ⟨.holding, token :: _⟩ => s.Current token ∧ s.KeepsLive token
    | _ => True
  | _ => True

variable {s s' : Pool}

/-- The token has been written. -/
def Written (s : Pool) (token : Token) : Prop :=
  ∃ version, s.newest token.profile = some version ∧ token.version ≤ version

/-- The tokens that a rotation has written to the credential file, with the live file to come. -/
def rotated (s : Pool) : Option Token :=
  s.rotation.bind (fun rotation =>
    match rotation with
    | .checking token => some token
    | .writingLive token => some token
    | _ => none)

/-- The active profile is the live one, except where an activation has written the live file. -/
def Placed (s : Pool) : Prop :=
  match s.stage with
  | some (.activated profile) => s.liveProfile = some profile
  | some (.captured profile) => s.active = s.liveProfile ∧ s.liveProfile = some profile
  | some (.capturing token) => s.active = s.liveProfile ∧ s.liveProfile = some token.profile
  | _ => s.active = s.liveProfile

structure Inv (s : Pool) : Prop where
  credentials : ∀ profile, s.credentials profile = s.newest profile
  live : ∀ token, s.live = some token → s.newest token.profile = some token.version ∨
    ∃ other, s.rotated = some other ∧ other.profile = token.profile
  rotated : ∀ token, s.rotated = some token → s.Written token
  loggingIn : ∀ token, s.stage = some (.loggingIn token) → s.Written token
  placed : s.Placed

lemma Inv.kept (h : Inv s) : Kept s where
  credentials := h.credentials
  live hrota hsw := by
    have hpl := h.placed
    unfold Placed stage at hpl
    rw [hsw] at hpl
    refine ⟨hpl, ?_⟩
    intro token hlive
    rcases h.live token hlive with hnewe | ⟨other, hother, -⟩
    · exact hnewe
    · unfold Pool.rotated at hother
      rw [hrota] at hother
      exact absurd hother (some_ne_none other).symm

/-- A pool between two operations, as a start of the companion finds it after its capture. -/
structure Start (s : Pool) : Prop where
  rotation : s.rotation = none
  switch : s.switch = none
  credentials : ∀ profile, s.credentials profile = s.newest profile
  live : s.LiveIsNewest

lemma Start.inv (h : Start s) : Inv s where
  credentials := h.credentials
  live := fun token hlive => .inl (h.live.2 token hlive)
  rotated := by
    intro token hrot
    unfold Pool.rotated at hrot
    rw [h.rotation] at hrot
    exact absurd hrot (some_ne_none token).symm
  loggingIn := by
    intro token hstage
    unfold stage at hstage
    rw [h.switch] at hstage
    exact absurd hstage (some_ne_none _).symm
  placed := by
    unfold Placed stage
    rw [h.switch]
    exact h.live.1

variable {token : Token}

lemma wrote_of_current (h : s.Current token) :
    s.wrote token = update s.newest token.profile (some token.version) := by
  unfold wrote
  congr 2
  cases hnewe : s.newest token.profile with
  | none => exact Nat.max_eq_left (Nat.zero_le _)
  | some version => exact Nat.max_eq_left (h version hnewe)

lemma Written.wrote {token other : Token} (h : s.Written other) (hnext : s'.newest = s.wrote token) :
    s'.Written other := by
  obtain ⟨version, hnewe, hle⟩ := h
  unfold Written
  rw [hnext]
  unfold Pool.wrote
  by_cases hsame : other.profile = token.profile
  · rw [hsame, update_self]
    refine ⟨_, rfl, ?_⟩
    rw [← hsame, hnewe]
    exact Nat.le_trans hle (Nat.le_max_right _ _)
  · rw [update_of_ne hsame]
    exact ⟨version, hnewe, hle⟩

lemma written_of_wrote (hnext : s'.newest = s.wrote token) : s'.Written token := by
  unfold Written
  rw [hnext]
  unfold Pool.wrote
  rw [update_self]
  exact ⟨_, rfl, Nat.le_max_left _ _⟩

lemma Inv.of_read (h : Inv s) (hcred : s'.credentials = s.credentials)
    (hlive : s'.live = s.live) (hnewe : s'.newest = s.newest)
    (hrot : s'.rotated = s.rotated ∨ (s'.rotated = none ∧ ∀ token other, s.live = some token →
      s.rotated = some other → other.profile ≠ token.profile))
    (hloggingIn : ∀ token, s'.stage = some (.loggingIn token) → s.Written token)
    (hpl : s'.Placed) : Inv s' := by
  refine ⟨?_, ?_, ?_, ?_, hpl⟩
  · rw [hcred, hnewe]
    exact h.credentials
  · rw [hlive, hnewe]
    intro token hmem
    rcases hrot with hsame | ⟨-, hother⟩
    · rw [hsame]
      exact h.live token hmem
    · rcases h.live token hmem with hnow | ⟨other, hin, heq⟩
      · exact .inl hnow
      · exact absurd heq (hother token other hmem hin)
  · intro token hmem
    unfold Written
    rw [hnewe]
    rcases hrot with hsame | ⟨hnone, -⟩
    · rw [hsame] at hmem
      exact h.rotated token hmem
    · rw [hnone] at hmem
      exact absurd hmem (some_ne_none token).symm
  intro token hmem
  unfold Written
  rw [hnewe]
  exact hloggingIn token hmem

lemma Inv.of_credentials (h : Inv s) (hcur : s.Current token)
    (hcred : s'.credentials = update s.credentials token.profile (some token.version))
    (hnewe : s'.newest = s.wrote token) (hlive : s'.live = s.live)
    (hkeeps : (s.KeepsLive token ∧ s'.rotated = s.rotated) ∨
      (s.rotated = none ∧ s'.rotated = some token))
    (hloggingIn : ∀ other, s'.stage = some (.loggingIn other) → s.Written other)
    (hpl : s'.Placed) : Inv s' := by
  have hwrote := wrote_of_current hcur
  refine ⟨?_, ?_, ?_, ?_, hpl⟩
  · intro profile
    rw [hcred, hnewe, hwrote]
    by_cases hsame : profile = token.profile
    · rw [hsame, update_self, update_self]
    · rw [update_of_ne hsame, update_of_ne hsame]
      exact h.credentials profile
  · rw [hlive, hnewe, hwrote]
    intro other hmem
    by_cases hsame : other.profile = token.profile
    · rcases hkeeps with ⟨hkept, hrot⟩ | ⟨-, hrot⟩
      · have hnow := hkept (by unfold liveProfile; rw [hmem, ← hsame]; rfl)
        rw [← hnow, update_eq_self, hrot]
        exact h.live other hmem
      · exact .inr ⟨token, hrot, hsame.symm⟩
    rw [update_of_ne hsame]
    rcases h.live other hmem with hnow | ⟨rotating, hin, heq⟩
    · exact .inl hnow
    rcases hkeeps with ⟨-, hrot⟩ | ⟨hnone, -⟩
    · rw [hrot]
      exact .inr ⟨rotating, hin, heq⟩
    · rw [hnone] at hin
      exact absurd hin (some_ne_none rotating).symm
  · intro other hmem
    rcases hkeeps with ⟨-, hrot⟩ | ⟨-, hrot⟩
    · rw [hrot] at hmem
      exact (h.rotated other hmem).wrote hnewe
    · rw [hrot] at hmem
      rw [← some.inj hmem]
      exact written_of_wrote hnewe
  · exact fun other hmem => (hloggingIn other hmem).wrote hnewe

lemma Inv.of_live (h : Inv s) (hcur : s.Current token)
    (hwr : s.Written token) (hcred : s'.credentials = s.credentials)
    (hnewe : s'.newest = s.wrote token) (hlive : s'.live = some token)
    (hrot : s'.rotated = s.rotated ∨ s'.rotated = none)
    (hloggingIn : ∀ other, s'.stage = some (.loggingIn other) → s.Written other)
    (hpl : s'.Placed) : Inv s' := by
  obtain ⟨version, hver, hle⟩ := hwr
  have heq : version = token.version := Nat.le_antisymm (hcur version hver) hle
  have hsame : s'.newest = s.newest := by
    rw [hnewe, wrote_of_current hcur, ← heq, ← hver, update_eq_self]
  refine ⟨?_, ?_, ?_, ?_, hpl⟩
  · rw [hcred, hsame]
    exact h.credentials
  · intro other hmem
    rw [hlive] at hmem
    rw [hsame, ← some.inj hmem, hver, heq]
    exact .inl rfl
  · intro other hmem
    rcases hrot with hkept | hnone
    · rw [hkept] at hmem
      exact (h.rotated other hmem).wrote hnewe
    · rw [hnone] at hmem
      exact absurd hmem (some_ne_none other).symm
  · exact fun other hmem => (hloggingIn other hmem).wrote hnewe

lemma Inv.rotationGoes (h : Inv s) {rotation : Rotation} (hrota : s.rotation = some rotation)
    (answered : Bool) (horderly : Orderly s (.rotationGoes answered)) :
    Inv (s.rotationGoes rotation answered) := by
  have hrot : s.rotated = Pool.rotated { s with rotation := some rotation } := by
    unfold Pool.rotated
    rw [hrota]
  simp only [Orderly, hrota] at horderly
  cases rotation with
  | requesting profile =>
    simp only [Pool.rotationGoes]
    split
    · exact h.of_read rfl rfl rfl (.inl hrot.symm) h.loggingIn h.placed
    · exact h.of_read rfl rfl rfl (.inl hrot.symm) h.loggingIn h.placed
  | writing token =>
    exact h.of_credentials horderly rfl rfl rfl (.inr ⟨hrot, by rfl⟩) h.loggingIn h.placed
  | checking token =>
    simp only [Pool.rotationGoes]
    split
    · exact h.of_read rfl rfl rfl (.inl hrot.symm) h.loggingIn h.placed
    rename_i hinactive
    refine h.of_read rfl rfl rfl (.inr ⟨by rfl, ?_⟩) h.loggingIn h.placed
    intro live other hlive hother hsame
    rw [hrot] at hother
    obtain rfl : token = other := some.inj hother
    refine horderly.resolve_left hinactive ?_
    unfold liveProfile
    rw [hlive, hsame]
    rfl
  | writingLive token =>
  obtain ⟨hcur, hplace⟩ := horderly
  have hsame : (s.rotationGoes (.writingLive token) answered).liveProfile = s.liveProfile :=
    hplace.symm
  refine h.of_live hcur (h.rotated token hrot) rfl rfl rfl (.inr rfl) h.loggingIn ?_
  have hpl := h.placed
  unfold Placed at hpl ⊢
  rw [hsame]
  exact hpl

section Switch

variable {switch : Switch} {observations : List Token}

lemma stage_of_switch (hsw : s.switch = some switch) : s.stage = some switch.stage := by
  unfold stage
  rw [hsw]
  rfl

lemma Inv.placed_of (h : Inv s) {current : SwitchStage} (hstage : s.stage = some current)
    (hinactive : ∀ profile, current ≠ .activated profile) : s.active = s.liveProfile := by
  have hpl := h.placed
  unfold Placed at hpl
  rw [hstage] at hpl
  cases current with
  | activated profile => exact absurd rfl (hinactive profile)
  | captured profile | capturing token => exact hpl.1
  | _ => exact hpl

lemma Inv.switchGoes (h : Inv s) (hsw : s.switch = some switch) (succeeds rotated : Bool)
    (horderly : Orderly s (.switchGoes succeeds rotated)) :
    Inv (s.switchGoes switch succeeds rotated) := by
  have hstage := stage_of_switch hsw
  obtain ⟨current, observations⟩ := switch
  have hpl := h.placed
  unfold Placed at hpl
  simp only [Orderly, hstage] at horderly
  rw [hstage] at hpl
  have hnot {stage : SwitchStage} (hne : ∀ token, stage ≠ .loggingIn token := by nofun) :
      ∀ token, (some stage : Option SwitchStage) = some (.loggingIn token) → s.Written token :=
    fun token heq => absurd (some.inj heq) (hne token)
  cases current with
  | holding => exact h
  | capturing token | enrolling token =>
    obtain ⟨hcur, hkeeps⟩ := horderly
    exact h.of_credentials hcur rfl rfl rfl (.inl ⟨hkeeps, by rfl⟩) hnot hpl
  | captured profile =>
    exact h.of_read rfl rfl rfl (.inl rfl) hnot hpl.2.symm
  | loggingIn token =>
    simp only [Pool.switchGoes]
    split
    · rename_i hsucceeds
      exact h.of_live (horderly hsucceeds) (h.loggingIn token hstage) rfl rfl rfl
        (.inl rfl) hnot rfl
    · exact h.of_read rfl rfl rfl (.inl rfl) hnot hpl
  | activated profile =>
    exact h.of_read rfl rfl rfl (.inl rfl) hnot hpl.symm
  | refreshingActive profile =>
    simp only [Pool.switchGoes]
    split
    · exact h.of_read rfl rfl rfl (.inl rfl) hnot hpl
    · split
      · exact h.of_read rfl rfl rfl (.inl rfl) hnot hpl
      · exact h.of_read rfl rfl rfl (.inl rfl) hnot hpl
  | refreshingInactive token =>
    simp only [Pool.switchGoes]
    split
    · exact h.of_read rfl rfl rfl (.inl rfl) hnot hpl
    · exact h.of_read rfl rfl rfl (.inl rfl) hnot hpl
  | attached token =>
  simp only [Pool.switchGoes]
  split
  · exact h.of_read rfl rfl rfl (.inl rfl) hnot hpl
  · rename_i hfails
    obtain ⟨hcur, hkeeps⟩ := horderly (by simpa using hfails)
    exact h.of_credentials hcur rfl rfl rfl (.inl ⟨hkeeps, by rfl⟩) hnot hpl

/-- The holder of the lock begins something; tokens it has read are those of a file. -/
lemma Inv.begin (h : Inv s) {next : Pool → Option SwitchStage}
    (hloggingIn : ∀ token, next s = some (.loggingIn token) → s.Written token)
    (hpl : ∀ stage, next s = some stage → s.active = s.liveProfile →
      Placed { s with switch := some ⟨stage, []⟩ }) : Inv (s.begin next) := by
  unfold Pool.begin
  split
  · rename_i observations hsw
    have hplace := h.placed_of (stage_of_switch hsw) (fun _ => SwitchStage.noConfusion)
    split
    · rename_i stage hnext
      refine h.of_read rfl rfl rfl (.inl rfl) ?_ (hpl stage hnext hplace)
      intro token hstage
      refine hloggingIn token ?_
      rw [hnext]
      exact hstage
    · exact h
  · exact h

lemma written_of_credentials (h : Inv s) {profile : String} {token : Token}
    (htoken : s.credentialsOf profile = some token) : s.Written token := by
  unfold credentialsOf at htoken
  obtain ⟨version, hver, rfl⟩ := map_eq_some_iff.mp htoken
  rw [h.credentials profile] at hver
  exact ⟨version, hver, Nat.le_refl _⟩

end Switch

lemma Inv.step (s : Pool) (input : Input) (h : Inv s) (horderly : Orderly s input) :
    Inv (s.step input) := by
  unfold Pool.step
  cases input with
  | rotate profile =>
    simp only
    split
    · rename_i version hrota _
      refine h.of_read rfl rfl rfl (.inl ?_) h.loggingIn h.placed
      unfold Pool.rotated
      rw [hrota]
      rfl
    · exact h
  | rotationGoes answered =>
    simp only
    split
    · exact h
    · rename_i rotation hrota
      exact h.rotationGoes hrota answered horderly
  | lock =>
    simp only
    split
    · rename_i hsw
      refine h.of_read rfl rfl rfl (.inl rfl) ?_ ?_
      · exact fun token hstage => SwitchStage.noConfusion (some.inj hstage)
      have hpl := h.placed
      unfold Placed stage at hpl
      rw [hsw] at hpl
      exact hpl
    · exact h
  | capture =>
    refine h.begin ?_ ?_
    · intro token hnext
      obtain ⟨other, -, hstage⟩ := map_eq_some_iff.mp hnext
      exact SwitchStage.noConfusion hstage
    intro stage hnext hplace
    obtain ⟨token, hlive, rfl⟩ := map_eq_some_iff.mp hnext
    refine ⟨hplace, ?_⟩
    show s.live.map _ = _
    rw [hlive]
    rfl
  | activate profile =>
    refine h.begin ?_ ?_
    · intro token hnext
      split at hnext
      · obtain ⟨other, hread, hstage⟩ := map_eq_some_iff.mp hnext
        rw [← SwitchStage.loggingIn.inj hstage]
        exact written_of_credentials h hread
      · exact absurd hnext (some_ne_none _).symm
    intro stage hnext hplace
    split at hnext
    · obtain ⟨other, -, rfl⟩ := map_eq_some_iff.mp hnext
      exact hplace
    · exact absurd hnext (some_ne_none _).symm
  | refreshActive =>
    refine h.begin ?_ ?_
    · intro token hnext
      obtain ⟨other, -, hstage⟩ := map_eq_some_iff.mp hnext
      exact SwitchStage.noConfusion hstage
    · intro stage hnext hplace
      obtain ⟨other, -, rfl⟩ := map_eq_some_iff.mp hnext
      exact hplace
  | refreshInactive profile =>
    refine h.begin ?_ ?_
    · intro token hnext
      split at hnext
      · exact absurd hnext (some_ne_none _).symm
      · obtain ⟨other, -, hstage⟩ := map_eq_some_iff.mp hnext
        exact SwitchStage.noConfusion hstage
    intro stage hnext hplace
    split at hnext
    · exact absurd hnext (some_ne_none _).symm
    · obtain ⟨other, -, rfl⟩ := map_eq_some_iff.mp hnext
      exact hplace
  | enroll profile =>
    simp only
    split
    · rename_i observations hsw
      refine h.of_read rfl rfl rfl (.inl rfl) ?_
        (h.placed_of (stage_of_switch hsw) (fun _ => SwitchStage.noConfusion))
      exact fun token hstage => SwitchStage.noConfusion (some.inj hstage)
    · exact h
  | switchGoes succeeds rotated =>
    simp only
    split
    · exact h
    · rename_i switch hsw
      exact h.switchGoes hsw succeeds rotated horderly
  | commit =>
    simp only
    split
    · rename_i token rest hsw
      simp only [Orderly, hsw] at horderly
      refine h.of_credentials horderly.1 rfl rfl rfl (.inl ⟨horderly.2, by rfl⟩) ?_
        (h.placed_of (stage_of_switch hsw) (fun _ => SwitchStage.noConfusion))
      exact fun other hstage => SwitchStage.noConfusion (some.inj hstage)
    · exact h
  | unlock =>
  simp only
  split
  · rename_i observations hsw
    refine h.of_read rfl rfl rfl (.inl rfl) ?_
      (h.placed_of (stage_of_switch hsw) (fun _ => SwitchStage.noConfusion))
    exact fun token hstage => absurd hstage (some_ne_none _).symm
  · exact h

def single (profile : String) : Pool where
  credentials := fun other => if other = profile then some 0 else none
  live := some ⟨profile, 0⟩
  active := some profile
  rotation := none
  switch := none
  nextVersion := 1
  newest := fun other => if other = profile then some 0 else none

end Pool

end CodeWide.Accounts
