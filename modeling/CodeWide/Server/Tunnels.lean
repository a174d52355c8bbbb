import CodeWide.Lib.Run
import CodeWide.Lib.Saturating
import Mathlib

/-!
# Localhost tunnels

An admission checks the tunnel, takes the permit of the service and the limiter of the owner, and
then its permit.
-/

namespace CodeWide.Server.Tunnels

open Lib List Saturating Nat

def minTtlSeconds : Nat := 30

def maxTtlSeconds : Nat := 60 * 60

def defaultTtlSeconds : Nat := 300

structure TunnelLimits where
  globalTunnels : Nat
  ownerTunnels : Nat
  globalActive : Nat
  ownerActive : Nat

def TunnelLimits.default : TunnelLimits := ⟨256, 16, 128, 16⟩

structure Tunnel where
  id : String
  port : Nat
  expiresAt : Nat
  signal : Nat
  ownerDeviceId : Option String
deriving DecidableEq

def Tunnel.ownerKey (tunnel : Tunnel) : String := tunnel.ownerDeviceId.getD "local-admin"

/-- How far an admission has come; the permits are held in all but the first and the last. -/
inductive Stage where
  | checked
  | counted
  | limited (limiter : Nat)
  | running (limiter : Nat)
  | ended
deriving DecidableEq

structure Transfer where
  tunnel : Tunnel
  stage : Stage

structure Service where
  now : Nat
  next : Nat
  tunnels : List Tunnel
  revoked : List Nat
  -- removed from the registry, not signalled yet
  removed : List Nat
  handles : List Tunnel
  limiters : String → Option Nat
  globalUsed : Nat
  ownerUsed : Nat → Nat
  transfers : List Transfer
  -- the owners that the purges in progress have read
  purges : List (List String)

def Service.empty : Service := ⟨0, 0, [], [], [], [], fun _ => none, 0, fun _ => 0, [], []⟩

inductive Action where
  | tick (elapsed : Nat)
  | create (port : Nat) (ttlSeconds : Option Nat) (ownerDeviceId : Option String) (id : String)
  | revoke (id : String)
  | revokeDeviceTunnels (deviceId : String)
  | revokeAllTunnels
  | signal (number : Nat)
  | purgeTunnels
  | purgeLimiters (purge : Nat)
  | tunnel (id : String)
  | check (handle : Nat)
  | advance (transfer : Nat)
  | cancel (transfer : Nat)

namespace Service

variable (limits : TunnelLimits) (s : Service)

def alive (tunnel : Tunnel) : Bool :=
  decide (s.now < tunnel.expiresAt) && decide (tunnel.signal ∉ s.revoked)

def purgeExpiredLocked : Service :=
  { s with
    tunnels := s.tunnels.filter s.alive
    revoked := (s.tunnels.filter fun tunnel => !s.alive tunnel).map Tunnel.signal ++ s.revoked }

def createForDevice (port : Nat) (ttlSeconds : Option Nat) (ownerDeviceId : Option String)
    (id : String) : Service :=
  let ttlSeconds := ttlSeconds.getD defaultTtlSeconds
  if port = 0 ∨ 2 ^ 16 ≤ port ∨ ttlSeconds < minTtlSeconds ∨ maxTtlSeconds < ttlSeconds then s
  else
    let tunnel : Tunnel :=
      ⟨id, port, add64 s.now (min (ttlSeconds * 1000) max64), s.next, ownerDeviceId⟩
    let purged := { s with next := s.next + 1 }.purgeExpiredLocked
    if limits.globalTunnels ≤ purged.tunnels.length ∨
        limits.ownerTunnels ≤ purged.tunnels.countP (·.ownerKey = tunnel.ownerKey) then purged
    else { purged with tunnels := tunnel :: purged.tunnels.filter (·.id ≠ id) }

@[simp] def setStage (k : Nat) (transfer : Transfer) (stage : Stage) : Service :=
  { s with transfers := s.transfers.set k { transfer with stage } }

def advance (k : Nat) (transfer : Transfer) : Service :=
  match transfer.stage with
  | .checked =>
    if s.globalUsed < limits.globalActive then
      { s with globalUsed := s.globalUsed + 1 }.setStage k transfer .counted
    else s.setStage k transfer .ended
  | .counted =>
    match s.limiters transfer.tunnel.ownerKey with
    | some limiter => s.setStage k transfer (.limited limiter)
    | none =>
      { s with
        next := s.next + 1
        limiters := Function.update s.limiters transfer.tunnel.ownerKey (some s.next) }.setStage k
          transfer (.limited s.next)
  | .limited limiter =>
    if s.ownerUsed limiter < limits.ownerActive then
      { s with ownerUsed := Function.update s.ownerUsed limiter (s.ownerUsed limiter + 1) }.setStage k
        transfer (.running limiter)
    else { s with globalUsed := s.globalUsed - 1 }.setStage k transfer .ended
  | .running limiter =>
    { s with
      globalUsed := s.globalUsed - 1
      ownerUsed := Function.update s.ownerUsed limiter (s.ownerUsed limiter - 1) }.setStage k
        transfer .ended
  | .ended => s

def keeps (owners : List String) (owner : String) (limiter : Nat) : Bool :=
  decide (owner ∈ owners) || decide (limits.ownerActive - s.ownerUsed limiter < limits.ownerActive)

def step (s : Service) : Action → Service
  | .tick elapsed => { s with now := s.now + elapsed }
  | .create port ttlSeconds ownerDeviceId id =>
    s.createForDevice limits port ttlSeconds ownerDeviceId id
  | .revoke id =>
    { s with
      tunnels := s.tunnels.filter (·.id ≠ id)
      removed := (s.tunnels.filter (·.id = id)).map Tunnel.signal ++ s.removed }
  | .revokeDeviceTunnels deviceId =>
    { s with
      tunnels := s.tunnels.filter (·.ownerDeviceId ≠ some deviceId)
      revoked := (s.tunnels.filter (·.ownerDeviceId = some deviceId)).map Tunnel.signal ++ s.revoked }
  | .revokeAllTunnels =>
    { s with tunnels := [], removed := s.tunnels.map Tunnel.signal ++ s.removed }
  | .signal number =>
    if number ∈ s.removed then
      { s with revoked := number :: s.revoked, removed := s.removed.erase number }
    else s
  | .purgeTunnels =>
    let purged := s.purgeExpiredLocked
    { purged with purges := purged.purges ++ [purged.tunnels.map Tunnel.ownerKey] }
  | .purgeLimiters purge =>
    match s.purges[purge]? with
    | none => s
    | some owners =>
      { s with
        purges := s.purges.eraseIdx purge
        limiters := fun owner => (s.limiters owner).filter (s.keeps limits owners owner) }
  | .tunnel id => { s with handles := s.handles ++ (s.tunnels.filter (·.id = id)).take 1 }
  | .check handle =>
    match s.handles[handle]? with
    | none => s
    | some tunnel =>
      if tunnel.expiresAt ≤ s.now ∨ tunnel.signal ∈ s.revoked then s
      else { s with transfers := s.transfers ++ [⟨tunnel, .checked⟩] }
  | .advance k =>
    match s.transfers[k]? with
    | none => s
    | some transfer => s.advance limits k transfer
  | .cancel k =>
    -- the only point at which a caller that goes away ends an admission is the lock
    match s.transfers[k]? with
    | some transfer =>
      if transfer.stage = .counted then
        { s with globalUsed := s.globalUsed - 1 }.setStage k transfer .ended
      else s
    | none => s

end Service

/-! ## Limits -/

@[simp] def Transfer.holdsGlobal (transfer : Transfer) : Bool :=
  decide (transfer.stage ≠ .checked ∧ transfer.stage ≠ .ended)

@[simp] def Transfer.holdsOwner (limiter : Nat) (transfer : Transfer) : Bool :=
  decide (transfer.stage = .running limiter)

def Transfer.isRunning (transfer : Transfer) : Bool :=
  match transfer.stage with
  | .running _ => true
  | _ => false

structure Within (limits : TunnelLimits) (s : Service) : Prop where
  tunnels : s.tunnels.length ≤ limits.globalTunnels
  ownerTunnels : ∀ owner, s.tunnels.countP (·.ownerKey = owner) ≤ limits.ownerTunnels
  active : s.transfers.countP Transfer.isRunning ≤ limits.globalActive
  ownerActive : ∀ owner, s.transfers.countP (fun transfer =>
    transfer.isRunning && decide (transfer.tunnel.ownerKey = owner)) ≤ limits.ownerActive
  globalPermits : s.globalUsed = s.transfers.countP Transfer.holdsGlobal
  ownerPermits : ∀ limiter, s.ownerUsed limiter = s.transfers.countP (Transfer.holdsOwner limiter)

/-- No limiter is removed that an admission has taken and holds no permit of yet. -/
def Careful (limits : TunnelLimits) (s : Service) : Action → Prop
  | .purgeLimiters purge => ∀ owners, s.purges[purge]? = some owners → ∀ transfer ∈ s.transfers,
      ∀ limiter, transfer.stage = .limited limiter →
        s.keeps limits owners transfer.tunnel.ownerKey limiter = true
  | _ => True

def Dead (s : Service) (tunnel : Tunnel) : Prop :=
  tunnel.expiresAt ≤ s.now ∨ tunnel.signal ∈ s.revoked

structure Registered (limits : TunnelLimits) (s : Service) : Prop where
  tunnels : s.tunnels.length ≤ limits.globalTunnels
  ownerTunnels : ∀ owner, s.tunnels.countP (·.ownerKey = owner) ≤ limits.ownerTunnels

structure Permitted (limits : TunnelLimits) (s : Service) : Prop where
  globalPermits : s.globalUsed = s.transfers.countP Transfer.holdsGlobal
  globalActive : s.globalUsed ≤ limits.globalActive
  ownerPermits : ∀ limiter, s.ownerUsed limiter = s.transfers.countP (Transfer.holdsOwner limiter)
  ownerActive : ∀ limiter, s.ownerUsed limiter ≤ limits.ownerActive

/-- An owner's admissions and transfers share the limiter that is registered for it. -/
def Placed (s : Service) : Prop :=
  ∀ transfer ∈ s.transfers, ∀ limiter,
    transfer.stage = .limited limiter ∨ transfer.stage = .running limiter →
      s.limiters transfer.tunnel.ownerKey = some limiter

variable {limits : TunnelLimits} {s : Service} {t : Service}

lemma Registered.sublist (h : Registered limits s) {tunnels : List Tunnel}
    (hsub : tunnels.Sublist s.tunnels) (ht : t.tunnels = tunnels) :
    Registered limits t where
  tunnels := ht ▸ hsub.length_le.trans h.tunnels
  ownerTunnels owner := ht ▸ (hsub.countP_le).trans (h.ownerTunnels owner)

lemma Registered.createForDevice (h : Registered limits s) (port : Nat) (ttl : Option Nat)
    (device : Option String) (id : String) :
    Registered limits (s.createForDevice limits port ttl device id) := by
  unfold Service.createForDevice
  dsimp only
  split
  · exact h
  have hpurged : Registered limits { s with next := s.next + 1 }.purgeExpiredLocked :=
    h.sublist filter_sublist rfl
  split
  · exact hpurged
  next hroom =>
  rw [not_or, not_le, not_le] at hroom
  refine ⟨le_trans (succ_le_succ (length_filter_le _ _)) hroom.1, fun owner => ?_⟩
  have hle : (filter (·.id ≠ id) { s with next := s.next + 1 }.purgeExpiredLocked.tunnels).countP
      (·.ownerKey = owner) ≤ _ := filter_sublist.countP_le
  have howner := hpurged.ownerTunnels owner
  rw [countP_cons]
  split
  · next hsame =>
    rw [decide_eq_true_eq] at hsame
    rw [← hsame] at hle howner ⊢
    omega
  · omega

variable {k : Nat} {transfer : Transfer}

lemma countP_setStage (hget : s.transfers[k]? = some transfer)
    (stage : Stage) (p : Transfer → Bool) :
    (s.transfers.set k { transfer with stage }).countP p + (if p transfer then 1 else 0) =
      s.transfers.countP p + if p { transfer with stage } then 1 else 0 := by
  obtain ⟨hlt, rfl⟩ := List.getElem?_eq_some_iff.mp hget
  rw [countP_set hlt]
  have hpos : p s.transfers[k] = true → 0 < s.transfers.countP p := fun hp =>
    countP_pos_iff.mpr ⟨_, getElem_mem hlt, hp⟩
  split <;> split <;> simp_all

lemma Permitted.setStage (h : Permitted limits s)
    (hget : s.transfers[k]? = some transfer) (stage : Stage)
    (ht : t.transfers = s.transfers.set k { transfer with stage })
    (hglobal : t.globalUsed + (if transfer.holdsGlobal then 1 else 0) =
      s.globalUsed + if Transfer.holdsGlobal { transfer with stage } then 1 else 0)
    (howner : ∀ limiter, t.ownerUsed limiter + (if transfer.holdsOwner limiter then 1 else 0) =
      s.ownerUsed limiter + if Transfer.holdsOwner limiter { transfer with stage } then 1 else 0)
    (hact : t.globalUsed ≤ limits.globalActive)
    (hact' : ∀ limiter, t.ownerUsed limiter ≤ limits.ownerActive) : Permitted limits t where
  globalPermits := by
    have hcount := countP_setStage hget stage Transfer.holdsGlobal
    have hbef := h.globalPermits
    rw [ht]
    omega
  globalActive := hact
  ownerPermits limiter := by
    have hcount := countP_setStage hget stage (Transfer.holdsOwner limiter)
    have hbef := h.ownerPermits limiter
    have hafter := howner limiter
    rw [ht]
    omega
  ownerActive := hact'

lemma Permitted.used_pos (h : Permitted limits s) {limiter : Nat}
    (hmem : transfer ∈ s.transfers) (hstage : transfer.stage = .running limiter) :
    0 < s.ownerUsed limiter := by
  rw [h.ownerPermits, countP_pos_iff]
  exact ⟨transfer, hmem, decide_eq_true hstage⟩

lemma Permitted.global_pos (h : Permitted limits s)
    (hmem : transfer ∈ s.transfers) (hholds : transfer.holdsGlobal = true) : 0 < s.globalUsed := by
  rw [h.globalPermits, countP_pos_iff]
  exact ⟨transfer, hmem, hholds⟩

lemma Permitted.advance (h : Permitted limits s)
    (hget : s.transfers[k]? = some transfer) : Permitted limits (s.advance limits k transfer) := by
  have hmem := List.mem_of_getElem? hget
  have hact := h.globalActive
  unfold Service.advance
  cases hstage : transfer.stage with
  | checked =>
    dsimp only
    split
    · refine h.setStage hget .counted rfl ?_ (fun _ => ?_) ‹_› h.ownerActive <;> simp [hstage]
    · refine h.setStage hget .ended rfl ?_ (fun _ => ?_) hact h.ownerActive <;> simp [hstage]
  | counted =>
    dsimp only
    split
    · refine h.setStage hget (.limited _) rfl ?_ (fun _ => ?_) hact h.ownerActive <;> simp [hstage]
    · refine h.setStage hget (.limited _) rfl ?_ (fun _ => ?_) hact h.ownerActive <;> simp [hstage]
  | limited limiter =>
    have hpos := h.global_pos hmem (by simp [hstage])
    dsimp only
    split
    · next hroom =>
      refine h.setStage hget (.running limiter) rfl ?_ (fun other => ?_) hact fun other => ?_
      · simp [hstage]
      · by_cases heq : other = limiter
        · simp [hstage, heq]
        · simp [hstage, heq, Ne.symm heq]
      · by_cases heq : other = limiter
        · simpa [heq] using hroom
        · simpa [heq] using h.ownerActive other
    refine h.setStage hget .ended rfl ?_ (fun _ => ?_) ((sub_le _ _).trans hact) h.ownerActive
    · simp [hstage]
      omega
    · simp [hstage]
  | running limiter =>
    have hpos := h.global_pos hmem (by simp [hstage])
    have hused := h.used_pos hmem hstage
    refine h.setStage hget .ended rfl ?_ (fun other => ?_) ((sub_le _ _).trans hact) fun other => ?_
    · simp [hstage]
      omega
    · by_cases heq : other = limiter
      · simp [hstage, heq]
        omega
      · simp [hstage, heq, Ne.symm heq]
    · by_cases heq : other = limiter
      · simpa [heq] using (sub_le _ _).trans (h.ownerActive limiter)
      · simpa [heq] using h.ownerActive other
  | ended => exact h

lemma Permitted.congr (h : Permitted limits s) (hglobal : t.globalUsed = s.globalUsed)
    (howner : t.ownerUsed = s.ownerUsed) (htransfers : t.transfers = s.transfers) :
    Permitted limits t :=
  ⟨by rw [hglobal, htransfers, h.globalPermits], hglobal ▸ h.globalActive,
    by rw [howner, htransfers]; exact h.ownerPermits, howner ▸ h.ownerActive⟩

lemma Permitted.step (h : Permitted limits s) (action : Action) :
    Permitted limits (s.step limits action) := by
  cases action with
  | create port ttl device id =>
    unfold Service.step Service.createForDevice
    dsimp only
    split
    · exact h
    · split <;> exact h.congr rfl rfl rfl
  | tick | revoke | revokeDeviceTunnels | revokeAllTunnels | purgeTunnels | tunnel =>
    exact h.congr rfl rfl rfl
  | signal number =>
    simp only [Service.step]
    split <;> exact h.congr rfl rfl rfl
  | purgeLimiters purge =>
    simp only [Service.step]
    split <;> exact h.congr rfl rfl rfl
  | check handle =>
    simp only [Service.step]
    split
    · exact h
    split
    · exact h
    · refine ⟨?_, h.globalActive, fun limiter => ?_, h.ownerActive⟩
      · simpa [countP_append] using h.globalPermits
      · simpa [countP_append] using h.ownerPermits limiter
  | advance k =>
    simp only [Service.step]
    split
    · exact h
    · next transfer hget => exact h.advance hget
  | cancel k =>
  simp only [Service.step]
  split
  · next transfer hget =>
    split
    · next hstage =>
      have hpos := h.global_pos (List.mem_of_getElem? hget) (by simp [hstage])
      refine h.setStage hget .ended rfl ?_ (fun _ => ?_)
        ((sub_le _ _).trans h.globalActive) h.ownerActive
      · simp [hstage]
        omega
      · simp [hstage]
    · exact h
  · exact h

lemma Registered.step (h : Registered limits s) (action : Action) :
    Registered limits (s.step limits action) := by
  cases action with
  | create port ttl device id => exact h.createForDevice port ttl device id
  | revoke | revokeDeviceTunnels | purgeTunnels => exact h.sublist filter_sublist rfl
  | revokeAllTunnels => exact h.sublist (nil_sublist _) rfl
  | tick | tunnel => exact h.sublist (.refl _) rfl
  | signal | purgeLimiters | check =>
    simp only [Service.step]
    repeat' split
    all_goals exact h.sublist (.refl _) rfl
  | advance | cancel =>
  simp only [Service.step, Service.advance]
  repeat' split
  all_goals exact h.sublist (.refl _) rfl

lemma Placed.setStage (h : Placed s) {stage : Stage}
    (ht : t.transfers = s.transfers.set k { transfer with stage })
    (hkept : ∀ owner limiter, s.limiters owner = some limiter → t.limiters owner = some limiter)
    (hstage : ∀ limiter, stage = .limited limiter ∨ stage = .running limiter →
      t.limiters transfer.tunnel.ownerKey = some limiter) : Placed t := by
  intro other hmem limiter hholds
  rw [ht] at hmem
  rcases mem_or_eq_of_mem_set hmem with hmem | rfl
  · exact hkept _ _ (h other hmem limiter hholds)
  · exact hstage limiter hholds

lemma Placed.advance (h : Placed s)
    (hget : s.transfers[k]? = some transfer) : Placed (s.advance limits k transfer) := by
  have hpl := h transfer (List.mem_of_getElem? hget)
  unfold Service.advance
  cases hstage : transfer.stage with
  | checked =>
    dsimp only
    split <;> exact h.setStage rfl (fun _ _ h => h) (by simp)
  | counted =>
    dsimp only
    split
    · next limiter hlimiter =>
      refine h.setStage rfl (fun _ _ h => h) fun other hother => ?_
      rcases hother with hother | hother <;> cases hother
      exact hlimiter
    next hnone =>
    refine h.setStage rfl (fun owner limiter hlimiter => ?_) fun other hother => ?_
    · have hne : owner ≠ transfer.tunnel.ownerKey := by
        rintro rfl
        rw [hnone] at hlimiter
        cases hlimiter
      exact (Function.update_of_ne hne _ _).trans hlimiter
    · rcases hother with hother | hother <;> cases hother
      exact Function.update_self _ _ _
  | limited limiter =>
    dsimp only
    split
    · refine h.setStage rfl (fun _ _ h => h) fun other hother => ?_
      rcases hother with hother | hother <;> cases hother
      exact hpl limiter (.inl hstage)
    · exact h.setStage rfl (fun _ _ h => h) (by simp)
  | running limiter => exact h.setStage rfl (fun _ _ h => h) (by simp)
  | ended => exact h

lemma Placed.step (h : Placed s) (hperm : Permitted limits s) {action : Action}
    (hcareful : Careful limits s action) : Placed (s.step limits action) := by
  cases action with
  | create port ttl device id =>
    unfold Service.step Service.createForDevice
    dsimp only
    split
    · exact h
    · split <;> exact h
  | tick | revoke | revokeDeviceTunnels | revokeAllTunnels | purgeTunnels | tunnel => exact h
  | signal number =>
    simp only [Service.step]
    split <;> exact h
  | purgeLimiters purge =>
    simp only [Service.step]
    split
    · exact h
    next owners hget =>
    intro transfer hmem limiter hholds
    refine Option.filter_eq_some_iff.mpr ⟨h transfer hmem limiter hholds, ?_⟩
    rcases hholds with hlimited | hrun
    · exact hcareful owners hget transfer hmem limiter hlimited
    have hused := hperm.used_pos hmem hrun
    have hact := hperm.ownerActive limiter
    simp only [Service.keeps, Bool.or_eq_true, decide_eq_true_eq]
    omega
  | check handle =>
    simp only [Service.step]
    split
    · exact h
    split
    · exact h
    intro transfer hmem limiter hholds
    rcases mem_append.mp hmem with hmem | hmem
    · exact h transfer hmem limiter hholds
    · rw [mem_singleton] at hmem
      subst hmem
      rcases hholds with hholds | hholds <;> cases hholds
  | advance k =>
    simp only [Service.step]
    split
    · exact h
    · next transfer hget => exact h.advance hget
  | cancel k =>
  simp only [Service.step]
  split
  · split
    · exact h.setStage rfl (fun _ _ h => h) (by simp)
    · exact h
  · exact h

lemma Transfer.exists_limiter (h : transfer.isRunning = true) :
    ∃ limiter, transfer.stage = .running limiter := by
  unfold Transfer.isRunning at h
  split at h
  · next limiter hstage => exact ⟨limiter, hstage⟩
  · cases h

lemma Placed.owner_le (h : Placed s) (hperm : Permitted limits s) (owner : String) :
    s.transfers.countP (fun transfer =>
      transfer.isRunning && decide (transfer.tunnel.ownerKey = owner)) ≤ limits.ownerActive := by
  have hreg : ∀ transfer ∈ s.transfers, transfer.isRunning = true →
      transfer.tunnel.ownerKey = owner → ∃ limiter, s.limiters owner = some limiter ∧
        transfer.holdsOwner limiter = true := by
    intro transfer hmem hrun howner
    obtain ⟨limiter, hstage⟩ := Transfer.exists_limiter hrun
    exact ⟨limiter, howner ▸ h transfer hmem limiter (.inr hstage), decide_eq_true hstage⟩
  cases hlimiter : s.limiters owner with
  | none =>
    refine (countP_eq_zero.mpr fun transfer hmem hcoun => ?_).le.trans (zero_le _)
    rw [Bool.and_eq_true, decide_eq_true_eq] at hcoun
    obtain ⟨limiter, hsome, -⟩ := hreg transfer hmem hcoun.1 hcoun.2
    rw [hlimiter] at hsome
    cases hsome
  | some limiter =>
  refine (countP_mono_left fun transfer hmem hcoun => ?_).trans
    ((hperm.ownerPermits limiter).symm.le.trans (hperm.ownerActive limiter))
  rw [Bool.and_eq_true, decide_eq_true_eq] at hcoun
  obtain ⟨other, hsome, hholds⟩ := hreg transfer hmem hcoun.1 hcoun.2
  rw [hlimiter] at hsome
  cases hsome
  exact hholds

lemma Permitted.active_le (h : Permitted limits s) :
    s.transfers.countP Transfer.isRunning ≤ limits.globalActive := by
  refine (countP_mono_left fun transfer _ hrun => ?_).trans
    (h.globalPermits.symm.le.trans h.globalActive)
  obtain ⟨limiter, hstage⟩ := Transfer.exists_limiter hrun
  simp [hstage]

lemma Dead.step {tunnel : Tunnel} (h : Dead s tunnel) (action : Action) :
    Dead (s.step limits action) tunnel := by
  have hgrows : s.now ≤ (s.step limits action).now ∧ s.revoked ⊆ (s.step limits action).revoked := by
    cases action with
    | tick elapsed => exact ⟨le_add_right _ _, Subset.refl _⟩
    | create port ttl device id =>
      unfold Service.step Service.createForDevice
      dsimp only
      split
      · exact ⟨le_refl _, Subset.refl _⟩
      · split <;> exact ⟨le_refl _, subset_append_right _ _⟩
    | revoke | revokeAllTunnels | tunnel => exact ⟨le_refl _, Subset.refl _⟩
    | revokeDeviceTunnels | purgeTunnels => exact ⟨le_refl _, subset_append_right _ _⟩
    | signal number =>
      simp only [Service.step]
      split
      · exact ⟨le_refl _, subset_cons_self _ _⟩
      · exact ⟨le_refl _, Subset.refl _⟩
    | purgeLimiters | check | advance | cancel =>
    simp only [Service.step, Service.advance]
    repeat' split
    all_goals exact ⟨le_refl _, Subset.refl _⟩
  exact h.imp (fun hexpired => hexpired.trans hgrows.1) fun hrevoked => hgrows.2 hrevoked

/-- While no limiter is removed during an admission the limits hold and no dead tunnel is admitted.
-/
theorem tunnel_limits_of_careful (limits : TunnelLimits) (actions : List Action)
    (hcareful : Always (Service.step limits) (Careful limits) .empty actions) :
    Within limits (exec (Service.step limits) .empty actions) ∧
    ∀ front back tunnel handle, actions = front ++ back →
      Dead (exec (Service.step limits) .empty front) tunnel →
      (exec (Service.step limits) .empty actions).handles[handle]? = some tunnel →
      (exec (Service.step limits) .empty actions).step limits (.check handle) =
        exec (Service.step limits) .empty actions := by
  constructor
  · have hstart : Registered limits .empty ∧ Permitted limits .empty ∧ Placed .empty :=
      ⟨⟨zero_le _, fun _ => zero_le _⟩, ⟨rfl, zero_le _, fun _ => rfl,
        fun _ => zero_le _⟩, nofun⟩
    obtain ⟨hreg, hperm, hpl⟩ := exec_invariant_of_always
      (P := fun s => Registered limits s ∧ Permitted limits s ∧ Placed s)
      (fun s action h hmeets => ⟨h.1.step action, h.2.1.step action, h.2.2.step h.2.1 hmeets⟩)
      hstart hcareful
    exact ⟨hreg.tunnels, hreg.ownerTunnels, hperm.active_le,
      hpl.owner_le hperm, hperm.globalPermits, hperm.ownerPermits⟩
  rintro front back tunnel handle rfl hdead hhandle
  have hlater : Dead (exec (Service.step limits) .empty (front ++ back)) tunnel := by
    rw [exec_append]
    exact exec_invariant (P := fun s => Dead s tunnel) (fun _ action h => h.step action) hdead back
  simp only [Service.step, hhandle]
  exact if_pos hlater

def oneTransfer : List Action :=
  [.create 3000 none (some "phone") "a", .tunnel "a", .check 0, .advance 0, .advance 0, .advance 0,
    .purgeTunnels, .advance 0]

theorem tunnel_limits_of_oneTransfer :
    Within .default (exec (Service.step .default) .empty oneTransfer) :=
  (tunnel_limits_of_careful .default oneTransfer (by simp [oneTransfer, Always, Careful])).1

/-- Sixteen transfers of the next tunnel of the owner get another limiter before the admission goes
on. -/
def overbooked : List Action :=
  [Action.create 3000 none (some "phone") "a", .tunnel "a", .check 0, .advance 0, .advance 0,
    .tick 300000, .purgeTunnels, .purgeLimiters 0, .create 3000 none (some "phone") "b",
    .tunnel "b"] ++
    (range 16).flatMap (fun k =>
      [Action.check 1, .advance (k + 1), .advance (k + 1), .advance (k + 1)]) ++ [Action.advance 0]

theorem owner_overbooked :
    ¬ Within .default (exec (Service.step .default) .empty overbooked) := by
  intro h
  have hphone := h.ownerActive "phone"
  revert hphone
  decide +kernel

end CodeWide.Server.Tunnels
