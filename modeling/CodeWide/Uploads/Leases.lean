import Mathlib.Data.String.Basic
import CodeWide.Uploads.Staging

/-!
# What the leases of the upload store keep

A lease stays alone on its path if none is admitted while an earlier request is still closing on it.
-/

namespace CodeWide.Uploads

open Lib List Table Option Staging UploadRecord

variable {κ : Type} [LinearOrder κ]

/-! ## Quotas -/

def UploadRecord.owned (owner : String) (record : UploadRecord) : Nat :=
  if record.owner = owner then 1 else 0

def UploadRecord.ownedBytes (owner : String) (record : UploadRecord) : Nat :=
  if record.owner = owner then record.totalBytes else 0

def UploadRecord.counted (_ : UploadRecord) : Nat := 1

structure WithinQuota (limits : UploadLimits) (records : Table κ UploadRecord) : Prop where
  ownerCount : ∀ owner, records.sum (UploadRecord.owned owner) ≤ limits.ownerCount
  ownerBytes : ∀ owner, records.sum (UploadRecord.ownedBytes owner) ≤ limits.ownerBytes
  globalCount : records.sum UploadRecord.counted ≤ limits.globalCount
  globalBytes : records.sum UploadRecord.totalBytes ≤ limits.globalBytes

lemma checkedAdd_eq {a b c : Nat} (h : checkedAdd a b = some c) : c = a + b := by
  unfold checkedAdd at h
  split at h
  · exact (some.inj h).symm
  · cases h

variable {owner : String}

lemma addUsage_spec {usage after : Usage} {record : UploadRecord}
    (h : addUsage owner usage record = some after) :
    after.ownerCount = usage.ownerCount + record.owned owner ∧
      after.ownerBytes = usage.ownerBytes + record.ownedBytes owner ∧
      after.globalCount = usage.globalCount + record.counted ∧
      after.globalBytes = usage.globalBytes + record.totalBytes := by
  unfold addUsage at h
  obtain ⟨count, hcount, h⟩ := bind_eq_some_iff.mp h
  obtain ⟨bytes, hbytes, h⟩ := bind_eq_some_iff.mp h
  have hcount := checkedAdd_eq hcount
  have hbytes := checkedAdd_eq hbytes
  by_cases howner : record.owner = owner
  · rw [if_pos howner] at h
    obtain ⟨ownerCount, hown, h⟩ := bind_eq_some_iff.mp h
    obtain ⟨ownerBytes, hownBytes, h⟩ := bind_eq_some_iff.mp h
    have hown := checkedAdd_eq hown
    have hownBytes := checkedAdd_eq hownBytes
    cases h
    simp [owned, ownedBytes, counted, howner, hcount, hbytes, hown, hownBytes]
  · rw [if_neg howner] at h
    cases h
    simp [owned, ownedBytes, counted, howner, hcount, hbytes]

omit [LinearOrder κ] in
lemma foldlM_addUsage {entries : List (κ × UploadRecord)} {usage after : Usage}
    (h : entries.foldlM (fun usage entry => addUsage owner usage entry.2) usage = some after) :
    after.ownerCount = usage.ownerCount + (entries.map (fun e => e.2.owned owner)).sum ∧
      after.ownerBytes = usage.ownerBytes + (entries.map (fun e => e.2.ownedBytes owner)).sum ∧
      after.globalCount = usage.globalCount + (entries.map (fun e => e.2.counted)).sum ∧
      after.globalBytes = usage.globalBytes + (entries.map (fun e => e.2.totalBytes)).sum := by
  induction entries generalizing usage with
  | nil =>
    cases h
    simp
  | cons entry entries ih =>
  rw [foldlM_cons] at h
  obtain ⟨next, hnext, h⟩ := bind_eq_some_iff.mp h
  obtain ⟨hc, hb, hgc, hgb⟩ := addUsage_spec hnext
  obtain ⟨hc', hb', hgc', hgb'⟩ := ih h
  simp only [map_cons, sum_cons]
  omega

lemma enforceQuota_spec {records : Table κ UploadRecord} {bytes : Nat}
    {limits : UploadLimits} (h : enforceQuota records owner bytes limits = true) :
    records.sum (UploadRecord.owned owner) + 1 ≤ limits.ownerCount ∧
      records.sum (UploadRecord.ownedBytes owner) + bytes ≤ limits.ownerBytes ∧
      records.sum UploadRecord.counted + 1 ≤ limits.globalCount ∧
      records.sum UploadRecord.totalBytes + bytes ≤ limits.globalBytes := by
  unfold enforceQuota at h
  simp only at h
  split at h
  · rename_i after hafter
    obtain ⟨hc, hb, hgc, hgb⟩ := foldlM_addUsage hafter
    simp only [Bool.and_eq_true, decide_eq_true_eq] at h
    unfold Table.sum
    simp only at hc hb hgc hgb
    omega
  · cases h

/-! ## Records and their owners -/

def UploadRecord.idle (r : UploadRecord) : UploadRecord := { r with active := false }

/-- A record that stays keeps its owner, its upload and its reservation. -/
def SameUpload (r r' : UploadRecord) : Prop := r.idle = r'.idle

lemma SameUpload.refl (r : UploadRecord) : SameUpload r r := rfl

structure RecordsKept (limits : UploadLimits) (before after : Table κ UploadRecord) : Prop where
  same : ∀ key r r', before.get? key = some r → after.get? key = some r' → SameUpload r r'
  quota : WithinQuota limits before → WithinQuota limits after

lemma WithinQuota.of_le {limits : UploadLimits} {before after : Table κ UploadRecord}
    (h : WithinQuota limits before)
    (hle : ∀ f : UploadRecord → Nat, (∀ r r', SameUpload r r' → f r = f r') →
      after.sum f ≤ before.sum f) : WithinQuota limits after := by
  have hsame : ∀ r r', SameUpload r r' → r.owner = r'.owner ∧ r.totalBytes = r'.totalBytes := by
    intro r r' hrr
    have howner : r.idle.owner = r'.idle.owner := congrArg owner hrr
    have hbytes : r.idle.totalBytes = r'.idle.totalBytes := congrArg totalBytes hrr
    exact ⟨howner, hbytes⟩
  constructor
  · intro owner
    refine Nat.le_trans (hle _ fun r r' hrr => ?_) (h.ownerCount owner)
    unfold owned
    rw [(hsame r r' hrr).1]
  · intro owner
    refine Nat.le_trans (hle _ fun r r' hrr => ?_) (h.ownerBytes owner)
    unfold ownedBytes
    rw [(hsame r r' hrr).1, (hsame r r' hrr).2]
  · exact Nat.le_trans (hle _ fun r r' _ => rfl) h.globalCount
  · exact Nat.le_trans (hle _ fun r r' hrr => (hsame r r' hrr).2) h.globalBytes

section Records

variable {limits : UploadLimits} {records : Table κ UploadRecord}

lemma RecordsKept.refl : RecordsKept limits records records := by
  refine ⟨fun key r r' hr hr' => ?_, id⟩
  rw [hr] at hr'
  cases hr'
  exact SameUpload.refl r

lemma RecordsKept.erase (key : κ) : RecordsKept limits records (records.erase key) := by
  refine ⟨fun key' r r' hr hr' => ?_, fun h => h.of_le fun f _ => ?_⟩
  · obtain ⟨-, hr'⟩ := of_get?_erase hr'
    rw [hr] at hr'
    cases hr'
    exact SameUpload.refl r
  · have hsum := sum_erase records key f
    omega

variable {record : UploadRecord}

lemma RecordsKept.setActive {key : κ} (hget : records.get? key = some record) (active : Bool) :
    RecordsKept limits records (records.insert key { record with active := active }) := by
  refine ⟨fun key' r r' hr hr' => ?_, fun h => h.of_le fun f hf => ?_⟩
  · rw [get?_insert] at hr'
    split at hr'
    · rename_i heq
      subst heq
      rw [hget] at hr
      cases hr
      cases hr'
      rfl
    · rw [hr] at hr'
      cases hr'
      exact SameUpload.refl r
  have hsum := sum_insert records key { record with active := active } f
  rw [hget, map_some, getD_some] at hsum
  have hsame : f record = f { record with active := active } := hf _ _ rfl
  omega

lemma RecordsKept.insert {key : κ} (hget : records.get? key = none)
    (hquota : enforceQuota records record.owner record.totalBytes limits = true) :
    RecordsKept limits records (records.insert key record) := by
  refine ⟨fun key' r r' hr hr' => ?_, fun h => ?_⟩
  · rcases of_get?_insert hr' with ⟨rfl, -⟩ | ⟨-, hr'⟩
    · rw [hget] at hr
      cases hr
    · rw [hr] at hr'
      cases hr'
      exact SameUpload.refl r
  obtain ⟨hc, hb, hgc, hgb⟩ := enforceQuota_spec hquota
  have hsum : ∀ f : UploadRecord → Nat,
      (records.insert key record).sum f = records.sum f + f record := by
    intro f
    have := sum_insert records key record f
    rwa [hget] at this
  constructor
  · intro owner
    rw [hsum]
    by_cases howner : record.owner = owner
    · subst howner
      simpa [owned] using hc
    · simpa [owned, howner] using h.ownerCount owner
  · intro owner
    rw [hsum]
    by_cases howner : record.owner = owner
    · subst howner
      simpa [ownedBytes] using hb
    · simpa [ownedBytes, howner] using h.ownerBytes owner
  · rw [hsum]
    exact hgc
  · rw [hsum]
    exact hgb

lemma sum_foldl_idle (f : UploadRecord → Nat) (hf : ∀ r r', SameUpload r r' → f r = f r')
    (entries : List (κ × UploadRecord)) (t : Table κ UploadRecord)
    (h : ∀ e ∈ entries, ∃ r, t.get? e.1 = some r ∧ SameUpload e.2 r) :
    (entries.foldl (fun t e => t.insert e.1 { e.2 with active := false }) t).sum f = t.sum f := by
  induction entries generalizing t with
  | nil => rfl
  | cons entry entries ih =>
  obtain ⟨r, hget, hsame⟩ := h entry mem_cons_self
  rw [foldl_cons, ih]
  · have hsum := sum_insert t entry.1 { entry.2 with active := false } f
    rw [hget, map_some, getD_some] at hsum
    have hfr : f { entry.2 with active := false } = f r := hf _ _ hsame
    omega
  intro e he
  rw [get?_insert]
  split
  · rename_i heq
    obtain ⟨r', hget', hsame'⟩ := h e (mem_cons_of_mem _ he)
    rw [heq, hget] at hget'
    cases hget'
    exact ⟨_, rfl, hsame'.trans hsame.symm⟩
  · exact h e (mem_cons_of_mem _ he)

lemma get?_restart (s : Staging κ) (key : κ) :
    s.restart.records.get? key = (s.records.get? key).map UploadRecord.idle := by
  have hmodify : ∀ (t : Table κ UploadRecord) (e : κ × UploadRecord) (k : κ),
      (t.insert e.1 { e.2 with active := false }).get? k =
        if k = e.1 then some e.2.idle else t.get? k := fun t e k => get?_insert t e.1 k _
  have hget := @get?_foldl_entries κ UploadRecord _ UploadRecord
    (fun t e => t.insert e.1 { e.2 with active := false }) (fun v _ => some v.idle) hmodify
    s.records s.records key
  refine hget.trans ?_
  cases s.records.get? key <;> rfl

lemma RecordsKept.restart (s : Staging κ) : RecordsKept limits s.records s.restart.records := by
  refine ⟨fun key r r' hr hr' => ?_, fun h => h.of_le fun f hf => ?_⟩
  · rw [get?_restart, hr] at hr'
    cases hr'
    rfl
  · refine Nat.le_of_eq (sum_foldl_idle f hf s.records.entries s.records fun e he => ?_)
    exact ⟨e.2, mem_entries_iff.mp he, SameUpload.refl _⟩

end Records

/-! ## What each step does to the records -/

section Steps

variable (uploadKey : String → String → κ) (limits : UploadLimits) (s : Staging κ)

/-- A claim is granted: the store is free, and the record is admitted. -/
def Staging.Grants (owner : String) (d : Descriptor) (now : Nat) (record : UploadRecord) : Prop :=
  s.admission = none ∧ s.admit uploadKey limits owner d now = .ok record

lemma claim_spec (owner : String) (d : Descriptor) (now : Nat) :
    (s.claim uploadKey limits owner d now = s ∧
        ∀ record, ¬ s.Grants uploadKey limits owner d now record) ∨
      ∃ record channel, s.Grants uploadKey limits owner d now record ∧
        channel = s.channelOf (uploadKey d.rootId d.path) record.reservation ∧
        s.claim uploadKey limits owner d now = { s with
            records := s.records.insert (uploadKey d.rootId d.path) record
            cancellations := s.cancellations.insert (uploadKey d.rootId d.path) channel
            leases := s.leases ++ [⟨s.nextLease, uploadKey d.rootId d.path, d.totalBytes,
              channel.id, record.reservation, .claimed⟩]
            nextLease := s.nextLease + 1
            nextReservation := s.nextReservation + 1
            nextChannel := s.nextChannel + 1 } := by
  unfold claim Staging.Grants
  cases hadm : s.admission with
  | some task =>
    refine .inl ⟨rfl, fun record h => ?_⟩
    cases h.1
  | none =>
  rw [if_neg (by simp)]
  cases hadmit : s.admit uploadKey limits owner d now with
  | error e =>
    refine .inl ⟨rfl, fun record h => ?_⟩
    cases h.2
  | ok record => exact .inr ⟨record, _, ⟨rfl, rfl⟩, rfl, rfl⟩

lemma admit_spec {owner : String} {d : Descriptor} {now : Nat} {record : UploadRecord}
    (h : s.admit uploadKey limits owner d now = .ok record) :
    record.active = true ∧ ((s.records.get? (uploadKey d.rootId d.path) = none ∧
          record.reservation = s.nextReservation ∧
          enforceQuota s.records record.owner record.totalBytes limits = true) ∨
        ∃ existing, s.records.get? (uploadKey d.rootId d.path) = some existing ∧
          existing.active = false ∧ record = { existing with active := true }) := by
  unfold Staging.admit at h
  split at h
  · rename_i existing hget
    split at h
    · cases h
    split at h
    · cases h
    split at h
    · cases h
    · rename_i hact
      cases h
      exact ⟨rfl, .inr ⟨existing, hget, by simpa using hact, rfl⟩⟩
  rename_i hget
  split at h
  · rename_i hquota
    cases h
    exact ⟨rfl, .inl ⟨hget, rfl, hquota⟩⟩
  · cases h

open RecordsKept

lemma resetActive_kept (key : κ) : RecordsKept limits s.records (s.resetActive key).records := by
  unfold resetActive
  split
  · rename_i record hget
    exact setActive hget false
  · exact refl

@[simp] lemma signal_records (key : κ) : (s.signal key).records = s.records := by
  unfold signal
  split
  · split <;> rfl
  · rfl

lemma foldl_signal_records (keys : List κ) : (keys.foldl Staging.signal s).records = s.records := by
  induction keys generalizing s with
  | nil => rfl
  | cons key keys ih => rw [foldl_cons, ih, signal_records]

lemma sweep_records (p : UploadRecord → Bool) : (s.sweep p).records = s.records := by
  unfold sweep
  split
  · rfl
  · exact foldl_signal_records s _

lemma step_kept (op : Operation) :
    RecordsKept limits s.records (s.step uploadKey limits op).records := by
  cases op with
  | claim owner d now =>
    rcases claim_spec uploadKey limits s owner d now with ⟨hsame, -⟩ | ⟨record, channel, hgr,
        -, hclaim⟩
    · change RecordsKept limits s.records (s.claim uploadKey limits owner d now).records
      rw [hsame]
      exact refl
    change RecordsKept limits s.records (s.claim uploadKey limits owner d now).records
    rw [hclaim]
    obtain ⟨-, hnew | ⟨existing, hget, -, heq⟩⟩ := admit_spec uploadKey limits s hgr.2
    · exact insert hnew.1 hnew.2.2
    · rw [heq]
      exact setActive hget true
  | finish id completed =>
    change RecordsKept limits s.records (s.finish id completed).records
    unfold finish
    split
    · split
      · exact refl
      · split
        · exact erase _
        · exact resetActive_kept limits s _
    · exact refl
  | finishForget id =>
    change RecordsKept limits s.records (s.finishForget id).records
    unfold finishForget
    split
    · split <;> exact refl
    · exact refl
  | drop id =>
    change RecordsKept limits s.records (s.dropLease id).records
    unfold dropLease
    split
    · split
      · exact refl
      · exact resetActive_kept limits s _
    · exact refl
  | abort id =>
    change RecordsKept limits s.records (s.abort id).records
    unfold abort
    split
    · rename_i lease _
      split
      · exact refl
      · have hkept := resetActive_kept limits (s.signal lease.key) lease.key
        rw [signal_records] at hkept
        exact hkept
    · exact refl
  | abortEnter id =>
    change RecordsKept limits s.records (s.abortEnter id).records
    unfold abortEnter
    split <;> exact refl
  | cancel owner rootId path uploadId =>
    change RecordsKept limits s.records (s.cancel uploadKey owner rootId path uploadId).records
    unfold cancel
    simp only
    split
    · exact refl
    split
    · split
      · exact refl
      · simp only [signal_records]
        exact refl
    · exact refl
  | purgeOwner owner | garbageCollect now | purgeAll =>
    change RecordsKept limits s.records (s.sweep _).records
    rw [sweep_records]
    exact refl
  | proceed =>
    change RecordsKept limits s.records s.proceed.records
    unfold proceed
    split
    · exact refl
    split
    · exact refl
    · exact erase _
    · split
      · split
        · exact refl
        · exact erase _
      · exact refl
    · exact refl
    · exact erase _
    · exact refl
  | abandonAbort id | abandon => exact refl
  | restart => exact restart s

lemma run_withinQuota (operations : List Operation) :
    WithinQuota limits ((initial : Staging κ).run uploadKey limits operations).records := by
  refine exec_invariant (fun s op h => (step_kept uploadKey limits s op).quota h) ?_ operations
  exact ⟨fun _ => Nat.zero_le _, fun _ => Nat.zero_le _, Nat.zero_le _, Nat.zero_le _⟩

end Steps

/-! ## Leases -/

/-- An earlier request still closes on the path. -/
def Staging.closing (s : Staging κ) (key : κ) : Prop :=
  (∃ lease ∈ s.leases, lease.key = key ∧ lease.phase ≠ .claimed) ∨ ∃ a ∈ s.aborts, a.key = key

/-- No claim is granted on a closing path, and no request is dropped between the removal of a
record and of its channel. -/
def Orderly (uploadKey : String → String → κ) (limits : UploadLimits) (s : Staging κ) :
    Operation → Prop
  | .claim owner d now => (∃ record, s.Grants uploadKey limits owner d now record) →
      ¬ s.closing (uploadKey d.rootId d.path)
  | .abandon => ∀ key rest, s.admission ≠ some (.forget key rest)
  | _ => True

def Holds (records : Table κ UploadRecord) (lease : Lease κ) : Prop :=
  match lease.phase with
  | .claimed => ∃ record, records.get? lease.key = some record ∧ record.active = true ∧
      record.reservation = lease.reservation
  | .forgetting => records.get? lease.key = none
  | .finished => ∀ record, records.get? lease.key = some record →
      record.reservation = lease.reservation

def Staging.Kept (s : Staging κ) (key : κ) (channel : Channel) : Prop :=
  (∃ record, s.records.get? key = some record ∧ record.reservation = channel.reservation) ∨
    (∃ lease ∈ s.leases, lease.key = key ∧ lease.phase = .forgetting) ∨
    ∃ rest, s.admission = some (.forget key rest)

def Staging.Aborting (s : Staging κ) (a : Abort κ) : Prop :=
  a ∈ s.aborts ∨ s.admission = some (.abort a)

structure LeaseInvariant (s : Staging κ) : Prop where
  ids : ∀ lease ∈ s.leases, lease.id < s.nextLease
  signals : ∀ id ∈ s.signalled, id < s.nextChannel
  holds : ∀ lease ∈ s.leases, Holds s.records lease
  single : ∀ lease ∈ s.leases, ∀ other ∈ s.leases, lease.key = other.key ∨ lease.id = other.id →
    lease = other
  aborts : ∀ a, s.Aborting a → (∀ lease ∈ s.leases, lease.key ≠ a.key) ∧
    ∀ record, s.records.get? a.key = some record → record.reservation = a.reservation
  channels : ∀ key channel, s.cancellations.get? key = some channel →
    s.Kept key channel ∧ channel.id < s.nextChannel

section Invariant

variable {s : Staging κ}

variable {lease : Lease κ}

lemma lease?_spec {id : Nat} (h : s.lease? id = some lease) : lease ∈ s.leases ∧ lease.id = id := by
  refine ⟨mem_of_find?_eq_some h, ?_⟩
  have := find?_some h
  simpa using this

variable {uploadKey : String → String → κ} {limits : UploadLimits} {record : UploadRecord}

lemma closing_of_grant (h : LeaseInvariant s) {owner : String} {d : Descriptor} {now : Nat}
    (hgrant : s.Grants uploadKey limits owner d now record)
    (hmem : lease ∈ s.leases) (hkey : lease.key = uploadKey d.rootId d.path) :
    s.closing (uploadKey d.rootId d.path) := by
  refine .inl ⟨lease, hmem, hkey, fun hphase => ?_⟩
  have hholds := h.holds lease hmem
  unfold Holds at hholds
  rw [hphase] at hholds
  obtain ⟨held, hget, hact, -⟩ := hholds
  rw [hkey] at hget
  rcases (admit_spec uploadKey limits s hgrant.2).2 with ⟨hnone, -⟩ | ⟨existing, hsome, hidle, -⟩
  · rw [hget] at hnone
    cases hnone
  rw [hget] at hsome
  cases hsome
  rw [hact] at hidle
  cases hidle

lemma claim_invariant (h : LeaseInvariant s) (owner : String) (d : Descriptor) (now : Nat)
    (hord : Orderly uploadKey limits s (.claim owner d now)) :
    LeaseInvariant (s.claim uploadKey limits owner d now) := by
  rcases claim_spec uploadKey limits s owner d now with ⟨hsame, -⟩ | ⟨record, channel, hgr,
      hchan, hclaim⟩
  · rw [hsame]
    exact h
  have hopen := hord ⟨record, hgr⟩
  have hfree : ∀ lease ∈ s.leases, lease.key ≠ uploadKey d.rootId d.path :=
    fun lease hmem hkey => hopen (closing_of_grant h hgr hmem hkey)
  have hnoabort : ∀ a ∈ s.aborts, a.key ≠ uploadKey d.rootId d.path :=
    fun a ha hkey => hopen (.inr ⟨a, ha, hkey⟩)
  have hact := (admit_spec uploadKey limits s hgr.2).1
  rw [hclaim]
  refine ⟨?_, ?_, ?_, ?_, ?_, ?_⟩
  · intro lease hmem
    rcases mem_concat.mp hmem with hmem | hmem
    · exact Nat.lt_succ_of_lt (h.ids lease hmem)
    · rw [hmem]
      exact Nat.lt_succ_self _
  · exact fun id hid => Nat.lt_succ_of_lt (h.signals id hid)
  · intro lease hmem
    rcases mem_concat.mp hmem with hmem | hmem
    · have hholds := h.holds lease hmem
      unfold Holds at hholds ⊢
      simp only [get?_insert_of_ne _ _ (hfree lease hmem)]
      exact hholds
    · rw [hmem]
      exact ⟨record, get?_insert_self _ _ _, hact, rfl⟩
  · intro lease hmem other hother heq
    rcases mem_append.mp hmem with hmem | hmem <;> rcases mem_append.mp hother with hother | hother
    · exact h.single lease hmem other hother heq
    · rw [mem_singleton.mp hother] at heq ⊢
      rcases heq with hkey | hid
      · exact absurd hkey (hfree lease hmem)
      · have := h.ids lease hmem
        simp only at hid
        omega
    · rw [mem_singleton.mp hmem] at heq ⊢
      rcases heq with hkey | hid
      · exact absurd hkey.symm (hfree other hother)
      · have := h.ids other hother
        simp only at hid
        omega
    · rw [mem_singleton.mp hmem, mem_singleton.mp hother]
  · intro a ha
    have ha : a ∈ s.aborts := by
      rcases ha with ha | ha
      · exact ha
      have hnone := hgr.1
      simp only at ha
      rw [hnone] at ha
      cases ha
    obtain ⟨hls, hrec⟩ := h.aborts a (.inl ha)
    refine ⟨?_, ?_⟩
    · intro lease hmem
      rcases mem_concat.mp hmem with hmem | hmem
      · exact hls lease hmem
      · rw [hmem]
        exact (hnoabort a ha).symm
    · intro r hr
      simp only [get?_insert_of_ne _ _ (hnoabort a ha)] at hr
      exact hrec r hr
  intro key ch hch
  simp only [get?_insert] at hch
  split at hch
  · rename_i hkey
    subst hkey
    suffices ch.reservation = record.reservation ∧ ch.id < s.nextChannel + 1 from
      ⟨.inl ⟨record, get?_insert_self _ _ _, this.1.symm⟩, this.2⟩
    cases hch
    rw [hchan]
    unfold channelOf
    cases hold : s.cancellations.get? (uploadKey d.rootId d.path) with
    | none => exact ⟨rfl, Nat.lt_succ_self _⟩
    | some old =>
    obtain ⟨hkept, hid⟩ := h.channels _ old hold
    refine ⟨Eq.symm ?_, Nat.lt_succ_of_lt hid⟩
    rcases hkept with ⟨r, hr, hres⟩ | ⟨lease, hmem, hkey, -⟩ | ⟨rest, hrest⟩
    · rcases (admit_spec uploadKey limits s hgr.2).2 with ⟨hnone, -⟩ | ⟨existing, hsome, -, heq⟩
      · rw [hr] at hnone
        cases hnone
      rw [hr] at hsome
      cases hsome
      rw [heq]
      exact hres
    · exact absurd hkey (hfree lease hmem)
    · rw [hgr.1] at hrest
      cases hrest
  rename_i hkey
  obtain ⟨hkept, hid⟩ := h.channels key ch hch
  refine ⟨?_, Nat.lt_succ_of_lt hid⟩
  rcases hkept with ⟨r, hr, hres⟩ | ⟨lease, hmem, hlease⟩ | hrest
  · refine .inl ⟨r, ?_, hres⟩
    rw [get?_insert_of_ne _ _ hkey]
    exact hr
  · exact .inr (.inl ⟨lease, mem_append_left _ hmem, hlease⟩)
  · exact .inr (.inr hrest)

/-- A step of a lease changes what belongs to its path, and nothing else. -/
structure AtPath (s s' : Staging κ) (lease after : Lease κ) : Prop where
  id : after.id = lease.id
  holds : after ∈ s'.leases → Holds s'.records after
  own : ∀ other ∈ s'.leases, other.key = lease.key → other = after
  others : ∀ other, other.key ≠ lease.key → (other ∈ s'.leases ↔ other ∈ s.leases)
  records : ∀ key, key ≠ lease.key → s'.records.get? key = s.records.get? key
  channels : ∀ key, key ≠ lease.key → s'.cancellations.get? key = s.cancellations.get? key
  channel : ∀ channel, s'.cancellations.get? lease.key = some channel →
    s.cancellations.get? lease.key = some channel ∧ s'.Kept lease.key channel
  nextChannel : s'.nextChannel = s.nextChannel
  signals : ∀ id ∈ s'.signalled, id < s'.nextChannel
  aborts : ∀ a ∈ s'.aborts, a ∈ s.aborts ∨ (a.key = lease.key ∧
    (∀ other ∈ s'.leases, other.key ≠ lease.key) ∧
    ∀ record, s'.records.get? lease.key = some record → record.reservation = a.reservation)
  admission : s'.admission = s.admission
  nextLease : s'.nextLease = s.nextLease

lemma AtPath.invariant {s' : Staging κ} {lease after : Lease κ} (hat : AtPath s s' lease after)
    (h : LeaseInvariant s) (hmem : lease ∈ s.leases) : LeaseInvariant s' := by
  have hcases : ∀ other ∈ s'.leases, (other.key ≠ lease.key ∧ other ∈ s.leases) ∨
      (other.key = lease.key ∧ other = after) := by
    intro other hother
    by_cases hkey : other.key = lease.key
    · exact .inr ⟨hkey, hat.own other hother hkey⟩
    · exact .inl ⟨hkey, (hat.others other hkey).mp hother⟩
  refine ⟨?_, hat.signals, ?_, ?_, ?_, ?_⟩
  · intro other hother
    rw [hat.nextLease]
    rcases hcases other hother with ⟨-, hold⟩ | ⟨-, rfl⟩
    · exact h.ids other hold
    · rw [hat.id]
      exact h.ids lease hmem
  · intro other hother
    rcases hcases other hother with ⟨hkey, hold⟩ | ⟨-, rfl⟩
    · have hholds := h.holds other hold
      unfold Holds at hholds ⊢
      rw [hat.records other.key hkey]
      exact hholds
    · exact hat.holds hother
  · intro first hfirst second hsnd heq
    rcases hcases first hfirst with ⟨hkey, hold⟩ | ⟨hkey, hafter⟩ <;>
      rcases hcases second hsnd with ⟨hkey', hold'⟩ | ⟨hkey', hafter'⟩
    · exact h.single first hold second hold' heq
    · exfalso
      rcases heq with hsame | hid
      · exact hkey (hsame.trans hkey')
      · rw [hafter', hat.id] at hid
        exact hkey (congrArg Lease.key (h.single first hold lease hmem (.inr hid)))
    · exfalso
      rcases heq with hsame | hid
      · exact hkey' (hsame.symm.trans hkey)
      · rw [hafter, hat.id] at hid
        exact hkey' (congrArg Lease.key (h.single second hold' lease hmem (.inr hid.symm)))
    · rw [hafter, hafter']
  · intro a ha
    have hold : s.Aborting a → (∀ other ∈ s'.leases, other.key ≠ a.key) ∧
        ∀ record, s'.records.get? a.key = some record → record.reservation = a.reservation := by
      intro haborting
      obtain ⟨hls, hrec⟩ := h.aborts a haborting
      have hne : a.key ≠ lease.key := (hls lease hmem).symm
      refine ⟨fun other hother hkey => ?_, fun record hget => ?_⟩
      · have hother' := (hat.others other (by rw [hkey]; exact hne)).mp hother
        exact hls other hother' hkey
      · rw [hat.records a.key hne] at hget
        exact hrec record hget
    rcases ha with ha | ha
    · rcases hat.aborts a ha with hin | ⟨hkey, hfree, hrec⟩
      · exact hold (.inl hin)
      · rw [hkey]
        exact ⟨hfree, hrec⟩
    · rw [hat.admission] at ha
      exact hold (.inr ha)
  intro key channel hget
  by_cases hkey : key = lease.key
  · subst hkey
    obtain ⟨hold, hkept⟩ := hat.channel channel hget
    rw [hat.nextChannel]
    exact ⟨hkept, (h.channels _ channel hold).2⟩
  rw [hat.channels key hkey] at hget
  obtain ⟨hkept, hid⟩ := h.channels key channel hget
  rw [hat.nextChannel]
  refine ⟨?_, hid⟩
  rcases hkept with ⟨r, hr, hres⟩ | ⟨other, hother, hotherkey, hphase⟩ | ⟨rest, hrest⟩
  · exact .inl ⟨r, by rw [hat.records key hkey]; exact hr, hres⟩
  · refine .inr (.inl ⟨other, (hat.others other ?_).mpr hother, hotherkey, hphase⟩)
    rw [hotherkey]
    exact hkey
  · exact .inr (.inr ⟨rest, by rw [hat.admission]; exact hrest⟩)

/-! ### The steps of a lease -/

lemma mem_setPhase (h : LeaseInvariant s) (hmem : lease ∈ s.leases)
    (phase : LeasePhase) (other : Lease κ) :
    other ∈ (s.setPhase lease.id phase).leases ↔
      other = { lease with phase := phase } ∨ (other ∈ s.leases ∧ other.key ≠ lease.key) := by
  unfold setPhase
  rw [List.mem_map]
  constructor
  · rintro ⟨l, hl, rfl⟩
    by_cases hid : l.id = lease.id
    · rw [if_pos hid, h.single l hl lease hmem (.inr hid)]
      exact .inl rfl
    · rw [if_neg hid]
      refine .inr ⟨hl, fun hkey => ?_⟩
      exact hid (congrArg Lease.id (h.single l hl lease hmem (.inl hkey)))
  rintro (rfl | ⟨hother, hkey⟩)
  · exact ⟨lease, hmem, by rw [if_pos rfl]⟩
  · refine ⟨other, hother, if_neg fun hid => ?_⟩
    exact hkey (congrArg Lease.key (h.single other hother lease hmem (.inr hid)))

lemma alone_at {leases : List (Lease κ)} {after : Lease κ} (hkey : after.key = lease.key)
    (h : ∀ other, other ∈ leases ↔ other = after ∨ (other ∈ s.leases ∧ other.key ≠ lease.key)) :
    (∀ other ∈ leases, other.key = lease.key → other = after) ∧
      ∀ other, other.key ≠ lease.key → (other ∈ leases ↔ other ∈ s.leases) := by
  refine ⟨fun other hother hown => ?_, fun other hne => (h other).trans ⟨?_, fun hother => ?_⟩⟩
  · exact ((h other).mp hother).resolve_right fun hrest => hrest.2 hown
  · rintro (rfl | ⟨hother, -⟩)
    · exact absurd hkey hne
    · exact hother
  · exact .inr ⟨hother, hne⟩

lemma mem_releaseLease (h : LeaseInvariant s) (hmem : lease ∈ s.leases) (other : Lease κ) :
    other ∈ (s.releaseLease lease.id).leases ↔ other ∈ s.leases ∧ other.key ≠ lease.key := by
  unfold releaseLease
  rw [mem_filter, decide_eq_true_eq]
  constructor
  · rintro ⟨hother, hid⟩
    refine ⟨hother, fun hkey => hid ?_⟩
    exact congrArg Lease.id (h.single other hother lease hmem (.inl hkey))
  · rintro ⟨hother, hkey⟩
    refine ⟨hother, fun hid => hkey ?_⟩
    exact congrArg Lease.key (h.single other hother lease hmem (.inr hid))

lemma get?_resetActive (s : Staging κ) (key other : κ) : (s.resetActive key).records.get? other =
      if other = key then (s.records.get? key).map UploadRecord.idle
      else s.records.get? other := by
  unfold resetActive
  cases hget : s.records.get? key with
  | none =>
    by_cases heq : other = key
    · rw [if_pos heq, heq]
      exact hget
    · rw [if_neg heq]
  | some record =>
    simp only [get?_insert]
    rfl

@[simp] lemma resetActive_leases (key : κ) : (s.resetActive key).leases = s.leases := by
  unfold resetActive
  split <;> rfl

@[simp] lemma resetActive_rest (key : κ) : (s.resetActive key).cancellations = s.cancellations ∧
      (s.resetActive key).signalled = s.signalled ∧ (s.resetActive key).aborts = s.aborts ∧
      (s.resetActive key).admission = s.admission ∧
      (s.resetActive key).nextLease = s.nextLease ∧
      (s.resetActive key).nextChannel = s.nextChannel := by
  unfold resetActive
  split <;> exact ⟨rfl, rfl, rfl, rfl, rfl, rfl⟩

lemma Holds.reservation {records : Table κ UploadRecord} (h : Holds records lease)
    (hget : records.get? lease.key = some record) : record.reservation = lease.reservation := by
  unfold Holds at h
  split at h
  · obtain ⟨held, hheld, -, hres⟩ := h
    rw [hget] at hheld
    cases hheld
    exact hres
  · rw [hget] at h
    cases h
  · exact h record hget

section

variable (h : LeaseInvariant s)
include h

lemma record_reset (hmem : lease ∈ s.leases)
    (hget : (s.resetActive lease.key).records.get? lease.key = some record) :
    record.reservation = lease.reservation := by
  rw [get?_resetActive, if_pos rfl] at hget
  obtain ⟨held, hheld, rfl⟩ := map_eq_some_iff.mp hget
  have hres := (h.holds lease hmem).reservation hheld
  exact hres

/-- A lease that clears the flag of the record, with other leases on its path or aborts. -/
lemma atPath_reset (hmem : lease ∈ s.leases) (hphase : lease.phase ≠ .forgetting)
    (after : Lease κ) (hid : after.id = lease.id) (leases : List (Lease κ)) (aborts : List (Abort κ))
    (hholds : after ∈ leases → Holds (s.resetActive lease.key).records after)
    (halone : (∀ other ∈ leases, other.key = lease.key → other = after) ∧
      ∀ other, other.key ≠ lease.key → (other ∈ leases ↔ other ∈ s.leases))
    (haborts : ∀ a ∈ aborts, a ∈ s.aborts ∨ (a.key = lease.key ∧
      (∀ other ∈ leases, other.key ≠ lease.key) ∧ ∀ record,
      (s.resetActive lease.key).records.get? lease.key = some record →
        record.reservation = a.reservation)) :
    AtPath s { s.resetActive lease.key with leases := leases, aborts := aborts } lease after := by
  have hrest := resetActive_rest (s := s) lease.key
  refine ⟨hid, hholds, halone.1, halone.2, ?_, ?_, ?_, hrest.2.2.2.2.2, ?_, haborts,
    hrest.2.2.2.1, hrest.2.2.2.2.1⟩
  · intro key hkey
    rw [get?_resetActive, if_neg hkey]
  · intro key _
    rw [hrest.1]
  · intro channel hchan
    rw [hrest.1] at hchan
    refine ⟨hchan, ?_⟩
    rcases (h.channels _ channel hchan).1 with ⟨record, hget, hres⟩ |
      ⟨other, hother, hkey, hforgetting⟩ | ⟨rest, hadm⟩
    · refine .inl ⟨record.idle, ?_, hres⟩
      rw [get?_resetActive, if_pos rfl, hget]
      rfl
    · rw [h.single other hother lease hmem (.inl hkey)] at hforgetting
      exact absurd hforgetting hphase
    · exact .inr (.inr ⟨rest, hrest.2.2.2.1.trans hadm⟩)
  · rw [hrest.2.1, hrest.2.2.2.2.2]
    exact h.signals

lemma finish_invariant (id : Nat) (completed : Bool) : LeaseInvariant (s.finish id completed) := by
  unfold finish
  cases hlease : s.lease? id with
  | none => exact h
  | some lease =>
  obtain ⟨hmem, rfl⟩ := lease?_spec hlease
  simp only
  split
  · exact h
  rename_i hphase
  have hclai : lease.phase = .claimed := by simpa using hphase
  split
  · refine AtPath.invariant (?_ : AtPath s _ lease { lease with phase := .forgetting }) h hmem
    obtain ⟨hown, hoth⟩ := alone_at rfl (mem_setPhase h hmem .forgetting)
    refine ⟨rfl, fun _ => ?_, hown, hoth, ?_, fun _ _ => rfl, ?_, rfl, h.signals,
      fun a ha => .inl ha, rfl, rfl⟩
    · change (s.records.erase lease.key).get? lease.key = none
      rw [get?_erase, if_pos rfl]
    · exact fun key hkey => get?_erase_of_ne _ hkey
    · intro channel hchan
      refine ⟨hchan, .inr (.inl ⟨{ lease with phase := .forgetting }, ?_, rfl, rfl⟩)⟩
      exact (mem_setPhase h hmem .forgetting _).mpr (.inl rfl)
  have hls : ∀ other, other ∈ ((s.resetActive lease.key).setPhase lease.id .finished).leases ↔
      other = { lease with phase := .finished } ∨ (other ∈ s.leases ∧ other.key ≠ lease.key) := by
    intro other
    rw [← mem_setPhase h hmem .finished other]
    unfold setPhase
    rw [resetActive_leases]
  have haborts := (resetActive_rest (s := s) lease.key).2.2.1
  refine (atPath_reset h hmem (by rw [hclai]; decide) { lease with phase := .finished } rfl _
    (s.resetActive lease.key).aborts (fun _ _ hget => ?_) (alone_at rfl hls)
    fun _ ha => .inl (haborts ▸ ha)).invariant h hmem
  have hres := record_reset h hmem hget
  exact hres

lemma finishForget_invariant (id : Nat) : LeaseInvariant (s.finishForget id) := by
  unfold finishForget
  cases hlease : s.lease? id with
  | none => exact h
  | some lease =>
  obtain ⟨hmem, rfl⟩ := lease?_spec hlease
  simp only
  split
  · rename_i hphase
    have hgone : s.records.get? lease.key = none := by
      have hholds := h.holds lease hmem
      unfold Holds at hholds
      rw [hphase] at hholds
      exact hholds
    refine AtPath.invariant (?_ : AtPath s _ lease { lease with phase := .finished }) h hmem
    obtain ⟨hown, hoth⟩ := alone_at rfl (mem_setPhase h hmem .finished)
    refine ⟨rfl, fun _ record hget => ?_, hown, hoth, fun _ _ => rfl, ?_, ?_, rfl, h.signals,
      fun a ha => .inl ha, rfl, rfl⟩
    · change s.records.get? lease.key = some record at hget
      rw [hgone] at hget
      cases hget
    · exact fun key hkey => get?_erase_of_ne _ hkey
    intro channel hchan
    change (s.cancellations.erase lease.key).get? lease.key = some channel at hchan
    rw [get?_erase, if_pos rfl] at hchan
    cases hchan
  · exact h

lemma release_invariant (hmem : lease ∈ s.leases)
    (hphase : lease.phase ≠ .forgetting) (aborts : List (Abort κ))
    (haborts : ∀ a ∈ aborts, a ∈ s.aborts ∨
      (a.key = lease.key ∧ a.reservation = lease.reservation)) :
    LeaseInvariant { (s.resetActive lease.key).releaseLease lease.id with aborts := aborts } := by
  have hls : ∀ other, other ∈ ((s.resetActive lease.key).releaseLease lease.id).leases ↔
      other ∈ s.leases ∧ other.key ≠ lease.key := by
    intro other
    rw [← mem_releaseLease h hmem other]
    unfold releaseLease
    rw [resetActive_leases]
  refine AtPath.invariant (atPath_reset h hmem hphase _ rfl _ aborts (fun hgone => ?_)
    ⟨fun other hother hkey => ?_, fun other hkey => ?_⟩ fun a ha => ?_) h hmem
  · exact absurd rfl ((hls lease).mp hgone).2
  · exact absurd hkey ((hls other).mp hother).2
  · exact (hls other).trans ⟨fun hother => hother.1, fun hother => ⟨hother, hkey⟩⟩
  rcases haborts a ha with hin | ⟨hkey, hres⟩
  · exact .inl hin
  · refine .inr ⟨hkey, fun other hother => ((hls other).mp hother).2, fun record hget => ?_⟩
    rw [hres]
    exact record_reset h hmem hget

lemma drop_invariant (id : Nat) : LeaseInvariant (s.dropLease id) := by
  unfold dropLease
  cases hlease : s.lease? id with
  | none => exact h
  | some lease =>
  obtain ⟨hmem, rfl⟩ := lease?_spec hlease
  simp only
  split
  · exact h
  rename_i hphase
  have hreleased := release_invariant h hmem hphase s.aborts fun a ha => .inl ha
  have hsame : { (s.resetActive lease.key).releaseLease lease.id with aborts := s.aborts } =
      (s.resetActive lease.key).releaseLease lease.id := by
    have haborts := (resetActive_rest (s := s) lease.key).2.2.1
    unfold releaseLease
    simp only [haborts]
  rwa [hsame] at hreleased

end

lemma signal_spec (key : κ) : (s.signal key).records = s.records ∧
    (s.signal key).cancellations = s.cancellations ∧ (s.signal key).leases = s.leases ∧
    (s.signal key).aborts = s.aborts ∧ (s.signal key).admission = s.admission ∧
    (s.signal key).nextLease = s.nextLease ∧ (s.signal key).nextChannel = s.nextChannel := by
  unfold signal
  split
  · split <;> exact ⟨rfl, rfl, rfl, rfl, rfl, rfl, rfl⟩
  · exact ⟨rfl, rfl, rfl, rfl, rfl, rfl, rfl⟩

/-! ### Signals and the holder of the lock -/

section

variable (h : LeaseInvariant s)
include h

/-- The invariant reads of the state what signals leave alone, and the bound on the channels. -/
lemma LeaseInvariant.congr {s' : Staging κ}
    (hrecords : s'.records = s.records) (hchannels : s'.cancellations = s.cancellations)
    (hls : s'.leases = s.leases) (hnextLease : s'.nextLease = s.nextLease)
    (hnextChannel : s'.nextChannel = s.nextChannel)
    (hsignals : ∀ id ∈ s'.signalled, id < s.nextChannel)
    (haborts : ∀ a, s'.Aborting a → s.Aborting a)
    (hforget : ∀ key rest, s.admission = some (.forget key rest) →
      s'.admission = some (.forget key rest)) : LeaseInvariant s' := by
  refine ⟨?_, ?_, ?_, ?_, ?_, ?_⟩
  · rw [hls, hnextLease]
    exact h.ids
  · rw [hnextChannel]
    exact hsignals
  · rw [hls, hrecords]
    exact h.holds
  · rw [hls]
    exact h.single
  · intro a ha
    rw [hls, hrecords]
    exact h.aborts a (haborts a ha)
  intro key channel hget
  rw [hchannels] at hget
  rw [hnextChannel]
  obtain ⟨hkept, hid⟩ := h.channels key channel hget
  refine ⟨?_, hid⟩
  unfold Staging.Kept
  rw [hrecords, hls]
  rcases hkept with hrec | hlease | ⟨rest, hrest⟩
  · exact .inl hrec
  · exact .inr (.inl hlease)
  · exact .inr (.inr ⟨rest, hforget key rest hrest⟩)

lemma signal_invariant (key : κ) : LeaseInvariant (s.signal key) := by
  obtain ⟨hrecords, hchannels, hls, haborts, hadm, hnextLease, hnextChannel⟩ :=
    signal_spec (s := s) key
  refine h.congr hrecords hchannels hls hnextLease hnextChannel ?_ ?_ ?_
  · intro id hid
    unfold signal at hid
    split at hid
    · rename_i channel hget
      split at hid
      · rcases mem_cons.mp hid with rfl | hid
        · exact (h.channels key channel hget).2
        · exact h.signals id hid
      · exact h.signals id hid
    · exact h.signals id hid
  · intro a ha
    unfold Staging.Aborting at ha ⊢
    rwa [haborts, hadm] at ha
  · intro key' rest hrest
    rw [hadm]
    exact hrest

lemma foldl_signal (keys : List κ) : LeaseInvariant (keys.foldl Staging.signal s) ∧
      (keys.foldl Staging.signal s).admission = s.admission := by
  induction keys generalizing s with
  | nil => exact ⟨h, rfl⟩
  | cons key keys ih =>
  obtain ⟨hkeep, hadm⟩ := ih (signal_invariant h key)
  rw [foldl_cons]
  exact ⟨hkeep, hadm.trans (signal_spec key).2.2.2.2.1⟩

lemma abort_invariant (id : Nat) : LeaseInvariant (s.abort id) := by
  unfold abort
  cases hlease : s.lease? id with
  | none => exact h
  | some lease =>
  obtain ⟨hmem, rfl⟩ := lease?_spec hlease
  simp only
  split
  · exact h
  rename_i hphase
  have hclai : lease.phase = .claimed := by simpa using hphase
  obtain ⟨-, -, hls, haborts, -⟩ := signal_spec (s := s) lease.key
  have hmem' : lease ∈ (s.signal lease.key).leases := by rw [hls]; exact hmem
  refine release_invariant (signal_invariant h lease.key) hmem' (by rw [hclai]; decide) _
    fun a ha => ?_
  rcases mem_concat.mp ha with ha | ha
  · rw [haborts]
    exact .inl ha
  · rw [ha]
    exact .inr ⟨rfl, rfl⟩

lemma abortEnter_invariant (id : Nat) : LeaseInvariant (s.abortEnter id) := by
  unfold abortEnter
  split
  · rename_i a hadm hfind
    refine h.congr rfl rfl rfl rfl rfl h.signals (fun b hb => ?_) (fun key rest hrest => ?_)
    · rcases hb with hb | hb
      · exact .inl (mem_filter.mp hb).1
      · cases hb
        exact .inl (mem_of_find?_eq_some hfind)
    · rw [hadm] at hrest
      cases hrest
  · exact h

lemma take_invariant (hfree : s.admission = none) {task : Task κ}
    (htask : ∀ a, task ≠ .abort a) : LeaseInvariant { s with admission := some task } := by
  refine h.congr rfl rfl rfl rfl rfl h.signals (fun a ha => ?_) (fun key rest hrest => ?_)
  · rcases ha with ha | ha
    · exact .inl ha
    · cases ha
      exact absurd rfl (htask a)
  · rw [hfree] at hrest
    cases hrest

lemma cancel_invariant (uploadKey : String → String → κ) (owner rootId path uploadId : String) :
    LeaseInvariant (s.cancel uploadKey owner rootId path uploadId) := by
  unfold cancel
  simp only
  split
  · exact h
  rename_i hfree
  have hfree : s.admission = none := by simpa using hfree
  split
  · split
    · exact h
    · refine take_invariant (signal_invariant h _) ?_ (fun a heq => (nomatch heq))
      exact (signal_spec _).2.2.2.2.1.trans hfree
  · exact h

lemma sweep_invariant (p : UploadRecord → Bool) : LeaseInvariant (s.sweep p) := by
  unfold sweep
  split
  · exact h
  rename_i hfree
  have hfree : s.admission = none := by simpa using hfree
  obtain ⟨hkeep, hadm⟩ :=
    foldl_signal h ((s.records.entries.filter (fun entry => p entry.2)).map Prod.fst)
  exact take_invariant hkeep (hadm.trans hfree) (fun a heq => (nomatch heq))

lemma remove_invariant (hls : s.leases = []) {task : Task κ}
    (htask : s.admission = some task) (hnot : ∀ key rest, task ≠ .forget key rest) (key : κ)
    (rest : List κ) :
    LeaseInvariant { s.removeRecord key with admission := some (.forget key rest) } := by
  have hnone : ∀ lease ∈ s.leases, False := fun lease hmem => by rw [hls] at hmem; cases hmem
  refine ⟨fun lease hmem => (hnone lease hmem).elim, h.signals, fun lease hmem => (hnone lease hmem).elim,
    fun lease hmem => (hnone lease hmem).elim, fun a ha => ?_, fun key' channel hget => ?_⟩
  · refine ⟨fun lease hmem => (hnone lease hmem).elim, fun record hget => ?_⟩
    rcases ha with ha | ha
    · have hget' : (s.records.erase key).get? a.key = some record := hget
      exact (h.aborts a (.inl ha)).2 record (of_get?_erase hget').2
    · cases ha
  obtain ⟨hkept, hid⟩ := h.channels key' channel hget
  refine ⟨?_, hid⟩
  by_cases hkey : key' = key
  · subst hkey
    exact .inr (.inr ⟨rest, rfl⟩)
  rcases hkept with ⟨r, hr, hres⟩ | ⟨lease, hmem, -⟩ | ⟨rest', hrest'⟩
  · refine .inl ⟨r, ?_, hres⟩
    change (s.records.erase key).get? key' = some r
    rw [get?_erase_of_ne _ hkey]
    exact hr
  · exact (hnone lease hmem).elim
  · rw [htask] at hrest'
    cases hrest'
    exact absurd rfl (hnot _ _)

lemma proceed_invariant : LeaseInvariant s.proceed := by
  have hdone : (∀ key rest, s.admission ≠ some (.forget key rest)) →
      LeaseInvariant { s with admission := none } := by
    intro hnot
    refine h.congr rfl rfl rfl rfl rfl h.signals (fun a ha => ?_) (fun key rest hrest => ?_)
    · rcases ha with ha | ha
      · exact .inl ha
      · cases ha
    · exact absurd hrest (hnot key rest)
  unfold proceed
  split
  · exact h
  rename_i hls
  have hls : s.leases = [] := by simpa using hls
  split
  · exact h
  · rename_i a htask
    exact remove_invariant h hls htask (fun key rest heq => (nomatch heq)) _ _
  · rename_i key owner uploadId htask
    have hnot : ∀ key rest, s.admission ≠ some (.forget key rest) := by
      intro key' rest heq
      rw [htask] at heq
      cases heq
    split
    · split
      · exact hdone hnot
      · exact remove_invariant h hls htask (fun key rest heq => (nomatch heq)) _ _
    · exact hdone hnot
  · rename_i htask
    refine hdone fun key rest heq => ?_
    rw [htask] at heq
    cases heq
  · rename_i key rest htask
    exact remove_invariant h hls htask (fun key rest heq => (nomatch heq)) _ _
  rename_i key rest htask
  have hafter : ∀ key' rest', afterForget rest ≠ some (.forget key' rest') ∧
      ∀ a, afterForget rest ≠ some (.abort a) := by
    intro key' rest'
    unfold afterForget
    split
    · exact ⟨fun heq => (nomatch heq), fun a heq => (nomatch heq)⟩
    · exact ⟨fun heq => (nomatch heq), fun a heq => (nomatch heq)⟩
  refine ⟨h.ids, h.signals, h.holds, h.single, fun a ha => ?_, fun key' channel hget => ?_⟩
  · rcases ha with ha | ha
    · exact h.aborts a (.inl ha)
    · exact absurd ha ((hafter key rest).2 a)
  change (s.cancellations.erase key).get? key' = some channel at hget
  obtain ⟨hkey, hget⟩ := of_get?_erase hget
  obtain ⟨hkept, hid⟩ := h.channels key' channel hget
  refine ⟨?_, hid⟩
  rcases hkept with hrec | hlease | ⟨rest', hrest'⟩
  · exact .inl hrec
  · exact .inr (.inl hlease)
  · rw [htask] at hrest'
    cases hrest'
    exact absurd rfl hkey

/-! ### A restart -/

end

lemma openChannels_spec (entries : List (κ × UploadRecord)) (next : Nat) (key : κ)
    (channel : Channel) (h : (openChannels next entries).get? key = some channel) :
    ∃ record, (key, record) ∈ entries ∧ channel.reservation = record.reservation ∧
      channel.id < next + entries.length := by
  induction entries generalizing next with
  | nil => cases h
  | cons entry entries ih =>
  obtain ⟨k, record⟩ := entry
  rw [openChannels, get?_insert] at h
  split at h
  · rename_i heq
    subst heq
    cases h
    refine ⟨record, mem_cons_self, rfl, ?_⟩
    simp only [length_cons]
    omega
  obtain ⟨r, hmem, hres, hid⟩ := ih (next + 1) h
  refine ⟨r, mem_cons_of_mem _ hmem, hres, ?_⟩
  simp only [length_cons]
  omega

lemma restart_invariant (h : LeaseInvariant s) : LeaseInvariant s.restart := by
  refine ⟨fun lease hmem => (nomatch hmem), fun id hid => ?_, fun lease hmem => (nomatch hmem),
    fun lease hmem => (nomatch hmem), fun a ha => ?_, fun key channel hget => ?_⟩
  · exact Nat.lt_of_lt_of_le (h.signals id hid) (Nat.le_add_right _ _)
  · rcases ha with ha | ha
    · cases ha
    · cases ha
  obtain ⟨record, hmem, hres, hid⟩ := openChannels_spec _ _ _ _ hget
  refine ⟨.inl ⟨record.idle, ?_, hres.symm⟩, hid⟩
  rw [get?_restart, mem_entries_iff.mp hmem]
  rfl

end Invariant

/-! ## Safety of a run -/

section Safety

variable (uploadKey : String → String → κ) (limits : UploadLimits)

def Staging.actor (s : Staging κ) : Operation → Option (Abort κ)
  | .finish id _ => (s.lease? id).map (fun lease => ⟨lease.id, lease.key, lease.reservation⟩)
  | .finishForget id => (s.lease? id).map (fun lease => ⟨lease.id, lease.key, lease.reservation⟩)
  | .drop id => (s.lease? id).map (fun lease => ⟨lease.id, lease.key, lease.reservation⟩)
  | .abort id => (s.lease? id).map (fun lease => ⟨lease.id, lease.key, lease.reservation⟩)
  | .abortEnter id => s.aborts.find? (fun a => decide (a.lease = id))
  | .proceed => match s.admission with
    | some (.abort a) => some a
    | _ => none
  | _ => none

/-- An operation of a lease leaves the later reservations and claims of its path alone. -/
structure LaterUntouched (a : Abort κ) (s s' : Staging κ) : Prop where
  reservation : ∀ record, s.records.get? a.key = some record → a.reservation < record.reservation →
    s'.records.get? a.key = some record
  lease : ∀ lease ∈ s.leases, lease.key = a.key → a.lease < lease.id →
    lease ∈ s'.leases ∧ s'.records.get? lease.key = s.records.get? lease.key ∧
      s'.cancelled lease = s.cancelled lease

structure SafeStep (s : Staging κ) (op : Operation) : Prop where
  exclusive : ∀ lease ∈ (s.step uploadKey limits op).leases,
    ∀ other ∈ (s.step uploadKey limits op).leases, lease.phase = .claimed →
      other.phase = .claimed → lease.key = other.key → lease = other
  owner : ∀ key r r', s.records.get? key = some r →
    (s.step uploadKey limits op).records.get? key = some r' → r'.owner = r.owner
  quota : WithinQuota limits (s.step uploadKey limits op).records
  later : ∀ a, s.actor op = some a → LaterUntouched a s (s.step uploadKey limits op)
  /-- A new lease has a channel of its own reservation, and is not cancelled with a new one. -/
  channel : ∀ lease ∈ (s.step uploadKey limits op).leases, lease.id = s.nextLease →
    (∃ channel, (s.step uploadKey limits op).cancellations.get? lease.key = some channel ∧
      channel.id = lease.channel ∧ channel.reservation = lease.reservation) ∧
    (s.records.get? lease.key = none → (s.step uploadKey limits op).cancelled lease = false)

variable {uploadKey limits} {s : Staging κ}

section

variable (h : LeaseInvariant s)
include h

lemma step_invariant (op : Operation) (hord : Orderly uploadKey limits s op) :
    LeaseInvariant (s.step uploadKey limits op) := by
  cases op with
  | claim owner d now => exact claim_invariant h owner d now hord
  | finish id completed => exact finish_invariant h id completed
  | finishForget id => exact finishForget_invariant h id
  | drop id => exact drop_invariant h id
  | abort id => exact abort_invariant h id
  | abortEnter id => exact abortEnter_invariant h id
  | cancel owner rootId path uploadId => exact cancel_invariant h _ owner rootId path uploadId
  | purgeOwner owner => exact sweep_invariant h (fun record => decide (record.owner = owner))
  | garbageCollect now => exact sweep_invariant h (fun record => decide (record.expiresAt ≤ now))
  | purgeAll => exact sweep_invariant h (fun _ => true)
  | proceed => exact proceed_invariant h
  | abandonAbort id =>
    refine h.congr rfl rfl rfl rfl rfl h.signals (fun a ha => ?_) (fun key rest hrest => hrest)
    rcases ha with ha | ha
    · exact .inl (mem_filter.mp ha).1
    · exact .inr ha
  | abandon =>
    refine h.congr rfl rfl rfl rfl rfl h.signals (fun a ha => ?_) (fun key rest hrest => ?_)
    · rcases ha with ha | ha
      · exact .inl ha
      · cases ha
    · exact absurd hrest (hord key rest)
  | restart => exact restart_invariant h

variable {a : Abort κ}

lemma laterUntouched_of_lease {id : Nat} (hactor : (s.lease? id).map (fun lease =>
      (⟨lease.id, lease.key, lease.reservation⟩ : Abort κ)) = some a) (s' : Staging κ) :
    LaterUntouched a s s' := by
  obtain ⟨lease, hlease, rfl⟩ := map_eq_some_iff.mp hactor
  obtain ⟨hmem, -⟩ := lease?_spec hlease
  constructor
  · intro record hget hlt
    have := (h.holds lease hmem).reservation hget
    simp only at hlt
    omega
  intro other hother hkey hlt
  have hsame := h.single other hother lease hmem (.inl hkey)
  subst hsame
  simp only at hlt
  omega

lemma laterUntouched_of_abort (ha : s.Aborting a) (s' : Staging κ) : LaterUntouched a s s' := by
  obtain ⟨hls, hrec⟩ := h.aborts a ha
  constructor
  · intro record hget hlt
    have := hrec record hget
    omega
  · exact fun lease hmem hkey _ => absurd hkey (hls lease hmem)

lemma later_untouched {op : Operation}
    (hactor : s.actor op = some a) (s' : Staging κ) : LaterUntouched a s s' := by
  cases op with
  | finish id completed => exact laterUntouched_of_lease h hactor s'
  | finishForget id | drop id | abort id => exact laterUntouched_of_lease h hactor s'
  | abortEnter id => exact laterUntouched_of_abort h (.inl (mem_of_find?_eq_some hactor)) s'
  | proceed =>
    change (match s.admission with
      | some (.abort a) => some a
      | _ => none) = some a at hactor
    split at hactor
    · rename_i b hadm
      cases hactor
      exact laterUntouched_of_abort h (.inr hadm) s'
    · cases hactor
  | _ => cases hactor

lemma leases_of_step (op : Operation) (hnot : ∀ owner d now, op ≠ .claim owner d now) :
    ∀ lease ∈ (s.step uploadKey limits op).leases, lease.id < s.nextLease := by
  have hphase : ∀ (id : Nat) (phase : LeasePhase) (t : Staging κ), t.leases = s.leases →
      ∀ lease ∈ (t.setPhase id phase).leases, lease.id < s.nextLease := by
    intro id phase t ht lease hmem
    unfold setPhase at hmem
    rw [ht] at hmem
    obtain ⟨old, hold, rfl⟩ := mem_map.mp hmem
    have hid := h.ids old hold
    split
    · exact hid
    · exact hid
  have hrelease : ∀ (id : Nat) (t : Staging κ), t.leases = s.leases →
      ∀ lease ∈ (t.releaseLease id).leases, lease.id < s.nextLease := by
    intro id t ht lease hmem
    unfold releaseLease at hmem
    rw [ht] at hmem
    exact h.ids lease (mem_filter.mp hmem).1
  have hsignals : ∀ keys : List κ, ∀ t : Staging κ, (keys.foldl signal t).leases = t.leases := by
    intro keys
    induction keys with
    | nil => exact fun t => rfl
    | cons key keys ih =>
    intro t
    rw [foldl_cons, ih]
    exact (signal_spec key).2.2.1
  have hsweep : ∀ p, (s.sweep p).leases = s.leases := by
    intro p
    unfold sweep
    split
    · rfl
    · exact hsignals _ s
  cases op with
  | claim owner d now => exact absurd rfl (hnot owner d now)
  | finish id completed =>
    change ∀ lease ∈ (s.finish id completed).leases, _
    unfold finish
    split
    · split
      · exact h.ids
      · split
        · exact hphase _ _ _ rfl
        · exact hphase _ _ _ (resetActive_leases _)
    · exact h.ids
  | finishForget id =>
    change ∀ lease ∈ (s.finishForget id).leases, _
    unfold finishForget
    split
    · split
      · exact hphase _ _ _ rfl
      · exact h.ids
    · exact h.ids
  | drop id =>
    change ∀ lease ∈ (s.dropLease id).leases, _
    unfold dropLease
    split
    · split
      · exact h.ids
      · exact hrelease _ _ (resetActive_leases _)
    · exact h.ids
  | abort id =>
    change ∀ lease ∈ (s.abort id).leases, _
    unfold abort
    split
    · split
      · exact h.ids
      · exact hrelease _ _ ((resetActive_leases _).trans (signal_spec _).2.2.1)
    · exact h.ids
  | abortEnter id =>
    change ∀ lease ∈ (s.abortEnter id).leases, _
    unfold abortEnter
    split <;> exact h.ids
  | cancel owner rootId path uploadId =>
    change ∀ lease ∈ (s.cancel uploadKey owner rootId path uploadId).leases, _
    unfold cancel
    simp only
    split
    · exact h.ids
    split
    · split
      · exact h.ids
      · simp only [(signal_spec _).2.2.1]
        exact h.ids
    · exact h.ids
  | purgeOwner owner | garbageCollect now | purgeAll =>
    change ∀ lease ∈ (s.sweep _).leases, _
    rw [hsweep]
    exact h.ids
  | proceed =>
    have hproceed : s.proceed.leases = s.leases := by
      unfold proceed
      split
      · rfl
      split
      · rfl
      · rfl
      · split
        · split <;> rfl
        · rfl
      · rfl
      · rfl
      · rfl
    change ∀ lease ∈ s.proceed.leases, _
    rw [hproceed]
    exact h.ids
  | abandonAbort id | abandon => exact h.ids
  | restart => exact fun lease hmem => (nomatch hmem)

lemma claim_channel (owner : String) (d : Descriptor) (now : Nat)
    (hord : Orderly uploadKey limits s (.claim owner d now)) :
    ∀ lease ∈ (s.claim uploadKey limits owner d now).leases, lease.id = s.nextLease →
      (∃ channel, (s.claim uploadKey limits owner d now).cancellations.get? lease.key =
          some channel ∧ channel.id = lease.channel ∧ channel.reservation = lease.reservation) ∧
        (s.records.get? lease.key = none →
          (s.claim uploadKey limits owner d now).cancelled lease = false) := by
  have hafter := claim_invariant h owner d now hord
  rcases claim_spec uploadKey limits s owner d now with ⟨hsame, -⟩ | ⟨record, channel, hgr,
      hchan, hclaim⟩
  · rw [hsame]
    intro lease hmem hid
    have := h.ids lease hmem
    omega
  rw [hclaim] at hafter ⊢
  intro lease hmem hid
  have hlease : lease = ⟨s.nextLease, uploadKey d.rootId d.path, d.totalBytes, channel.id,
      record.reservation, .claimed⟩ := by
    rcases mem_concat.mp hmem with hold | hnew
    · have := h.ids lease hold
      omega
    · exact hnew
  subst hlease
  have hget : (s.cancellations.insert (uploadKey d.rootId d.path) channel).get?
      (uploadKey d.rootId d.path) = some channel := get?_insert_self _ _ _
  refine ⟨⟨channel, hget, rfl, ?_⟩, fun hnone => ?_⟩
  · rcases (hafter.channels _ channel hget).1 with ⟨r, hr, hres⟩ | ⟨other, hother, hkey, hphase⟩ |
      ⟨rest, hrest⟩
    · rw [← hres]
      exact (hafter.holds _ hmem).reservation hr
    · rw [hafter.single other hother _ hmem (.inl hkey)] at hphase
      cases hphase
    · rw [hgr.1] at hrest
      cases hrest
  have hnew : s.cancellations.get? (uploadKey d.rootId d.path) = none := by
    cases hold : s.cancellations.get? (uploadKey d.rootId d.path) with
    | none => rfl
    | some old =>
    exfalso
    rcases (h.channels _ old hold).1 with ⟨r, hr, -⟩ | ⟨other, hother, hkey, -⟩ | ⟨rest, hrest⟩
    · simp only at hnone
      rw [hnone] at hr
      cases hr
    · exact hord ⟨record, hgr⟩ (closing_of_grant h hgr hother hkey)
    · rw [hgr.1] at hrest
      cases hrest
  have hid : channel.id = s.nextChannel := by
    rw [hchan]
    unfold channelOf
    rw [hnew]
  have hsignal : channel.id ∉ s.signalled := by
    intro hmem
    have := h.signals _ hmem
    omega
  unfold cancelled
  simp only [hget, hsignal, decide_false, any_some, decide_true, Bool.not_true, Bool.or_self]

lemma safeStep (hquota : WithinQuota limits s.records) (op : Operation)
    (hord : Orderly uploadKey limits s op) : SafeStep uploadKey limits s op := by
  have hafter := step_invariant h op hord
  have hkept := step_kept uploadKey limits s op
  refine ⟨?_, ?_, hkept.quota hquota, fun a hactor => later_untouched h hactor _, ?_⟩
  · exact fun lease hmem other hother _ _ hkey => hafter.single lease hmem other hother (.inl hkey)
  · intro key r r' hr hr'
    have howner : r.idle.owner = r'.idle.owner :=
      congrArg owner (hkept.same key r r' hr hr')
    exact howner.symm
  cases op with
  | claim owner d now => exact claim_channel h owner d now hord
  | _ =>
  intro lease hmem hid
  have := leases_of_step h _ (by rintro owner d now ⟨⟩) lease hmem
  omega

end

lemma initial_invariant : LeaseInvariant (initial : Staging κ) := by
  refine ⟨?_, ?_, ?_, ?_, ?_, ?_⟩
  · rintro lease ⟨⟩
  · rintro id ⟨⟩
  · rintro lease ⟨⟩
  · rintro lease ⟨⟩
  · rintro a (⟨⟨⟩⟩ | ⟨⟨⟩⟩)
  · rintro key channel ⟨⟩

variable (uploadKey limits)

/-- Every step of an orderly run is safe. -/
theorem run_safe {operations : List Operation}
    (hrun : Always (Staging.step uploadKey limits) (Orderly uploadKey limits) initial operations) :
    Always (Staging.step uploadKey limits) (SafeStep uploadKey limits) initial operations := by
  have hinit : WithinQuota limits (initial : Staging κ).records := run_withinQuota uploadKey limits []
  exact @Always.of_invariant (Staging κ) Operation (step uploadKey limits)
    (fun s => LeaseInvariant s ∧ WithinQuota limits s.records) (Orderly uploadKey limits)
    (SafeStep uploadKey limits)
    (fun s op h hord => ⟨step_invariant h.1 op hord, (step_kept uploadKey limits s op).quota h.2⟩)
    (fun s op h hord => safeStep h.1 h.2 op hord) initial ⟨initial_invariant, hinit⟩
    operations hrun

end Safety

/-! ## Fixed runs -/

def plainKey (rootId path : String) : String := rootId ++ ":" ++ path

def notes : Descriptor := ⟨"workspace", "notes.txt", "upload-1", "abcd", 8⟩

/-- Two uploads of a path, one after the other, and a cancelled one. -/
def orderlyOperations : List Operation :=
  [.claim "device-a" notes 10, .finish 0 false, .drop 0, .claim "device-a" notes 20,
    .finish 1 true, .finishForget 1, .drop 1, .claim "device-b" notes 30,
    .cancel "device-b" "workspace" "notes.txt" "upload-1", .abort 2, .proceed, .proceed,
    .abortEnter 2, .proceed, .proceed, .claim "device-a" notes 40]

instance (s : Staging String) (key : String) : Decidable (s.closing key) :=
  inferInstanceAs (Decidable ((∃ lease ∈ s.leases, lease.key = key ∧ lease.phase ≠ .claimed) ∨
    ∃ a ∈ s.aborts, a.key = key))

theorem orderlyOperations_safe :
    Always (Staging.step plainKey UploadLimits.standard) (SafeStep plainKey UploadLimits.standard)
      initial orderlyOperations := by
  refine run_safe plainKey UploadLimits.standard ?_
  have hopen : ∀ n ∈ [0, 3, 7, 15],
      ¬ ((initial : Staging String).run plainKey UploadLimits.standard
        (orderlyOperations.take n)).closing (plainKey notes.rootId notes.path) := by
    decide
  exact ⟨fun _ => hopen 0 (by decide), trivial, trivial, fun _ => hopen 3 (by decide), trivial,
    trivial, trivial, fun _ => hopen 7 (by decide), trivial, trivial, trivial, trivial, trivial,
    trivial, trivial, fun _ => hopen 15 (by decide), trivial⟩

/-- The first device's request still holds the lease when the second device claims the path. -/
def overlappingOperations : List Operation :=
  [.claim "device-a" notes 10, .finish 0 true, .finishForget 0, .claim "device-b" notes 20,
    .drop 0, .claim "device-b" notes 30]

/-- The drop of the old lease has made the path free again: two leases are active for it. -/
theorem two_active_leases :
    ((initial : Staging String).run plainKey UploadLimits.standard overlappingOperations).leases.map
        (fun lease => (lease.id, lease.key, lease.phase)) =
      [(1, "workspace:notes.txt", .claimed), (2, "workspace:notes.txt", .claimed)] := by
  decide

end CodeWide.Uploads
