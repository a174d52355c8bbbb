import CodeWide.Accounts.Pool
import Mathlib.Data.List.Nodup
import Mathlib.Data.List.Perm.Basic

/-!
# Sound account pools

A pool is `Sound` if its profile ids are distinct, the flags mark the active profile, and the
priorities number the profiles in their order.
-/

namespace CodeWide.Accounts

open Lib.Saturating List Function AccountProfile

variable {Limits : Type}

def AccountProfile.key (p : AccountProfile Limits) : String × Nat × Bool :=
  (p.id, p.priority, p.active)

def keys (profiles : List (AccountProfile Limits)) : List (String × Nat × Bool) :=
  profiles.map AccountProfile.key

structure Marked (activeProfileId : Option String) (profiles : List (AccountProfile Limits)) :
    Prop where
  ids : (profiles.map AccountProfile.id).Nodup
  active : ∀ p ∈ profiles, p.active = decide (activeProfileId = some p.id)
  named : ∀ id, activeProfileId = some id → id ∈ profiles.map AccountProfile.id

def Numbered (profiles : List (AccountProfile Limits)) : Prop :=
  profiles.map AccountProfile.priority = (range profiles.length).map (min · max32)

structure Sound (pool : PersistedAccountPool Limits) : Prop where
  marked : Marked pool.activeProfileId pool.profiles
  numbered : Numbered pool.profiles

lemma Sound.empty : Sound ({} : PersistedAccountPool Limits) where
  marked := { ids := nodup_nil, active := fun _ h => absurd h not_mem_nil,
              named := fun _ h => absurd h (Option.some_ne_none _).symm }
  numbered := rfl

section Keys

variable {profiles profiles' : List (AccountProfile Limits)}

lemma ids_of_keys (h : keys profiles' = keys profiles) :
    profiles'.map AccountProfile.id = profiles.map AccountProfile.id := by
  have hmap := congrArg (map Prod.fst) h
  simpa [keys, key, comp_def] using hmap

variable {activeProfileId : Option String}

lemma Marked.congr (h : Marked activeProfileId profiles)
    (hkeys : keys profiles' = keys profiles) : Marked activeProfileId profiles' where
  ids := by rw [ids_of_keys hkeys]; exact h.ids
  named := by rw [ids_of_keys hkeys]; exact h.named
  active := fun p hp => by
    have hk : p.key ∈ keys profiles := hkeys ▸ mem_map_of_mem hp
    obtain ⟨q, hq, he⟩ := mem_map.mp hk
    have hid : q.id = p.id := congrArg Prod.fst he
    have hact : q.active = p.active := congrArg (fun k : String × Nat × Bool => k.2.2) he
    rw [← hact, ← hid]
    exact h.active q hq

lemma Numbered.congr (h : Numbered profiles) (hkeys : keys profiles' = keys profiles) :
    Numbered profiles' := by
  have hpri : profiles'.map priority = profiles.map priority := by
    have hmap := congrArg (map fun k : String × Nat × Bool => k.2.1) hkeys
    simpa [keys, key, comp_def] using hmap
  have hlen : profiles'.length = profiles.length := by
    simpa using congrArg length hpri
  rw [Numbered, hpri, hlen]
  exact h

lemma Sound.congr {pool : PersistedAccountPool Limits} (h : Sound pool)
    (hkeys : keys profiles' = keys pool.profiles) : Sound { pool with profiles := profiles' } where
  marked := h.marked.congr hkeys
  numbered := h.numbered.congr hkeys

lemma keys_modifyProfile {id : String} {f : AccountProfile Limits → AccountProfile Limits}
    (hf : ∀ p ∈ profiles, p.id = id → (f p).key = p.key) :
    keys (modifyProfile id f profiles) = keys profiles := by
  induction profiles with
  | nil => rfl
  | cons p rest ih =>
  rw [modifyProfile]
  split
  · simp only [keys, map_cons, hf p mem_cons_self ‹_›]
  · have hrest := ih fun q hq => hf q (mem_cons_of_mem _ hq)
    simp only [keys, map_cons] at hrest ⊢
    rw [hrest]

lemma keys_modify_found {id : String} {p q : AccountProfile Limits}
    (hfind : profiles.find? (fun p => decide (p.id = id)) = some p) (hkey : q.key = p.key) :
    keys (modifyProfile p.id (fun _ => q) profiles) = keys profiles := by
  have hid : p.id = id := by simpa using find?_some hfind
  subst hid
  induction profiles with
  | nil => rfl
  | cons r rest ih =>
  rw [modifyProfile]
  by_cases hr : r.id = p.id
  · rw [find?_cons_of_pos (by simpa using hr)] at hfind
    obtain rfl := Option.some.inj hfind
    simp only [if_true, keys, map_cons, hkey]
  rw [find?_cons_of_neg (by simpa using hr)] at hfind
  have hrest := ih hfind
  simp only [keys, if_neg hr, map_cons] at hrest ⊢
  rw [hrest]

lemma modify_found_self {id : String} {p : AccountProfile Limits}
    (hfind : profiles.find? (fun p => decide (p.id = id)) = some p) :
    modifyProfile p.id (fun _ => p) profiles = profiles := by
  have hid : p.id = id := by simpa using find?_some hfind
  subst hid
  induction profiles with
  | nil => rfl
  | cons r rest ih =>
  rw [modifyProfile]
  by_cases hr : r.id = p.id
  · rw [find?_cons_of_pos (by simpa using hr)] at hfind
    obtain rfl := Option.some.inj hfind
    rw [if_pos rfl]
  · rw [find?_cons_of_neg (by simpa using hr)] at hfind
    rw [if_neg hr, ih hfind]

lemma Marked.perm (h : Marked activeProfileId profiles)
    (hperm : profiles'.Perm profiles) : Marked activeProfileId profiles' where
  ids := (hperm.map _).nodup_iff.mpr h.ids
  active := fun p hp => h.active p (hperm.mem_iff.mp hp)
  named := fun id hid => (hperm.map _).mem_iff.mpr (h.named id hid)

end Keys

lemma Marked.normalize {activeProfileId : Option String} {profiles : List (AccountProfile Limits)}
    (h : Marked activeProfileId profiles) :
    Sound { activeProfileId := activeProfileId, profiles := normalizePriorities profiles } := by
  have hsort := h.perm (perm_insertionSort (fun p q => p.priority ≤ q.priority) profiles)
  rw [normalizePriorities]
  generalize (profiles.insertionSort fun p q => p.priority ≤ q.priority) = sorted at hsort ⊢
  have hids : (sorted.mapIdx fun i p => { p with priority := min i max32 }).map AccountProfile.id =
      sorted.map AccountProfile.id :=
    ext_getElem (by simp) fun i hi hi' => by simp
  refine { marked := { ids := ?_, active := ?_, named := ?_ }, numbered := ?_ }
  · exact hids ▸ hsort.ids
  · intro p hp
    obtain ⟨i, hi, rfl⟩ := mem_mapIdx.mp hp
    exact hsort.active sorted[i] (getElem_mem hi)
  · exact fun id hid => hids ▸ hsort.named id hid
  · exact ext_getElem (by simp) fun i hi hi' => by simp

lemma ids_normalizePriorities (profiles : List (AccountProfile Limits)) :
    ((normalizePriorities profiles).map AccountProfile.id).Perm
      (profiles.map AccountProfile.id) := by
  have hids : (normalizePriorities profiles).map AccountProfile.id =
      (profiles.insertionSort fun p q => p.priority ≤ q.priority).map AccountProfile.id :=
    ext_getElem (by simp [normalizePriorities]) fun i hi hi' => by simp [normalizePriorities]
  rw [hids]
  exact (perm_insertionSort _ _).map _

lemma Numbered.concat {profiles : List (AccountProfile Limits)} (h : Numbered profiles)
    {p : AccountProfile Limits} (hp : p.priority = min profiles.length max32) :
    Numbered (profiles ++ [p]) := by
  rw [Numbered, map_append, h, length_append, length_singleton, range_succ,
    map_append, map_singleton, map_singleton, hp]

lemma Numbered.pairwise {profiles : List (AccountProfile Limits)} (h : Numbered profiles) :
    profiles.Pairwise fun p q => p.priority ≤ q.priority := by
  refine pairwise_map.mp (?_ : (profiles.map priority).Pairwise (· ≤ ·))
  rw [h, pairwise_map]
  refine (pairwise_lt_range).imp fun {i j} hij => ?_
  omega

variable (rules : LimitRules Limits)

lemma applyObservation_key (p : AccountProfile Limits)
    (result : AccountProfile.AccountResult) (rateSnapshot : Option Limits) (authoritative : Bool)
    (observedAt : Int) :
    (p.applyObservation rules result rateSnapshot authoritative observedAt).1.key = p.key := by
  cases rateSnapshot with
  | none => rfl
  | some snapshot =>
  simp only [applyObservation]
  split
  · rfl
  · rfl
  · split <;> rfl

lemma applyRefreshed_key (result : AccountProfile.AccountResult)
    (rateSnapshot : Limits) (observedAt : Int) (p : AccountProfile Limits)
    (recovered : Option (Nat × String)) :
    (applyRefreshed rules result rateSnapshot observedAt p recovered).1.key = p.key := by
  have h := applyObservation_key rules p result (some rateSnapshot) true observedAt
  simp only [applyRefreshed]
  split <;> exact h

variable {s : RuntimeState Limits}

lemma setActive_sound {id : String} (hids : (s.persisted.profiles.map AccountProfile.id).Nodup)
    (hnum : Numbered s.persisted.profiles) (hmem : id ∈ s.persisted.profiles.map AccountProfile.id) :
    Sound (setActiveProfile s id).persisted := by
  have hsame : (s.persisted.profiles.map fun p => { p with active := decide (p.id = id) }).map
      AccountProfile.id = s.persisted.profiles.map AccountProfile.id := by
    simp [comp_def]
  refine { marked := { ids := ?_, active := ?_, named := ?_ }, numbered := ?_ }
  · exact hsame ▸ hids
  · intro p hp
    obtain ⟨q, -, rfl⟩ := mem_map.mp hp
    simp [setActiveProfile, eq_comm]
  · intro id' h
    obtain rfl := Option.some.inj h
    exact hsame ▸ hmem
  · simpa [Numbered, setActiveProfile, comp_def] using hnum

section Present

variable {profiles : List (AccountProfile Limits)} {id : String}

lemma mem_pushNew (p : AccountProfile Limits) :
    p.id ∈ (pushNew profiles p).map AccountProfile.id := by
  rw [pushNew]
  split
  · assumption
  · simp

lemma nodup_pushNew (h : (profiles.map AccountProfile.id).Nodup) (p : AccountProfile Limits) :
    ((pushNew profiles p).map AccountProfile.id).Nodup := by
  rw [pushNew]
  split
  · exact h
  next hnew =>
  rw [map_append, map_singleton]
  refine nodup_append.mpr ⟨h, nodup_singleton _, fun a ha b hb he => hnew ?_⟩
  rwa [← mem_singleton.mp hb, ← he]

variable {p : AccountProfile Limits}

lemma Numbered.pushNew (h : Numbered profiles)
    (hp : p.priority = min profiles.length max32) : Numbered (Accounts.pushNew profiles p) := by
  rw [Accounts.pushNew]
  split
  · exact h
  · exact h.concat hp

lemma Marked.pushNew {activeProfileId : Option String} (h : Marked activeProfileId profiles)
    (hp : p.active = false) :
    Marked activeProfileId (Accounts.pushNew profiles p) where
  ids := nodup_pushNew h.ids p
  active := fun q hq => by
    rw [Accounts.pushNew] at hq
    split at hq
    · exact h.active q hq
    next hnew =>
    rcases mem_append.mp hq with hq | hq
    · exact h.active q hq
    · -- a new profile is not the active one, which is known
      obtain rfl := mem_singleton.mp hq
      exact hp.trans (decide_eq_false fun hname => hnew (h.named _ hname)).symm
  named := fun id hid => by
    rw [Accounts.pushNew]
    split
    · exact h.named id hid
    · rw [map_append]
      exact mem_append_left _ (h.named id hid)

lemma mem_of_find {pool : PersistedAccountPool Limits}
    (h : find pool id = some p) : p ∈ pool.profiles ∧ p.id = id :=
  ⟨mem_of_find?_eq_some h, by simpa using find?_some h⟩

end Present

lemma capturedState_sound (h : Sound s.persisted) (id : String)
    (now : Int) : Sound (capturedState s id now).persisted := by
  have hset : ∀ (s' : RuntimeState Limits) (p : AccountProfile Limits), p.id = id →
      p.priority = min s.persisted.profiles.length max32 →
      s'.persisted.profiles = pushNew s.persisted.profiles p →
      Sound (setActiveProfile s' id).persisted := by
    rintro s' p rfl hp hs'
    refine setActive_sound ?_ ?_ ?_ <;> rw [hs']
    · exact nodup_pushNew h.marked.ids p
    · exact h.numbered.pushNew hp
    · exact mem_pushNew p
  simp only [capturedState]
  split
  · exact (hset _ _ rfl rfl rfl).marked.normalize
  · exact hset _ _ rfl rfl rfl

lemma activatedState_sound (h : Sound s.persisted)
    (rules : LimitRules Limits) {id : String} (hid : id ∈ s.persisted.profiles.map AccountProfile.id)
    (a : Activation Limits) : Sound (activatedState rules s id a).persisted := by
  have hset := setActive_sound h.marked.ids h.numbered hid
  refine hset.congr (keys_modifyProfile fun p _ _ => ?_)
  rcases a.observation with e | ⟨result, rateSnapshot⟩
  · rfl
  · exact applyObservation_key _ _ _ _ _ _

lemma enrolledState_sound (h : Sound s.persisted)
    (rules : LimitRules Limits) (id : String) (e : Enrolment Limits) :
    Sound (enrolledState rules s id e).persisted ∧
      id ∈ (enrolledState rules s id e).persisted.profiles.map AccountProfile.id := by
  have hkeys := fun profiles : List (AccountProfile Limits) =>
    @keys_modifyProfile Limits profiles id
      (fun p => (p.applyObservation rules e.result e.rateSnapshot true e.observedAt).1)
      fun p _ _ => applyObservation_key _ _ _ _ _ _
  refine ⟨((h.marked.pushNew rfl).congr (hkeys _)).normalize, ?_⟩
  simp only [enrolledState]
  rw [(ids_normalizePriorities _).mem_iff, ids_of_keys (hkeys _)]
  exact mem_pushNew _

lemma moveTo_perm (profiles : List (AccountProfile Limits)) (index target : Nat) :
    (moveTo profiles index target).Perm profiles := by
  rw [moveTo]
  split
  · exact List.Perm.refl _
  next p hp =>
  obtain ⟨hlt, rfl⟩ := List.getElem?_eq_some_iff.mp hp
  have hlen : min target (profiles.length - 1) ≤ (profiles.eraseIdx index).length := by
    rw [List.length_eraseIdx_of_lt hlt]
    omega
  refine (List.perm_insertIdx _ _ hlen).trans ?_
  exact (List.getElem_cons_eraseIdx_perm hlt)

lemma updatedState_sound (h : Sound s.persisted) (index : Nat)
    (enabled : Option Bool) (priority : Option Nat) :
    Sound (updatedState s index enabled priority).persisted := by
  cases enabled with
  | none =>
    cases priority with
    | none => exact h.marked.normalize
    | some priority => exact (h.marked.perm (moveTo_perm _ index priority)).normalize
  | some enabled =>
  have henabled : Marked s.persisted.activeProfileId
      (s.persisted.profiles.modify index fun p => { p with enabled }) := by
    refine h.marked.congr ?_
    refine ext_getElem (by simp [keys]) fun i hi hi' => ?_
    simp only [keys, getElem_map, getElem_modify]
    split <;> rfl
  cases priority with
  | none => exact henabled.normalize
  | some priority => exact (henabled.perm (moveTo_perm _ index priority)).normalize

lemma removedState_sound (h : Sound s.persisted) {id : String}
    (hid : s.persisted.activeProfileId ≠ some id) : Sound (removedState s id).persisted := by
  obtain ⟨hids, hact, hnamed⟩ := h.marked
  refine Marked.normalize { ids := ?_, active := ?_, named := ?_ }
  · exact hids.sublist (filter_sublist.map _)
  · exact fun p hp => hact p (mem_of_mem_filter hp)
  intro id' hname
  obtain ⟨p, hp, rfl⟩ := mem_map.mp (hnamed id' hname)
  refine mem_map_of_mem (mem_filter.mpr ⟨hp, decide_eq_true fun he => hid ?_⟩)
  rw [hname, he]

lemma refreshedPool_sound {pool : PersistedAccountPool Limits} (h : Sound pool)
    (rules : LimitRules Limits) (results : String → ProfileRefresh Limits) (observedAt : Int) :
    Sound (refreshedPool rules results observedAt pool).1 ∧
      (refreshedPool rules results observedAt pool).1.activeProfileId = pool.activeProfileId := by
  have hobs : ∀ (ids : List String) acc,
      keys (ids.foldl (observeProfile rules results observedAt) acc).1 = keys acc.1 := by
    intro ids
    induction ids with
    | nil => exact fun acc => rfl
    | cons id ids ih =>
    intro acc
    rw [foldl_cons, ih]
    unfold observeProfile
    split
    · rfl
    split
    · rfl
    · next p hfind =>
      exact keys_modify_found hfind (applyRefreshed_key _ _ _ _ _ _)
  have hmark : ∀ (ids : List String) profiles,
      keys (ids.foldl (markFailed results) profiles) = keys profiles := by
    intro ids
    induction ids with
    | nil => exact fun profiles => rfl
    | cons id ids ih =>
    intro profiles
    rw [foldl_cons, ih]
    unfold markFailed
    split
    · exact keys_modifyProfile fun p _ _ => rfl
    · rfl
  exact ⟨h.congr ((hmark _ _).trans (hobs _ _)), rfl⟩

end CodeWide.Accounts
