import CodeWide.Content.Persistence

/-!
# Stored content stays loadable

Each operation of the memory cache keeps what it holds, or removes one id.
-/

namespace CodeWide.Content

open Lib List MemoryCache
open Option (some_ne_none)
open Bool (noConfusion)

namespace MemoryCache

variable {cache : MemoryCache} {id other : String}

structure Sound (cache : MemoryCache) : Prop where
  ids : (cache.values.map (fun content => content.id)).Nodup
  counter : cache.bytes = (cache.values.map (fun content => content.length)).sum

lemma has_iff : cache.has id = true ↔ cache.Holds id := by
  unfold has find? Holds
  rw [find?_isSome]
  simp

/-! ## A value changes -/

section Modify

variable {f : CachedContent → CachedContent}

lemma mem_modify {content : CachedContent} (h : content ∈ (cache.modify id f).values) :
    ∃ old ∈ cache.values, (old.id = id ∧ content = f old) ∨ (old.id ≠ id ∧ content = old) := by
  obtain ⟨old, hmem, rfl⟩ := mem_map.mp h
  refine ⟨old, hmem, ?_⟩
  by_cases hid : old.id = id
  · exact .inl ⟨hid, if_pos hid⟩
  · exact .inr ⟨hid, if_neg hid⟩

lemma modify_mem {old : CachedContent} (h : old ∈ cache.values) :
    (if old.id = id then f old else old) ∈ (cache.modify id f).values :=
  mem_map_of_mem h

lemma map_modify {β : Type} (g : CachedContent → β) (hg : ∀ content, g (f content) = g content) :
    (cache.modify id f).values.map g = cache.values.map g := by
  unfold modify
  rw [map_map]
  refine map_congr_left ?_
  intro content _
  simp only [Function.comp]
  split
  · exact hg content
  · rfl

lemma Sound.modify (h : Sound cache) (hid : ∀ content, (f content).id = content.id)
    (hlength : ∀ content, (f content).length = content.length) : Sound (cache.modify id f) where
  ids := by
    rw [map_modify _ hid]
    exact h.ids
  counter := by
    rw [map_modify _ hlength]
    exact h.counter

lemma Holds.modify (hid : ∀ content, (f content).id = content.id) (h : cache.Holds other) :
    (cache.modify id f).Holds other := by
  obtain ⟨content, hmem, rfl⟩ := h
  refine ⟨_, modify_mem hmem, ?_⟩
  split
  · exact hid content
  · rfl

lemma HoldsFallback.modify (hid : ∀ content, (f content).id = content.id)
    (hret : ∀ content, content.retention = .fallback → (f content).retention = .fallback)
    (h : cache.HoldsFallback other) : (cache.modify id f).HoldsFallback other := by
  obtain ⟨content, hmem, rfl, hfall⟩ := h
  refine ⟨_, modify_mem hmem, ?_⟩
  split
  · exact ⟨hid content, hret content hfall⟩
  · exact ⟨rfl, hfall⟩

end Modify

/-! ## A value is removed -/

variable {content : CachedContent}

lemma mem_remove (h : content ∈ (cache.remove id).values) :
    content ∈ cache.values ∧ content.id ≠ id := by
  unfold remove find? at h
  split at h
  · rename_i hnone
    refine ⟨h, ?_⟩
    simpa using find?_eq_none.mp hnone content h
  · have hfilt := mem_filter.mp h
    exact ⟨hfilt.1, by simpa using hfilt.2⟩

lemma remove_mem (h : content ∈ cache.values) (hne : content.id ≠ id) :
    content ∈ (cache.remove id).values := by
  unfold remove
  split
  · exact h
  · exact mem_filter.mpr ⟨h, by simpa using hne⟩

lemma Sound.remove (h : Sound cache) : Sound (cache.remove id) := by
  unfold MemoryCache.remove
  split
  · exact h
  rename_i removed hfound
  obtain ⟨hid, before, after, hvals, hbef⟩ := find?_eq_some_iff_append.mp hfound
  have hrem : removed.id = id := by simpa using hid
  have hids := h.ids
  rw [hvals, map_append, map_cons] at hids
  have hafter : ∀ content ∈ after, content.id ≠ id := by
    intro content hmem heq
    rw [nodup_append] at hids
    exact (nodup_cons.mp hids.2.1).1 (hrem ▸ heq ▸ mem_map_of_mem hmem)
  have hfilter : cache.values.filter (fun content => content.id != id) = before ++ after := by
    rw [hvals, filter_append, filter_cons_of_neg (by simp [hrem])]
    rw [filter_eq_self.mpr, filter_eq_self.mpr]
    · exact fun content hmem => by simpa using hafter content hmem
    · exact fun content hmem => by simpa using hbef content hmem
  constructor
  · simp only
    rw [hfilter, map_append]
    exact hids.sublist (List.Sublist.append_left (sublist_cons_self _ _) _)
  have hcounter := h.counter
  simp only
  rw [hfilter, hcounter, hvals]
  simp only [map_append, map_cons, sum_append, sum_cons]
  omega

lemma Holds.remove (h : cache.Holds other) (hne : other ≠ id) : (cache.remove id).Holds other := by
  obtain ⟨content, hmem, rfl⟩ := h
  exact ⟨content, remove_mem hmem hne, rfl⟩

lemma HoldsFallback.remove (h : cache.HoldsFallback other) (hne : other ≠ id) :
    (cache.remove id).HoldsFallback other := by
  obtain ⟨content, hmem, rfl, hfall⟩ := h
  exact ⟨content, remove_mem hmem hne, rfl, hfall⟩

lemma remove_of_not_has (h : cache.has id = false) : cache.remove id = cache := by
  unfold has at h
  unfold remove
  rw [Option.isSome_eq_false_iff, Option.isNone_iff_eq_none] at h
  rw [h]

/-! ## A value is put -/

lemma evict_of_room {length : Nat} (h : cache.bytes + length ≤ maxMemoryBytes) (fuel : Nat) :
    cache.evict length fuel = cache := by
  cases fuel with
  | zero => rfl
  | succ fuel => exact if_pos h

lemma remember_cases {length : Nat} {retention : ContentRetention}
    (hlength : length ≤ maxMemoryBytes)
    (hroom : cache.has id = true ∨ cache.bytes + length ≤ maxMemoryBytes) :
    (cache.Holds id ∧ cache.remember id length .memoryOnly retention =
      modify { cache with clock := cache.clock + 1 } id
        (touch (cache.clock + 1) .memoryOnly retention)) ∨
    (¬ cache.Holds id ∧ cache.remember id length .memoryOnly retention =
      { values := cache.values ++ [⟨id, length, cache.clock + 1, .memoryOnly, retention⟩]
        bytes := cache.bytes + length
        clock := cache.clock + 1 }) := by
  unfold remember
  rw [if_neg (Nat.not_lt.mpr hlength)]
  by_cases hhas : cache.has id = true
  · exact .inl ⟨has_iff.mp hhas, if_pos hhas⟩
  refine .inr ⟨fun hholds => hhas (has_iff.mpr hholds), ?_⟩
  have hbytes := hroom.resolve_left hhas
  simp only
  rw [if_neg (by exact hhas), evict_of_room (by exact hbytes)]

section Remember

variable {length : Nat} {retention : ContentRetention}
  (hlength : length ≤ maxMemoryBytes)
  (hroom : cache.has id = true ∨ cache.bytes + length ≤ maxMemoryBytes)

include hlength hroom

lemma Sound.remember (h : Sound cache) :
    Sound (cache.remember id length .memoryOnly retention) := by
  rcases remember_cases hlength hroom with ⟨-, heq⟩ | ⟨hnot, heq⟩
  · rw [heq]
    exact Sound.modify ⟨h.ids, h.counter⟩ (fun _ => rfl) (fun _ => rfl)
  rw [heq]
  constructor
  · rw [map_append, nodup_append]
    refine ⟨h.ids, nodup_singleton _, ?_⟩
    intro old hold new hnew
    obtain ⟨content, hmem, rfl⟩ := mem_map.mp hold
    rw [mem_singleton.mp hnew]
    exact fun hid => hnot ⟨content, hmem, hid⟩
  · simp [h.counter]

lemma Holds.remember (h : cache.Holds other) :
    (cache.remember id length .memoryOnly retention).Holds other := by
  rcases remember_cases hlength hroom with ⟨-, heq⟩ | ⟨-, heq⟩
  · rw [heq]
    exact Holds.modify (fun _ => rfl) h
  · rw [heq]
    obtain ⟨content, hmem, hid⟩ := h
    exact ⟨content, mem_append_left _ hmem, hid⟩

lemma HoldsFallback.remember (h : cache.HoldsFallback other) :
    (cache.remember id length .memoryOnly retention).HoldsFallback other := by
  rcases remember_cases hlength hroom with ⟨-, heq⟩ | ⟨-, heq⟩
  · rw [heq]
    refine HoldsFallback.modify (fun _ => rfl) ?_ h
    intro content hfall
    unfold touch
    simp [hfall]
  · rw [heq]
    obtain ⟨content, hmem, hid⟩ := h
    exact ⟨content, mem_append_left _ hmem, hid⟩

lemma holds_remember : (cache.remember id length .memoryOnly retention).Holds id ∧
    (retention = .fallback →
      (cache.remember id length .memoryOnly retention).HoldsFallback id) := by
  rcases remember_cases hlength hroom with ⟨hholds, heq⟩ | ⟨-, heq⟩
  · rw [heq]
    obtain ⟨content, hmem, hid⟩ := hholds
    refine ⟨Holds.modify (fun _ => rfl) ⟨content, hmem, hid⟩, ?_⟩
    rintro rfl
    refine ⟨_, modify_mem hmem, ?_⟩
    rw [if_pos hid]
    exact ⟨hid, rfl⟩
  · rw [heq]
    refine ⟨⟨_, mem_concat_self, rfl⟩, ?_⟩
    exact fun hfall => ⟨_, mem_concat_self, rfl, hfall⟩

lemma mem_remember {content : CachedContent}
    (h : content ∈ (cache.remember id length .memoryOnly retention).values) :
    content.persistence = .memoryOnly ∨
      ∃ old ∈ cache.values, old.id = content.id ∧ old.persistence = content.persistence := by
  rcases remember_cases hlength hroom with ⟨-, heq⟩ | ⟨-, heq⟩
  · rw [heq] at h
    obtain ⟨old, hmem, ⟨-, rfl⟩ | ⟨-, rfl⟩⟩ := mem_modify h
    · exact .inr ⟨old, hmem, rfl, rfl⟩
    · exact .inr ⟨content, hmem, rfl, rfl⟩
  rw [heq] at h
  rcases mem_concat.mp h with hmem | hmem
  · exact .inr ⟨content, hmem, rfl, rfl⟩
  · rw [hmem]
    exact .inl rfl

end Remember

end MemoryCache

namespace System

variable {s s' : System}

/-! ## The invariant -/

structure Inv (s : System) : Prop where
  memory : s.memory.Sound
  promised : ∀ id ∈ s.promised, s.Loadable id
  fallbackPuts : ∀ id ∈ s.fallbackPuts, s.memory.HoldsFallback id ∨ id ∈ s.fallback ∨ id ∈ s.proven
  wrote : ∀ request retention written, s.worker = .wrote request retention written →
    (written = .stored → request.id ∈ s.files retention) ∧
      (written = .proven → request.id ∈ s.proven)
  since : s.worker.isPruning = true → ∀ put ∈ s.since, s.memory.Holds put.1 ∧
    (put.2 = .fallback → s.memory.HoldsFallback put.1)
  waiting : ∀ content ∈ s.memory.values, content.persistence = .memoryOnly ∨ s.OnItsWay content.id

lemma Inv.kept (h : Inv s) : Kept s :=
  ⟨h.memory.counter, h.promised, h.fallbackPuts, h.waiting⟩

lemma inv_initial (fallback replay : List String) : Inv (initial fallback replay) where
  memory := ⟨nodup_nil, rfl⟩
  promised := fun _ hmem => absurd hmem not_mem_nil
  fallbackPuts := fun _ hmem => absurd hmem not_mem_nil
  wrote := fun _ _ _ hwk => WorkerStage.noConfusion hwk
  since := fun hprune => Bool.noConfusion hprune
  waiting := fun _ hmem => absurd hmem not_mem_nil

lemma Inv.of_grows (h : Inv s) (hsound : s'.memory.Sound)
    (hholds : ∀ id, s.memory.Holds id → s'.memory.Holds id)
    (hfall : ∀ id, s.memory.HoldsFallback id → s'.memory.HoldsFallback id)
    (hfiles : s'.fallback = s.fallback ∧ s'.replay = s.replay)
    (hprov : ∀ id ∈ s.proven, id ∈ s'.proven)
    (hpromises : s'.promised = s.promised ∧ s'.fallbackPuts = s.fallbackPuts)
    (hwrote : ∀ request retention written, s'.worker = .wrote request retention written →
      (written = .stored → request.id ∈ s'.files retention) ∧
        (written = .proven → request.id ∈ s'.proven))
    (hprune : s'.worker.isPruning = true → s.worker.isPruning = true ∧ s'.since = s.since)
    (hwait : ∀ content ∈ s'.memory.values,
      content.persistence = .memoryOnly ∨ s'.OnItsWay content.id) : Inv s' := by
  refine ⟨hsound, ?_, ?_, hwrote, ?_, hwait⟩
  · rw [hpromises.1]
    intro id hmem
    unfold Loadable
    rw [hfiles.1, hfiles.2]
    rcases h.promised id hmem with hmemo | hknown | hfile
    · exact .inl (hholds id hmemo)
    · exact .inr (.inl (hprov id hknown))
    · exact .inr (.inr hfile)
  · rw [hpromises.2, hfiles.1]
    intro id hmem
    rcases h.fallbackPuts id hmem with hmemo | hfile | hknown
    · exact .inl (hfall id hmemo)
    · exact .inr (.inl hfile)
    · exact .inr (.inr (hprov id hknown))
  intro hnow put hmem
  obtain ⟨hbef, hsame⟩ := hprune hnow
  rw [hsame] at hmem
  obtain ⟨hin, hwanted⟩ := h.since hbef put hmem
  exact ⟨hholds _ hin, fun hret => hfall _ (hwanted hret)⟩

lemma Inv.waiting_of (h : Inv s)
    (hold : ∀ content ∈ s'.memory.values, content.persistence = .memoryOnly ∨
      s'.OnItsWay content.id ∨
      ∃ old ∈ s.memory.values, old.id = content.id ∧ old.persistence = content.persistence)
    (hway : ∀ content ∈ s'.memory.values, s.OnItsWay content.id → s'.OnItsWay content.id ∨
      content.persistence = .memoryOnly) :
    ∀ content ∈ s'.memory.values, content.persistence = .memoryOnly ∨ s'.OnItsWay content.id := by
  intro content hmem
  rcases hold content hmem with honly | hnow | ⟨old, hin, hid, hsame⟩
  · exact .inl honly
  · exact .inr hnow
  rcases h.waiting old hin with honly | hwas
  · exact .inl (hsame ▸ honly)
  · rw [hid] at hwas
    exact (hway content hmem hwas).symm

/-! ## Puts and loads -/

lemma Inv.put (h : Inv s) {id : String} {length : Nat} (hlength : length ≤ maxMemoryBytes)
    (hroom : s.memory.has id = true ∨ s.memory.bytes + length ≤ maxMemoryBytes)
    (retention : ContentRetention) : Inv (s.put id length retention) := by
  obtain ⟨hnow, hnowFallback⟩ :=
    @holds_remember s.memory id length retention hlength hroom
  have hholds : ∀ other, s.memory.Holds other →
      (s.memory.remember id length .memoryOnly retention).Holds other :=
    fun _ hin => hin.remember hlength hroom
  have hfall : ∀ other, s.memory.HoldsFallback other →
      (s.memory.remember id length .memoryOnly retention).HoldsFallback other :=
    fun _ hin => hin.remember hlength hroom
  refine ⟨h.memory.remember hlength hroom, ?_, ?_, h.wrote, ?_, ?_⟩
  · intro other hmem
    rcases mem_concat.mp hmem with hmem | hmem
    · rcases h.promised other hmem with hin | hrest
      · exact .inl (hholds other hin)
      · exact .inr hrest
    · rw [hmem]
      exact .inl hnow
  · intro other hmem
    have hcases : other ∈ s.fallbackPuts ∨ (retention = .fallback ∧ other = id) := by
      simp only [System.put] at hmem
      split at hmem
      · rename_i hwanted
        rcases mem_concat.mp hmem with hmem | hmem
        · exact .inl hmem
        · exact .inr ⟨hwanted, hmem⟩
      · exact .inl hmem
    rcases hcases with hmem | ⟨hwanted, rfl⟩
    · rcases h.fallbackPuts other hmem with hin | hrest
      · exact .inl (hfall other hin)
      · exact .inr hrest
    · exact .inl (hnowFallback hwanted)
  · intro hprune put hmem
    rcases mem_concat.mp hmem with hmem | hmem
    · obtain ⟨hin, hwanted⟩ := h.since hprune put hmem
      exact ⟨hholds _ hin, fun hret => hfall _ (hwanted hret)⟩
    · rw [hmem]
      exact ⟨hnow, hnowFallback⟩
  refine h.waiting_of ?_ ?_
  · intro content hmem
    rcases mem_remember hlength hroom hmem with honly | hold
    · exact .inl honly
    · exact .inr (.inr hold)
  · rintro content - (⟨put, hmem, hrest⟩ | hrest)
    · exact .inl (.inl ⟨put, mem_append_left _ hmem, hrest⟩)
    · exact .inl (.inr hrest)

variable {id : String}

lemma Inv.of_modify (h : Inv s) {f : CachedContent → CachedContent}
    (hmemo : s'.memory = s.memory.modify id f) (hid : ∀ content, (f content).id = content.id)
    (hlength : ∀ content, (f content).length = content.length)
    (hret : ∀ content, (f content).retention = content.retention)
    (hfiles : s'.fallback = s.fallback ∧ s'.replay = s.replay) (hprov : s'.proven = s.proven)
    (hpromises : s'.promised = s.promised ∧ s'.fallbackPuts = s.fallbackPuts)
    (hwrote : ∀ request retention written, s'.worker = .wrote request retention written →
      s.worker = .wrote request retention written)
    (hprune : s'.worker.isPruning = true → s.worker.isPruning = true) (hsince : s'.since = s.since)
    (hvalue : ∀ content, content.id = id → (f content).persistence = .memoryOnly ∨
      s'.OnItsWay id ∨ (f content).persistence = content.persistence)
    (hway : ∀ other, s.OnItsWay other → s'.OnItsWay other ∨
      (other = id ∧ ∀ content, (f content).persistence = .memoryOnly)) : Inv s' := by
  refine h.of_grows ?_ ?_ ?_ hfiles (fun _ hknown => by rw [hprov]; exact hknown) hpromises ?_
    (fun hnow => ⟨hprune hnow, hsince⟩) ?_
  · rw [hmemo]
    exact h.memory.modify hid hlength
  · rw [hmemo]
    exact fun _ hin => hin.modify hid
  · rw [hmemo]
    exact fun _ hin => hin.modify hid (fun content hwanted => (hret content).trans hwanted)
  · intro request retention written hwk
    have hold := h.wrote request retention written (hwrote request retention written hwk)
    rw [hprov]
    refine ⟨fun hsto => ?_, hold.2⟩
    cases retention with
    | fallback =>
      have hin := hold.1 hsto
      unfold files at hin ⊢
      rw [hfiles.1]
      exact hin
    | replay =>
    have hin := hold.1 hsto
    unfold files at hin ⊢
    rw [hfiles.2]
    exact hin
  refine h.waiting_of ?_ ?_
  · intro content hmem
    rw [hmemo] at hmem
    obtain ⟨old, hin, ⟨hsame, rfl⟩ | ⟨-, rfl⟩⟩ := mem_modify hmem
    · rcases hvalue old hsame with honly | hnow | hkept
      · exact .inl honly
      · rw [hid, hsame]
        exact .inr (.inl hnow)
      · exact .inr (.inr ⟨old, hin, (hid old).symm, hkept.symm⟩)
    · exact .inr (.inr ⟨content, hin, rfl, rfl⟩)
  intro content hmem hwas
  rcases hway content.id hwas with hnow | ⟨hsame, honly⟩
  · exact .inl hnow
  rw [hmemo] at hmem
  obtain ⟨old, hin, ⟨-, rfl⟩ | ⟨hne, rfl⟩⟩ := mem_modify hmem
  · exact .inr (honly old)
  · exact absurd hsame hne

lemma Inv.of_moved (h : Inv s) (hmemo : s'.memory = s.memory)
    (hfiles : s'.fallback = s.fallback ∧ s'.replay = s.replay)
    (hprov : ∀ id ∈ s.proven, id ∈ s'.proven)
    (hpromises : s'.promised = s.promised ∧ s'.fallbackPuts = s.fallbackPuts)
    (hwrote : ∀ request retention written, s'.worker = .wrote request retention written →
      (written = .stored → request.id ∈ s'.files retention) ∧
        (written = .proven → request.id ∈ s'.proven))
    (hprune : s'.worker.isPruning = true → s.worker.isPruning = true ∧ s'.since = s.since)
    (hway : ∀ id, s.OnItsWay id → s'.OnItsWay id) : Inv s' := by
  refine h.of_grows ?_ ?_ ?_ hfiles hprov hpromises hwrote hprune ?_
  · rw [hmemo]
    exact h.memory
  · rw [hmemo]
    exact fun _ hin => hin
  · rw [hmemo]
    exact fun _ hin => hin
  · rw [hmemo]
    exact fun content hmem => (h.waiting content hmem).imp_right (hway content.id)

section Puts

variable {before after : List Put} {put : Put}

lemma way_of_replaced (hputs : s.puts = before ++ put :: after) (new : List Put)
    (hputs' : s'.puts = before ++ new ++ after)
    (hwr : ∀ request ∈ s.writes, request ∈ s'.writes) (hwk : s'.worker = s.worker)
    (hput : put.stage ≠ .remembered → s'.OnItsWay put.request.id) {id : String}
    (h : s.OnItsWay id) : s'.OnItsWay id := by
  rcases h with ⟨other, hmem, hid, hstage⟩ | ⟨request, hmem, hid⟩ | hcur
  · rw [hputs] at hmem
    rcases mem_append.mp hmem with hmem | hmem
    · refine .inl ⟨other, ?_, hid, hstage⟩
      rw [hputs']
      simp [hmem]
    rcases mem_cons.mp hmem with rfl | hmem
    · rw [← hid]
      exact hput hstage
    · refine .inl ⟨other, ?_, hid, hstage⟩
      rw [hputs']
      simp [hmem]
  · exact .inr (.inl ⟨request, hwr request hmem, hid⟩)
  · rw [← hwk] at hcur
    exact .inr (.inr hcur)

lemma Inv.goOn (h : Inv s) (hputs : s.puts = before ++ put :: after) :
    Inv (s.goOn before.length put) := by
  have herase : s.puts.eraseIdx before.length = before ++ [] ++ after := by
    rw [hputs, eraseIdx_append_of_length_le le_rfl, Nat.sub_self, append_nil]
    rfl
  have hset (new : Put) : s.puts.set before.length new = before ++ [new] ++ after := by
    rw [hputs, set_append_right _ _ le_rfl, Nat.sub_self, append_assoc]
    rfl
  obtain ⟨request, stage⟩ := put
  cases stage with
  | remembered =>
    have hway (t : System) (new : List Put) (ht : t.puts = before ++ new ++ after)
        (hwr : t.writes = s.writes) (hwk : t.worker = s.worker) {id : String}
        (hwas : s.OnItsWay id) : t.OnItsWay id :=
      way_of_replaced hputs new ht (fun _ hmem => by rw [hwr]; exact hmem) hwk
        (fun hne => absurd rfl hne) hwas
    simp only [System.goOn, queuePersistence]
    cases hfound : s.memory.find? request.id with
    | none =>
      simp only [if_true]
      exact h.of_moved (by rfl) ⟨by rfl, by rfl⟩ (fun _ hmem => hmem) ⟨by rfl, by rfl⟩ h.wrote
        (fun hnow => ⟨hnow, by rfl⟩) (fun id hwas => hway _ _ (hset _) (by rfl) (by rfl) hwas)
    | some content =>
    by_cases honly : content.persistence = .memoryOnly
    · simp only [honly, if_true]
      refine h.of_modify (by rfl) (fun _ => by rfl) (fun _ => by rfl) (fun _ => by rfl) ⟨by rfl, by rfl⟩
        (by rfl) ⟨by rfl, by rfl⟩ (fun _ _ _ hsame => hsame) (fun hnow => hnow) rfl ?_
        (fun id hwas => .inl (hway _ _ (hset _) (by rfl) (by rfl) hwas))
      intro _ _
      refine .inr (.inl (.inl ⟨⟨request, .queued⟩, ?_, rfl, by simp⟩))
      show _ ∈ s.puts.set before.length _
      rw [hset]
      simp
    · simp only [honly, if_false, Bool.false_eq_true]
      exact h.of_moved (by rfl) ⟨by rfl, by rfl⟩ (fun _ hmem => hmem) ⟨by rfl, by rfl⟩ h.wrote
        (fun hnow => ⟨hnow, by rfl⟩) (fun id hwas => hway _ _ herase (by rfl) (by rfl) hwas)
  | queued =>
    simp only [System.goOn]
    split
    · refine h.of_moved (by rfl) ⟨by rfl, by rfl⟩ (fun _ hmem => hmem) ⟨by rfl, by rfl⟩ h.wrote
        (fun hnow => ⟨hnow, by rfl⟩) (fun id hwas => way_of_replaced hputs [] herase
          (fun _ hmem => mem_append_left _ hmem) (by rfl) ?_ hwas)
      intro _
      exact .inr (.inl ⟨request, mem_concat_self, rfl⟩)
    refine h.of_moved (by rfl) ⟨by rfl, by rfl⟩ (fun _ hmem => hmem) ⟨by rfl, by rfl⟩ h.wrote
      (fun hnow => ⟨hnow, by rfl⟩) (fun id hwas => way_of_replaced hputs _ (hset _)
        (by exact fun _ hmem => hmem) (by rfl) ?_ hwas)
    intro _
    refine .inl ⟨⟨request, .refused⟩, ?_, rfl, by simp⟩
    show _ ∈ s.puts.set before.length _
    rw [hset]
    simp
  | refused =>
  simp only [System.goOn, markPersistence]
  refine h.of_modify (by rfl) (fun _ => by rfl) (fun _ => by rfl) (fun _ => by rfl) ⟨by rfl, by rfl⟩ (by rfl)
    ⟨by rfl, by rfl⟩ (fun _ _ _ hsame => hsame) (fun hnow => hnow) rfl (fun _ _ => .inl rfl) ?_
  intro id hwas
  by_cases hsame : id = request.id
  · exact .inr ⟨hsame, fun _ => rfl⟩
  refine .inl ?_
  rcases hwas with ⟨other, hmem, hid, hstage⟩ | hrest
  · refine .inl ⟨other, ?_, hid, hstage⟩
    show other ∈ s.puts.eraseIdx before.length
    rw [herase]
    rw [hputs] at hmem
    have hother : other ≠ ⟨request, .refused⟩ := by
      rintro rfl
      exact hsame hid.symm
    simp only [mem_append, mem_cons, hother, false_or] at hmem
    simpa using hmem
  · exact .inr hrest

end Puts

/-! ## The worker -/

variable {request : PersistRequest}

variable {rest : List PersistRequest}

lemma way_of_received (hwr : s.writes = request :: rest) (hidle : s.worker.current = none)
    (hwr' : s'.writes = rest) (hputs : s'.puts = s.puts)
    (hwk : s'.worker.current = some request.id) (h : s.OnItsWay id) : s'.OnItsWay id := by
  rcases h with hput | ⟨other, hmem, hid⟩ | hcur
  · refine .inl ?_
    rw [hputs]
    exact hput
  · rw [hwr] at hmem
    rcases mem_cons.mp hmem with rfl | hmem
    · exact .inr (.inr (hid ▸ hwk))
    · refine .inr (.inl ⟨other, ?_, hid⟩)
      rw [hwr']
      exact hmem
  · rw [hidle] at hcur
    exact absurd hcur (some_ne_none id).symm

lemma way_of_worker (hputs : s'.puts = s.puts) (hwr : s'.writes = s.writes)
    (hwk : ∀ id, s.worker.current = some id → s'.worker.current = some id)
    (h : s.OnItsWay id) : s'.OnItsWay id := by
  unfold OnItsWay
  rw [hputs, hwr]
  exact h.imp_right (fun hrest => hrest.imp_right (hwk id))

lemma Inv.receive (h : Inv s)
    (hwr : s.writes = request :: rest) (hidle : s.worker.current = none) (prefers : Bool) :
    Inv { s with writes := rest, worker := .took request, preferPending := prefers } :=
  h.of_moved (by rfl) ⟨by rfl, by rfl⟩ (fun _ hmem => hmem) ⟨by rfl, by rfl⟩
    (fun _ _ _ hwk => WorkerStage.noConfusion hwk) (fun hnow => noConfusion hnow)
    (fun _ hwas => way_of_received hwr hidle (by rfl) (by rfl) (by rfl) hwas)

variable {retention : ContentRetention}

lemma Inv.settle (h : Inv s) {written : Written} (hwk : s.worker = .wrote request retention written)
    (hord : retention = .replay → written = .stored → ¬ s.memory.HoldsFallback request.id) :
    Inv (s.settle request written) := by
  obtain ⟨hsto, hprov⟩ := h.wrote request retention written hwk
  have hcur : s.worker.current = some request.id := by
    rw [hwk]
    rfl
  have hway (t : System) (hputs : t.puts = s.puts) (hwr : t.writes = s.writes) {id : String}
      (hwas : s.OnItsWay id) : t.OnItsWay id ∨ id = request.id := by
    unfold OnItsWay
    rw [hputs, hwr]
    rcases hwas with hput | hwrite | hold
    · exact .inl (.inl hput)
    · exact .inl (.inr (.inl hwrite))
    · rw [hcur] at hold
      exact .inr (Option.some.inj hold).symm
  -- the value is forgotten
  have hforget (hready : s.Loadable request.id)
      (hloadable : request.id ∈ s.proven ∨ request.id ∈ s.fallback ∨ request.id ∈ s.replay)
      (hfall : request.id ∈ s.fallbackPuts → request.id ∈ s.fallback ∨ request.id ∈ s.proven) :
      Inv { s with memory := s.memory.forgetPersisted request.id, worker := .settled true } := by
    refine ⟨h.memory.remove, ?_, ?_, fun _ _ _ hnow => WorkerStage.noConfusion hnow,
      fun hnow => noConfusion hnow, ?_⟩
    · intro id hmem
      by_cases hsame : id = request.id
      · rw [hsame]
        exact .inr hloadable
      · rcases h.promised id hmem with hin | hrest
        · exact .inl (hin.remove hsame)
        · exact .inr hrest
    · intro id hmem
      by_cases hsame : id = request.id
      · rw [hsame] at hmem ⊢
        exact .inr (hfall hmem)
      · rcases h.fallbackPuts id hmem with hin | hrest
        · exact .inl (hin.remove hsame)
        · exact .inr hrest
    intro content hmem
    obtain ⟨hin, hne⟩ := mem_remove hmem
    rcases h.waiting content hin with honly | hwas
    · exact .inl honly
    · exact .inr ((hway _ (by rfl) (by rfl) hwas).resolve_right hne)
  cases written with
  | failed =>
    refine h.of_modify (by rfl) (fun _ => by rfl) (fun _ => by rfl) (fun _ => by rfl)
      ⟨by rfl, by rfl⟩ (by rfl) ⟨by rfl, by rfl⟩ (fun _ _ _ hnow => WorkerStage.noConfusion hnow)
      (fun hnow => noConfusion hnow) (by rfl) (fun _ _ => .inl (by rfl)) ?_
    intro id hwas
    exact (hway _ (by rfl) (by rfl) hwas).imp_right (fun hsame => ⟨hsame, fun _ => by rfl⟩)
  | proven =>
    have hknown := hprov rfl
    exact hforget (.inr (.inl hknown)) (.inl hknown) (fun _ => .inr hknown)
  | stored =>
  have hfile := hsto rfl
  cases retention with
  | fallback =>
    exact hforget (.inr (.inr (.inl hfile))) (.inr (.inl hfile)) (fun _ => .inl hfile)
  | replay =>
  refine hforget (.inr (.inr (.inr hfile))) (.inr (.inr hfile)) ?_
  intro hmem
  exact (h.fallbackPuts request.id hmem).resolve_left (hord rfl rfl)

lemma Inv.write (h : Inv s) (hwk : s.worker = .writing request retention) (stored ok : Bool) :
    Inv (s.write request retention stored ok) := by
  have hmore : ∀ directory id, id ∈ s.files directory →
      id ∈ (s.write request retention stored ok).files directory := by
    intro directory id hin
    unfold System.write
    cases directory <;> cases retention <;> simp only [files, withFiles] at hin ⊢
    · split
      · exact mem_cons_of_mem _ hin
      · exact hin
    · exact hin
    · exact hin
    · split
      · exact mem_cons_of_mem _ hin
      · exact hin
  have hsame : (s.write request retention stored ok).memory = s.memory ∧
      (s.write request retention stored ok).promised = s.promised ∧
      (s.write request retention stored ok).fallbackPuts = s.fallbackPuts ∧
      (s.write request retention stored ok).proven = s.proven ∧
      (s.write request retention stored ok).puts = s.puts ∧
      (s.write request retention stored ok).writes = s.writes := by
    unfold System.write
    cases retention <;> exact ⟨rfl, rfl, rfl, rfl, rfl, rfl⟩
  obtain ⟨hmemo, hpromised, hputs, hprov, hqueue, hwr⟩ := hsame
  have hnow : (s.write request retention stored ok).worker =
      .wrote request retention (if ok then .stored else .failed) := rfl
  refine ⟨?_, ?_, ?_, ?_, ?_, ?_⟩
  · rw [hmemo]
    exact h.memory
  · rw [hpromised]
    intro id hmem
    unfold Loadable
    rw [hmemo, hprov]
    rcases h.promised id hmem with hin | hknown | hfile | hfile
    · exact .inl hin
    · exact .inr (.inl hknown)
    · exact .inr (.inr (.inl (hmore .fallback id hfile)))
    · exact .inr (.inr (.inr (hmore .replay id hfile)))
  · rw [hputs, hmemo, hprov]
    intro id hmem
    rcases h.fallbackPuts id hmem with hin | hfile | hknown
    · exact .inl hin
    · exact .inr (.inl (hmore .fallback id hfile))
    · exact .inr (.inr hknown)
  · intro other directory written hwrote
    rw [hnow] at hwrote
    obtain ⟨rfl, rfl, rfl⟩ := WorkerStage.wrote.inj hwrote
    cases ok with
    | true =>
      refine ⟨fun _ => ?_, fun hknown => Written.noConfusion hknown⟩
      unfold System.write
      cases retention <;> simp [files, withFiles]
    | false =>
      exact ⟨fun hsto => Written.noConfusion hsto, fun hknown => Written.noConfusion hknown⟩
  · intro hprune
    rw [hnow] at hprune
    exact noConfusion hprune
  rw [hmemo]
  intro content hmem
  refine (h.waiting content hmem).imp_right ?_
  refine way_of_worker hqueue hwr ?_
  intro id hcur
  rw [hwk] at hcur
  exact hcur

/-- A prune removes a file; what was put since it began is still in memory. -/
lemma Inv.removeFile (h : Inv s) {directory : ContentRetention}
    {rest : List String} {persisted : Bool}
    (hwk : s.worker = .pruning directory (id :: rest) persisted) :
    Inv { s.removeFile directory id with
      worker := .removing directory id rest persisted } := by
  have hsince := h.since (by rw [hwk]; rfl)
  have hfiles : ∀ other, other ≠ id → ∀ directory', other ∈ s.files directory' →
      other ∈ (s.removeFile directory id).files directory' := by
    intro other hne directory' hin
    unfold System.removeFile
    cases directory <;> cases directory' <;> simp only [files, withFiles] at hin ⊢
    · exact mem_filter.mpr ⟨hin, by simpa using hne⟩
    · exact hin
    · exact hin
    · exact mem_filter.mpr ⟨hin, by simpa using hne⟩
  have hsame : (s.removeFile directory id).memory = s.memory ∧
      (s.removeFile directory id).proven = s.proven ∧ (s.removeFile directory id).puts = s.puts ∧
      (s.removeFile directory id).writes = s.writes ∧
      (s.removeFile directory id).since = s.since := by
    unfold System.removeFile
    cases directory <;> exact ⟨rfl, rfl, rfl, rfl, rfl⟩
  obtain ⟨hmemo, hprov, hputs, hwr, hputsSince⟩ := hsame
  have hpromised : ∀ other ∈ (s.removeFile directory id).promised,
      other ∈ s.promised ∧ (other = id → s.memory.Holds id) := by
    intro other hmem
    simp only [System.removeFile] at hmem
    split at hmem
    · rename_i hlater
      refine ⟨hmem, fun _ => ?_⟩
      obtain ⟨put, hput, hid⟩ := any_eq_true.mp hlater
      have hsame : put.1 = id := by simpa using hid
      exact hsame ▸ (hsince put hput).1
    · obtain ⟨hin, hne⟩ := mem_filter.mp hmem
      exact ⟨hin, fun hsame => by simp [hsame] at hne⟩
  have hwanted : ∀ other ∈ (s.removeFile directory id).fallbackPuts, other ∈ s.fallbackPuts ∧
        (other = id → directory = .replay ∨ s.memory.HoldsFallback id) := by
    intro other hmem
    simp only [System.removeFile] at hmem
    split at hmem
    · rename_i hlater
      refine ⟨hmem, fun _ => ?_⟩
      rcases hlater with hreplay | hlater
      · exact .inl hreplay
      · obtain ⟨put, hput, hid⟩ := any_eq_true.mp hlater
        have hboth : put.1 = id ∧ .fallback = put.2 := by simpa using hid
        exact .inr (hboth.1 ▸ (hsince put hput).2 hboth.2.symm)
    · obtain ⟨hin, hne⟩ := mem_filter.mp hmem
      exact ⟨hin, fun hsame => by simp [hsame] at hne⟩
  refine ⟨?_, ?_, ?_, fun _ _ _ hnow => WorkerStage.noConfusion hnow, ?_, ?_⟩
  · simp only
    rw [hmemo]
    exact h.memory
  · intro other hmem
    obtain ⟨hin, hheld⟩ := hpromised other hmem
    unfold Loadable
    simp only
    rw [hmemo, hprov]
    by_cases hother : other = id
    · exact .inl (hother ▸ hheld hother)
    rcases h.promised other hin with hmem | hknown | hfile | hfile
    · exact .inl hmem
    · exact .inr (.inl hknown)
    · exact .inr (.inr (.inl (hfiles other hother .fallback hfile)))
    · exact .inr (.inr (.inr (hfiles other hother .replay hfile)))
  · intro other hmem
    obtain ⟨hin, hheld⟩ := hwanted other hmem
    simp only
    rw [hmemo, hprov]
    rcases h.fallbackPuts other hin with hmem | hfile | hknown
    · exact .inl hmem
    · by_cases hother : other = id
      · rcases hheld hother with rfl | hmem
        · exact .inr (.inl hfile)
        · exact .inl (hother ▸ hmem)
      · exact .inr (.inl (hfiles other hother .fallback hfile))
    · exact .inr (.inr hknown)
  · intro _
    simp only
    rw [hputsSince, hmemo]
    exact hsince
  simp only
  rw [hmemo]
  intro content hmem
  refine (h.waiting content hmem).imp_right ?_
  intro hwas
  refine way_of_worker (by exact hputs) (by exact hwr) ?_ hwas
  intro other hcur
  rw [hwk] at hcur
  exact absurd hcur (some_ne_none other).symm

lemma Inv.of_idle (h : Inv s) (worker : WorkerStage) (prefers : Bool)
    (hidle : s.worker.current = none)
    (hwrote : ∀ request retention written, worker ≠ .wrote request retention written)
    (hprune : worker.isPruning = true → s.worker.isPruning = true) :
    Inv { s with worker, preferPending := prefers } := by
  refine h.of_moved (by rfl) ⟨by rfl, by rfl⟩ (fun _ hmem => hmem) ⟨by rfl, by rfl⟩
    (fun request retention written hnow => absurd hnow (hwrote request retention written))
    (fun hnow => ⟨hprune hnow, by rfl⟩) ?_
  intro id hwas
  refine way_of_worker (by rfl) (by rfl) ?_ hwas
  intro other hcur
  rw [hidle] at hcur
  exact absurd hcur (some_ne_none other).symm

lemma Inv.pending (h : Inv s) {taken : System}
    (hpend : s.pending = some (taken, request)) (hidle : s.worker.current = none)
    (prefers : Bool) : Inv { taken with worker := .took request, preferPending := prefers } := by
  unfold System.pending takePendingRequest at hpend
  split at hpend
  · exact absurd hpend (some_ne_none _).symm
  rename_i memory request' hcache
  split at hcache
  · exact absurd hcache (some_ne_none _).symm
  rename_i content holdest
  obtain ⟨rfl, rfl⟩ := Prod.mk.inj (Option.some.inj hcache)
  obtain ⟨rfl, rfl⟩ := Prod.mk.inj (Option.some.inj hpend)
  refine h.of_modify (by rfl) (fun _ => by rfl) (fun _ => by rfl) (fun _ => by rfl)
    ⟨by rfl, by rfl⟩ (by rfl) ⟨by rfl, by rfl⟩
    (fun _ _ _ hnow => WorkerStage.noConfusion hnow) (fun hnow => noConfusion hnow)
    (by rfl) (fun _ _ => .inr (.inl (.inr (.inr (by rfl))))) ?_
  intro id hwas
  refine .inl (way_of_worker (by rfl) (by rfl) ?_ hwas)
  intro other hcur
  rw [hidle] at hcur
  exact absurd hcur (some_ne_none other).symm

lemma Inv.takeNext (h : Inv s) {persisted : Bool} (hwk : s.worker = .settled persisted) :
    Inv (s.takeNext persisted) := by
  have hidle : s.worker.current = none := by
    rw [hwk]
    rfl
  have hrecv {taken : System} {request : PersistRequest}
      (hnext : s.received = some (taken, request)) (prefers : Bool) :
      Inv { taken with worker := .took request, preferPending := prefers } := by
    unfold System.received at hnext
    split at hnext
    · exact absurd hnext (some_ne_none _).symm
    · rename_i other rest hwr
      obtain ⟨rfl, rfl⟩ := Prod.mk.inj (Option.some.inj hnext)
      exact h.receive hwr hidle prefers
  unfold System.takeNext
  split
  · simp only
    split
    · rename_i taken request hready
      split at hready
      · rcases Option.or_eq_some_iff.mp hready with hpend | ⟨-, hnext⟩
        · exact h.pending hpend hidle _
        · exact hrecv hnext _
      · rcases Option.or_eq_some_iff.mp hready with hnext | ⟨-, hpend⟩
        · exact hrecv hnext _
        · exact h.pending hpend hidle _
    · exact h.of_idle _ _ hidle (fun _ _ _ => WorkerStage.noConfusion)
        (fun hnow => noConfusion hnow)
  · exact h.of_idle _ _ hidle (fun _ _ _ => WorkerStage.noConfusion) (fun hnow => noConfusion hnow)

lemma Inv.step (s : System) (input : Input) (h : Inv s)
    (hstep : Fits s input ∧ Orderly s input) : Inv (s.step input) := by
  obtain ⟨hfits, hord⟩ := hstep
  have hmoved (worker : WorkerStage) (hsame : worker.current = s.worker.current)
      (hprune : worker.isPruning = true → s.worker.isPruning = true)
      (hwrote : ∀ request retention written, worker ≠ .wrote request retention written) :
      Inv { s with worker } := by
    refine h.of_moved (by rfl) ⟨by rfl, by rfl⟩ (fun _ hmem => hmem) ⟨by rfl, by rfl⟩
      (fun request retention written hnow => absurd hnow (hwrote request retention written))
      (fun hnow => ⟨hprune hnow, by rfl⟩) ?_
    intro id hwas
    refine way_of_worker (by rfl) (by rfl) ?_ hwas
    intro other hcur
    exact hsame.trans hcur
  unfold System.step
  cases input with
  | put id length retention => exact h.put hfits.1 hfits.2 retention
  | goOn i =>
    simp only
    split
    · exact h
    · rename_i put hput
      obtain ⟨before, after, hputs, rfl⟩ := exists_split hput
      exact h.goOn hputs
  | load id =>
    refine h.of_grows (MemoryCache.Sound.modify ⟨h.memory.ids, h.memory.counter⟩ (fun _ => by rfl)
      (fun _ => by rfl)) (fun _ hin => MemoryCache.Holds.modify (fun _ => by rfl) hin)
      (fun _ hin => MemoryCache.HoldsFallback.modify (fun _ => by rfl) (fun _ hwanted => hwanted) hin)
      ⟨by rfl, by rfl⟩ (fun _ hmem => hmem) ⟨by rfl, by rfl⟩ h.wrote (fun hnow => ⟨hnow, by rfl⟩) ?_
    intro content hmem
    obtain ⟨old, hin, ⟨-, rfl⟩ | ⟨-, rfl⟩⟩ := mem_modify hmem
    · exact h.waiting old hin
    · exact h.waiting content hin
  | receive =>
    simp only
    split
    · rename_i request rest hwk hwr
      exact h.receive hwr (by rw [hwk]; rfl) s.preferPending
    · exact h
  | chooseRetention =>
    simp only
    split
    · rename_i request hwk
      exact hmoved _ (by rw [hwk]; rfl) (fun hnow => noConfusion hnow)
        (fun _ _ _ => WorkerStage.noConfusion)
    · exact h
  | proved proven =>
    simp only
    split
    · rename_i request retention hwk
      cases proven with
      | true =>
        simp only [if_true]
        refine h.of_moved (by rfl) ⟨by rfl, by rfl⟩ (fun _ hmem => mem_append_left _ hmem)
          ⟨by rfl, by rfl⟩ ?_ (fun hnow => noConfusion hnow) ?_
        · intro other directory written hnow
          obtain ⟨rfl, rfl, rfl⟩ := WorkerStage.wrote.inj hnow
          exact ⟨fun hsto => Written.noConfusion hsto, fun _ => mem_concat_self⟩
        intro id hwas
        refine way_of_worker (by rfl) (by rfl) ?_ hwas
        intro other hcur
        rw [hwk] at hcur
        exact hcur
      | false =>
        exact hmoved _ (by rw [hwk]; rfl) (fun hnow => noConfusion hnow)
          (fun _ _ _ => WorkerStage.noConfusion)
    · exact h
  | write stored ok =>
    simp only
    split
    · rename_i request retention hwk
      exact h.write hwk stored ok
    · exact h
  | settle =>
    simp only
    split
    · rename_i request retention written hwk
      refine h.settle hwk ?_
      rintro rfl rfl
      simp only [Orderly, hwk] at hord
      exact hord
    · exact h
  | beginPrune directory =>
    simp only
    split
    · rename_i persisted hwk
      refine ⟨h.memory, h.promised, h.fallbackPuts, fun _ _ _ hnow => WorkerStage.noConfusion hnow,
        fun _ _ hmem => absurd hmem not_mem_nil, ?_⟩
      intro content hmem
      refine (h.waiting content hmem).imp_right (fun hwas => way_of_worker (by rfl) (by rfl) ?_ hwas)
      intro other hcur
      rw [hwk] at hcur
      exact hcur
    · exact h
  | scan candidates =>
    simp only
    split
    · rename_i directory persisted hwk
      exact hmoved _ (by rw [hwk]; rfl) (fun _ => by rw [hwk]; rfl)
        (fun _ _ _ => WorkerStage.noConfusion)
    · exact h
  | removeFile ok =>
    simp only
    split
    · rename_i directory id rest persisted hwk
      cases ok with
      | true => exact h.removeFile hwk
      | false =>
        exact hmoved _ (by rw [hwk]; rfl) (fun _ => by rw [hwk]; rfl)
          (fun _ _ _ => WorkerStage.noConfusion)
    · exact h
  | clearMemory =>
    simp only
    split
    · rename_i directory id rest persisted hwk
      simp only [Orderly, hwk] at hord
      rw [remove_of_not_has hord]
      exact hmoved _ (by rw [hwk]; rfl) (fun _ => by rw [hwk]; rfl)
        (fun _ _ _ => WorkerStage.noConfusion)
    · exact h
  | endPrune =>
    simp only
    split
    · rename_i directory candidates persisted hwk
      exact hmoved _ (by rw [hwk]; rfl) (fun hnow => noConfusion hnow)
        (fun _ _ _ => WorkerStage.noConfusion)
    · exact h
  | takeNext =>
  simp only
  split
  · rename_i persisted hwk
    exact h.takeNext hwk
  · exact h

/-- The bytes that were put stay loadable and reach the store they were put for. -/
theorem kept_of_orderly (fallback replay : List String) (inputs : List Input)
    (hrun : Always System.step (fun s input => Fits s input ∧ Orderly s input)
      (initial fallback replay) inputs) :
    ∀ l m, inputs = l ++ m → (exec System.step (initial fallback replay) l).Kept := by
  rintro l m rfl
  exact (exec_invariant_of_always Inv.step (inv_initial fallback replay)
    (always_append.mp hrun).1).kept

def replayWritten : List Input :=
  [.put "digest" 10 .replay, .goOn 0, .goOn 0, .receive, .chooseRetention, .proved false,
    .write true true, .settle, .takeNext, .put "digest" 10 .fallback]

theorem replayWritten_kept : (exec System.step (initial [] []) replayWritten).Kept := by
  refine kept_of_orderly [] [] replayWritten ?_ replayWritten [] (append_nil _).symm
  refine ⟨⟨⟨by decide, .inr (by decide)⟩, trivial⟩, ⟨trivial, trivial⟩, ⟨trivial, trivial⟩,
    ⟨trivial, trivial⟩, ⟨trivial, trivial⟩, ⟨trivial, trivial⟩, ⟨trivial, trivial⟩,
    ⟨trivial, ?_⟩, ⟨trivial, trivial⟩, ⟨⟨by decide, .inr (by decide)⟩, trivial⟩, trivial⟩
  show ¬ MemoryCache.HoldsFallback _ _
  decide

/-- The same bytes are put for the fallback store while the worker writes them to the replay store.
-/
theorem fallback_put_forgotten :
    ¬ ∀ (fallback replay : List String) (inputs : List Input),
      Always System.step Fits (initial fallback replay) inputs →
        (exec System.step (initial fallback replay) inputs).Kept := by
  intro hall
  let inputs : List Input :=
    [.put "digest" 10 .replay, .goOn 0, .goOn 0, .receive, .chooseRetention, .proved false,
      .put "digest" 10 .fallback, .goOn 0, .write true true, .settle]
  have hfits : Always System.step Fits (initial [] []) inputs :=
    ⟨⟨by decide, .inr (by decide)⟩, trivial, trivial, trivial, trivial, trivial,
      ⟨by decide, .inl (by decide)⟩, trivial, trivial, trivial, trivial⟩
  have hkept := (hall [] [] inputs hfits).fallbackPuts "digest" (by decide)
  revert hkept
  decide

end System

end CodeWide.Content
