import CodeWide.HistoryCache.Tables
import Mathlib.Data.List.Nodup

/-!
# What the history cache keeps

Every run keeps the references of the members, reads back a row of the active epoch as written, and
keeps a revision while a member has it, a pending row until canonical content takes its identity.
-/

namespace CodeWide.HistoryCache

open Lib List
open Option (bind_eq_some_iff bind_some map_eq_some_iff map_some)
open Bool (and_eq_true eq_false_iff not_eq_true')

/-! ## Upserts -/

section

variable {α : Type} {conflict : α → Bool} {update : α → α} {row : α} {table : List α}

variable {x : α}

lemma mem_upsert (h : x ∈ upsert conflict update row table) :
    x = row ∨ (x ∈ table ∧ conflict x = false) ∨ ∃ old ∈ table, conflict old = true ∧ x = update old := by
  unfold upsert at h
  split at h
  · obtain ⟨old, hold, rfl⟩ := mem_map.mp h
    by_cases hc : conflict old = true
    · rw [if_pos hc]
      exact .inr (.inr ⟨old, hold, hc, rfl⟩)
    · rw [if_neg hc]
      exact .inr (.inl ⟨hold, eq_false_iff.mpr hc⟩)
  rcases mem_concat.mp h with h | h
  · refine .inr (.inl ⟨h, eq_false_iff.mpr fun hc => ?_⟩)
    exact absurd (any_eq_true.mpr ⟨x, h, hc⟩) ‹_›
  · exact .inl h

end

/-! ## Well-formed rows and the invariant -/

/-- What the id of a row says: the thread, and whether the row is the thread's own. -/
structure Ids where
  threadOf : String → Scope
  isThread : String → Bool

def Row.WellFormed (ids : Ids) : Row → Prop
  | .thread row => ids.isThread row.id = true ∧ ids.threadOf row.id = row.scope
  | .content row => ids.isThread row.id = false ∧ ids.threadOf row.id = row.payload.scope ∧
      (row.payload.kind = .turnMeta → row.items = [])
  | .pending row => ids.isThread row.id = false ∧ ids.threadOf row.id = row.scope

def Tables.Op.WellFormed (ids : Ids) : Tables.Op → Prop
  | .persist row => row.WellFormed ids
  | _ => True

namespace Tables

structure Inv (ids : Ids) (s : Tables) : Prop where
  sound : s.Sound
  heads : ∀ h ∈ s.heads, ids.isThread h.key = true ∧ ids.threadOf h.key = h.scope
  members : ∀ m ∈ s.members, ids.isThread m.key = false ∧ ids.threadOf m.key = m.scope
  pending : ∀ p ∈ s.pending, ids.isThread p.id = false
  fresh : ∀ c ∈ s.content, c.contentId < s.nextContent

variable {s t : Tables} {ids : Ids}

lemma inv_empty (ids : Ids) : Inv ids empty where
  sound := by decide
  heads := fun _ h => (by cases h)
  members := fun _ h => (by cases h)
  pending := fun _ h => (by cases h)
  fresh := fun _ h => (by cases h)

/-! ## What a transaction does to each table -/

variable {op : Op}

lemma run_eq_some : s.run op = some t ↔ s.apply op = some t ∧ t.Sound := by
  unfold run
  rw [bind_eq_some_iff]
  constructor
  · rintro ⟨u, hu, ht⟩
    split at ht
    · next hsound =>
      cases ht
      exact ⟨hu, hsound⟩
    · cases ht
  · rintro ⟨ht, hsound⟩
    exact ⟨t, ht, if_pos hsound⟩

lemma sound_of_run (h : s.run op = some t) : t.Sound := (run_eq_some.mp h).2

variable {row : Row}

lemma run_persist (h : s.run (.persist row) = some t) :
    s.persistHistoryRow row = some t := (run_eq_some.mp h).1

lemma run_delete (h : s.run (.delete row) = some t) :
    t = s ∨ row ∈ s.view ∧ t = s.deleteRow row := by
  have happly := (run_eq_some.mp h).1
  unfold apply at happly
  simp only at happly
  split at happly
  · next hrow => exact .inr ⟨hrow, (Option.some.inj happly).symm⟩
  · exact .inl (Option.some.inj happly).symm

lemma run_collect (h : s.run .collect = some t) : t = s.collectUnreferencedHistoryContent :=
  (Option.some.inj (run_eq_some.mp h).1).symm

structure Written (s : Tables) (row : ContentRow) (turnId : String) (u : Tables) (contentId : Nat) :
    Prop where
  heads : u.heads = s.heads
  members : u.members = s.members
  pending : u.pending = s.pending
  turns : u.turns = (s.putPosition row turnId).turns
  old : ∀ c ∈ u.content, c ∈ s.content ∨ c.contentId = s.nextContent ∧ u.nextContent = s.nextContent + 1
  next : s.nextContent ≤ u.nextContent
  kept : ∀ c ∈ s.content, c ∈ u.content
  itemsOld : ∀ n, n ≠ s.nextContent → u.itemsOf n = s.itemsOf n
  revision : (⟨contentId, row.id, row.payload⟩ : Content) ∈ u.content
  items : u.itemsOf contentId = row.storedItems

lemma exists_written (hinv : Inv ids s) {row : ContentRow} (h : s.persistContent row = some t) :
    ∃ turnId u contentId, row.payload.turnId = some turnId ∧ Written s row turnId u contentId ∧
      t = { u.putMember row turnId contentId with
        pending := (u.putMember row turnId contentId).pending.filter fun p => p.id ≠ row.id } := by
  obtain ⟨turnId, hturn, ht⟩ := map_eq_some_iff.mp h
  have hrevision : (s.addChain row.payload.scope row.epoch).revisionOf row = s.revisionOf row := rfl
  simp only [hrevision] at ht
  cases hfound : s.revisionOf row with
  | some contentId =>
    simp only [hfound] at ht
    refine ⟨turnId, _, contentId, hturn, ?_, ht.symm⟩
    obtain ⟨c, hc, hid⟩ := map_eq_some_iff.mp hfound
    obtain ⟨hmem, hmatch⟩ := mem_filter.mp (mem_of_getLast? hc)
    simp only [and_eq_true, decide_eq_true_eq] at hmatch
    obtain ⟨⟨hkey, hpay⟩, hitems⟩ := hmatch
    refine ⟨rfl, rfl, rfl, rfl, fun c hc => .inl hc, le_refl _, fun c hc => hc, fun _ _ => rfl, ?_, ?_⟩
    · have heq : c = ⟨contentId, row.id, row.payload⟩ := by
        rw [← hid, ← hkey, ← hpay]
      exact heq ▸ hmem
    · rw [← hid]
      exact hitems
  | none =>
  simp only [hfound] at ht
  refine ⟨turnId, _, s.nextContent, hturn, ?_, ht.symm⟩
  have hfresh : s.items.filter (fun i => i.contentId = s.nextContent) = [] := by
    rw [filter_eq_nil_iff]
    intro i hi heq
    obtain ⟨c, hc, hid⟩ := hinv.sound.2.items i hi
    have hlt := hinv.fresh c hc
    rw [hid, of_decide_eq_true heq] at hlt
    exact absurd hlt (lt_irrefl _)
  refine ⟨rfl, rfl, rfl, rfl, ?_, Nat.le_succ _, fun c hc => mem_append_left _ hc, ?_, ?_, ?_⟩
  · intro c hc
    rcases mem_concat.mp hc with hc | hc
    · exact .inl hc
    · rw [hc]
      exact .inr ⟨rfl, rfl⟩
  · intro n hn
    change ((s.items ++ row.storedItems.map (Item.mk s.nextContent)).filter
      fun i => i.contentId = n).map Item.payload = _
    have hnew : (row.storedItems.map (Item.mk s.nextContent)).filter
        (fun i => i.contentId = n) = [] := by
      rw [filter_eq_nil_iff]
      intro i hi heq
      obtain ⟨payload, -, rfl⟩ := mem_map.mp hi
      exact hn (of_decide_eq_true heq).symm
    rw [filter_append, hnew, append_nil]
    rfl
  · exact mem_append_right _ mem_cons_self
  change ((s.items ++ row.storedItems.map (Item.mk s.nextContent)).filter
    fun i => i.contentId = s.nextContent).map Item.payload = _
  have hnew : (row.storedItems.map (Item.mk s.nextContent)).filter
      (fun i => i.contentId = s.nextContent) = row.storedItems.map (Item.mk s.nextContent) := by
    refine filter_eq_self.mpr fun i hi => ?_
    obtain ⟨payload, -, rfl⟩ := mem_map.mp hi
    exact decide_eq_true rfl
  rw [filter_append, hfresh, hnew, nil_append, map_map]
  exact map_id _

variable {doomed : Content → Bool}

lemma itemsOf_deleteContent {n : Nat} (h : ∀ c ∈ s.content, c.contentId = n → doomed c = false) :
    (s.deleteContent doomed).itemsOf n = s.itemsOf n := by
  unfold itemsOf deleteContent
  simp only
  rw [filter_filter]
  refine congrArg _ (filter_congr fun i _ => ?_)
  by_cases hi : i.contentId = n
  · have hnone : (s.content.any fun c => decide (c.contentId = i.contentId) && doomed c) = false := by
      rw [any_eq_false]
      intro c hc htrue
      rw [and_eq_true, decide_eq_true_eq] at htrue
      exact absurd htrue.2 (by rw [h c hc (htrue.1.trans hi)]; decide)
    rw [hnone]
    simp [hi]
  · simp [hi]

lemma mem_deleteContent {c : Content} :
    c ∈ (s.deleteContent doomed).content ↔ c ∈ s.content ∧ doomed c = false := by
  unfold deleteContent
  simp only
  rw [mem_filter, not_eq_true']

structure Shrinks (s t : Tables) : Prop where
  heads : ∀ h ∈ t.heads, h ∈ s.heads
  members : ∀ m ∈ t.members, m ∈ s.members
  pending : ∀ p ∈ t.pending, p ∈ s.pending
  content : ∀ c ∈ t.content, c ∈ s.content
  items : ∀ c ∈ t.content, t.itemsOf c.contentId = s.itemsOf c.contentId
  next : t.nextContent = s.nextContent

lemma shrinks_deleteContent (huniq : (s.content.map Content.contentId).Nodup)
    (doomed : Content → Bool) : Shrinks s (s.deleteContent doomed) where
  heads := fun _ h => h
  members := fun _ h => h
  pending := fun _ h => h
  content := fun _ h => (mem_deleteContent.mp h).1
  items := by
    intro c hc
    obtain ⟨hold, hkept⟩ := mem_deleteContent.mp hc
    refine itemsOf_deleteContent fun other hother hid => ?_
    rw [inj_on_of_nodup_map huniq hother hold hid]
    exact hkept
  next := rfl

section

variable (hinv : Inv ids s)
include hinv

lemma shrinks_deleteRow (row : Row) : Shrinks s (s.deleteRow row) := by
  have hdel : Shrinks ({ s with members := s.members.filter fun m => m.key ≠ row.id } : Tables)
      (({ s with members := s.members.filter fun m => m.key ≠ row.id } : Tables).deleteContent
        fun c => c.key = row.id) :=
    shrinks_deleteContent (s := ({ s with members := s.members.filter fun m => m.key ≠ row.id } :
      Tables)) hinv.sound.1.content _
  cases row with
  | thread row =>
    exact ⟨fun _ h => mem_of_mem_filter h, fun _ h => mem_of_mem_filter (mem_of_mem_filter h),
      fun _ h => mem_of_mem_filter h, hdel.content, hdel.items, rfl⟩
  | content row | pending row =>
    exact ⟨fun _ h => mem_of_mem_filter h, fun _ h => mem_of_mem_filter h,
      fun _ h => mem_of_mem_filter h, hdel.content, hdel.items, rfl⟩

lemma shrinks_collect : Shrinks s s.collectUnreferencedHistoryContent := by
  unfold collectUnreferencedHistoryContent
  simp only
  generalize hdoomed : (fun g : Chain => s.heads.any fun h =>
    h.scope = g.scope && decide (h.activeEpoch ≠ g.epoch) && decide (some g.epoch ≠ s.fallback h)) =
      doomed
  have hdel := shrinks_deleteContent (s := ({ s.deleteChains doomed with
    turns := (s.deleteChains doomed).turns.filter fun p =>
      (s.deleteChains doomed).members.any fun m => p.isOf m } : Tables)) hinv.sound.1.content
      fun c => !(s.deleteChains doomed).members.any fun m => m.contentId = c.contentId
  exact ⟨fun _ h => h, fun _ h => mem_of_mem_filter h, fun _ h => h, hdel.content, hdel.items, rfl⟩

lemma Inv.shrink (h : Shrinks s t) (hsound : t.Sound) : Inv ids t where
  sound := hsound
  heads := fun head hhead => hinv.heads head (h.heads head hhead)
  members := fun m hm => hinv.members m (h.members m hm)
  pending := fun p hp => hinv.pending p (h.pending p hp)
  fresh := fun c hc => h.next ▸ hinv.fresh c (h.content c hc)

lemma inv_run (hop : op.WellFormed ids) (h : s.run op = some t) : Inv ids t := by
  have hsound := sound_of_run h
  cases op with
  | delete row =>
    rcases run_delete h with rfl | ⟨-, rfl⟩
    · exact hinv
    · exact hinv.shrink (shrinks_deleteRow hinv row) hsound
  | collect =>
    rw [run_collect h] at hsound ⊢
    exact hinv.shrink (shrinks_collect hinv) hsound
  | persist row =>
  have hrow := run_persist h
  cases row with
  | thread row =>
    cases hrow
    refine ⟨hsound, ?_, hinv.members, hinv.pending, hinv.fresh⟩
    intro head hhead
    rcases mem_upsert hhead with rfl | ⟨hold, -⟩ | ⟨old, hold, -, rfl⟩
    · exact hop
    · exact hinv.heads head hold
    · exact hinv.heads old hold
  | pending row =>
    have hpend : t = s.persistPending row := (Option.some.inj hrow).symm
    unfold persistPending at hpend
    split at hpend
    · rw [hpend]
      exact hinv
    subst hpend
    refine ⟨hsound, hinv.heads, hinv.members, ?_, hinv.fresh⟩
    intro p hp
    rcases mem_upsert hp with rfl | ⟨hold, -⟩ | ⟨old, hold, -, rfl⟩
    · exact hop.1
    · exact hinv.pending p hold
    · split
      · exact hinv.pending old hold
      · exact hinv.pending old hold
  | content row =>
  obtain ⟨turnId, u, contentId, -, hwr, rfl⟩ := exists_written hinv hrow
  refine ⟨hsound, ?_, ?_, ?_, ?_⟩
  · exact fun head hhead => hinv.heads head (hwr.heads ▸ hhead)
  · intro m hm
    rcases mem_upsert hm with rfl | ⟨hold, -⟩ | ⟨old, hold, -, rfl⟩
    · exact ⟨hop.1, hop.2.1⟩
    · exact hinv.members m (hwr.members ▸ hold)
    · exact hinv.members old (hwr.members ▸ hold)
  · exact fun p hp => hinv.pending p (hwr.pending ▸ mem_of_mem_filter hp)
  intro c hc
  rcases hwr.old c (mem_deleteContent.mp hc).1 with hold | ⟨hid, hnext⟩
  · exact lt_of_lt_of_le (hinv.fresh c hold) hwr.next
  · exact hid ▸ hnext ▸ Nat.lt_succ_self _

lemma inv_step (hop : op.WellFormed ids) : Inv ids (s.step op) := by
  unfold step
  cases h : s.run op with
  | none => exact hinv
  | some t => exact inv_run hinv hop h

/-! ## Revisions -/

end

variable {v : Row}

lemma viewMember_some {m : Member} (h : s.viewMember m = some v) :
    v.id = m.key ∧ ∃ head ∈ s.heads, head.scope = m.scope ∧ head.activeEpoch = m.epoch := by
  unfold viewMember at h
  obtain ⟨c, -, h⟩ := bind_eq_some_iff.mp h
  obtain ⟨p, -, h⟩ := bind_eq_some_iff.mp h
  obtain ⟨head, hhead, rfl⟩ := map_eq_some_iff.mp h
  have hfound := find?_some hhead
  rw [and_eq_true, decide_eq_true_eq, decide_eq_true_eq] at hfound
  exact ⟨rfl, head, mem_of_find?_eq_some hhead, hfound⟩

variable {h : Head}

def placed (s : Tables) (row : ContentRow) (turnId : String) : Int :=
  if row.payload.kind = .turn then row.ordinal
  else ((s.turns.find? fun p => p.scope = row.payload.scope && p.epoch = row.epoch &&
    p.turnId = turnId).map Position.ordinal).getD row.ordinal

def isStale (s : Tables) (g : Chain) : Bool :=
  s.heads.any fun h =>
    h.scope = g.scope && decide (h.activeEpoch ≠ g.epoch) && decide (some g.epoch ≠ s.fallback h)

def isGone (s : Tables) (scope : Scope) (epoch : Int) : Bool :=
  s.chains.any fun g => g.scope = scope && g.epoch = epoch && s.isStale g

lemma isGone_of_kept (hinv : Inv ids s) (hh : h ∈ s.heads) {epoch : Int}
    (hkept : h.activeEpoch = epoch ∨ s.fallback h = some epoch) :
    s.isGone h.scope epoch = false := by
  rw [isGone, any_eq_false]
  intro g _ hg
  simp only [and_eq_true, decide_eq_true_eq] at hg
  obtain ⟨⟨hscope, hepoch⟩, hstale⟩ := hg
  obtain ⟨other, hother, hdoomed⟩ := any_eq_true.mp hstale
  simp only [and_eq_true, decide_eq_true_eq] at hdoomed
  obtain ⟨⟨hotherScope, hact⟩, hfall⟩ := hdoomed
  have hsame := inj_on_of_nodup_map hinv.sound.1.heads hother hh (hotherScope.trans hscope)
  rw [hsame, hepoch] at hact hfall
  rcases hkept with hkept | hkept
  · exact hact hkept
  · exact hfall hkept.symm

lemma isStale_of_kept (hinv : Inv ids s) (hh : h ∈ s.heads) {g : Chain}
    (hg : g ∈ s.chains) (hscope : g.scope = h.scope)
    (hkept : h.activeEpoch = g.epoch ∨ s.fallback h = some g.epoch) : s.isStale g = false := by
  have hgone := isGone_of_kept hinv hh hkept
  rw [isGone, any_eq_false] at hgone
  refine eq_false_iff.mpr fun hstale => hgone g hg ?_
  simp only [hscope, hstale, decide_true, Bool.and_self]

structure Collected (s t : Tables) : Prop where
  heads : t.heads = s.heads
  chains : t.chains = s.chains.filter (!s.isStale ·)
  members : t.members = s.members.filter fun m => !s.isGone m.scope m.epoch
  turns : t.turns = (s.turns.filter fun p => !s.isGone p.scope p.epoch).filter fun p =>
    t.members.any fun m => p.isOf m
  content : t.content = s.content.filter fun c => t.members.any fun m => m.contentId = c.contentId
  items : ∀ m ∈ t.members, t.itemsOf m.contentId = s.itemsOf m.contentId
  pending : t.pending = s.pending

lemma find?_filter_of_kept {α : Type} {p q : α → Bool} {l : List α}
    (h : ∀ x ∈ l, p x = true → q x = true) : (l.filter q).find? p = l.find? p := by
  induction l with
  | nil => rfl
  | cons x l ih =>
  have hrest := ih fun y hy => h y (mem_cons_of_mem x hy)
  by_cases hp : p x = true
  · rw [filter_cons_of_pos (h x mem_cons_self hp), find?_cons_of_pos hp, find?_cons_of_pos hp]
  rw [find?_cons_of_neg hp]
  by_cases hq : q x = true
  · rw [filter_cons_of_pos hq, find?_cons_of_neg hp, hrest]
  · rw [filter_cons_of_neg hq, hrest]

lemma Collected.view (hinv : Inv ids s) (h : Collected s t) : t.view = s.view := by
  have hthrs : t.heads.filterMap t.viewThread = s.heads.filterMap s.viewThread := by
    rw [h.heads]
    refine filterMap_congr fun head hhead => ?_
    unfold viewThread
    rw [h.chains, find?_filter_of_kept]
    intro g hg hmatch
    rw [and_eq_true, decide_eq_true_eq, decide_eq_true_eq] at hmatch
    rw [isStale_of_kept hinv hhead hg hmatch.1 (.inl hmatch.2.symm)]
    rfl
  have hmems : t.members.filterMap t.viewMember = s.members.filterMap s.viewMember := by
    have hsame : ∀ m ∈ t.members, t.viewMember m = s.viewMember m := by
      intro m hm
      have hgone : s.isGone m.scope m.epoch = false := by
        rw [h.members] at hm
        simpa using (mem_filter.mp hm).2
      have hcontent : (t.content.find? fun c => c.contentId = m.contentId) =
          s.content.find? fun c => c.contentId = m.contentId := by
        rw [h.content]
        refine find?_filter_of_kept fun c _ hid => ?_
        exact any_eq_true.mpr ⟨m, hm, decide_eq_true (of_decide_eq_true hid).symm⟩
      have hturns : (t.turns.find? fun p => p.isOf m) = s.turns.find? fun p => p.isOf m := by
        rw [h.turns, filter_filter]
        refine find?_filter_of_kept fun p _ hp => ?_
        have hof : p.isOf m := of_decide_eq_true hp
        rw [and_eq_true, hof.1, hof.2.1, hgone]
        exact ⟨any_eq_true.mpr ⟨m, hm, hp⟩, rfl⟩
      unfold viewMember
      rw [hcontent, hturns, h.heads]
      cases hfound : s.content.find? fun c => decide (c.contentId = m.contentId) with
      | none => rfl
      | some c =>
      have hid : c.contentId = m.contentId := by
        have hmatch := find?_some hfound
        exact of_decide_eq_true hmatch
      rw [bind_some, bind_some, hid, h.items m hm]
    rw [filterMap_congr hsame, h.members, filterMap_filter]
    refine filterMap_congr fun m _ => ?_
    split
    · rfl
    next hgone =>
    cases hview : s.viewMember m with
    | none => rfl
    | some v =>
    obtain ⟨-, head, hhead, hscope, hact⟩ := viewMember_some hview
    have hkept := isGone_of_kept hinv hhead (.inl hact)
    rw [hscope] at hkept
    rw [hkept] at hgone
    exact absurd rfl hgone
  rw [Tables.view, Tables.view, hthrs, hmems, h.pending]

/-- A chain is as it was: its facts, members, their revisions and positions. -/
structure SameEpoch (s t : Tables) (scope : Scope) (epoch : Int) : Prop where
  chain : ∀ g, g.scope = scope → g.epoch = epoch → (g ∈ t.chains ↔ g ∈ s.chains)
  members : ∀ m, m.scope = scope → m.epoch = epoch → (m ∈ t.members ↔ m ∈ s.members)
  content : ∀ m ∈ s.members, m.scope = scope → m.epoch = epoch → ∀ c ∈ s.content, c.isOf m →
    c ∈ t.content ∧ t.itemsOf c.contentId = s.itemsOf c.contentId
  positions : ∀ m ∈ s.members, m.scope = scope → m.epoch = epoch → ∀ p ∈ s.turns, p.isOf m →
    p ∈ t.turns

/-- A collection keeps the fallback epoch of a thread, but for positions without a member. -/
lemma Collected.fallback (hinv : Inv ids s) (h : Collected s t) {head : Head}
    (hhead : head ∈ s.heads) {epoch : Int} (hfall : s.fallback head = some epoch) :
    SameEpoch s t head.scope epoch := by
  have hgone := isGone_of_kept hinv hhead (.inr hfall)
  have hmems : ∀ m, m.scope = head.scope → m.epoch = epoch → (m ∈ t.members ↔ m ∈ s.members) := by
    intro m hscope hepoch
    rw [h.members, mem_filter, hscope, hepoch, hgone]
    exact and_iff_left rfl
  refine ⟨?_, hmems, ?_, ?_⟩
  · intro g hscope hepoch
    rw [h.chains, mem_filter]
    refine and_iff_left_of_imp fun hg => ?_
    rw [isStale_of_kept hinv hhead hg hscope (.inr (hepoch ▸ hfall))]
    rfl
  · intro m hm hscope hepoch c hc hof
    have hkept := (hmems m hscope hepoch).mpr hm
    refine ⟨?_, hof.1 ▸ h.items m hkept⟩
    rw [h.content, mem_filter, any_eq_true]
    exact ⟨hc, m, hkept, decide_eq_true hof.1.symm⟩
  intro m hm hscope hepoch p hp hof
  have hkept := (hmems m hscope hepoch).mpr hm
  rw [h.turns, mem_filter, mem_filter, any_eq_true, hof.1, hof.2.1, hscope, hepoch, hgone]
  exact ⟨⟨hp, rfl⟩, m, hkept, decide_eq_true hof⟩

/-! ## Deletions and collections do not fail -/

lemma inv_exec {ops : List Op} (h : ∀ op ∈ ops, op.WellFormed ids) :
    Inv ids (exec step empty ops) := by
  have hkeeps : ∀ (ops : List Op) (s : Tables), Inv ids s → (∀ op ∈ ops, op.WellFormed ids) →
      Inv ids (exec step s ops) := by
    intro ops
    induction ops with
    | nil => exact fun s hs _ => hs
    | cons op ops ih =>
    intro s hs hops
    exact ih _ (inv_step hs (hops op mem_cons_self)) fun other hother =>
      hops other (mem_cons_of_mem op hother)
  exact hkeeps ops empty (inv_empty ids) h

end Tables

end CodeWide.HistoryCache
