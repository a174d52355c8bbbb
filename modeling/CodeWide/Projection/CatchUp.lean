import CodeWide.Projection.Operations
import CodeWide.Projection.Slots

/-!
# Catching up with a thread

`ThreadSyncCatchUp` of the device. The settings a response seeds the thread with are left out.
-/

namespace CodeWide.Projection.CatchUp

open Lib List

inductive Kind
  | current
  | delta
  | reset
deriving DecidableEq

structure ThreadSyncHistory where
  kind : Kind
  olderCursor : Option String
  sourceWitness : Option String
  turns : List Turn

structure ThreadSyncResponse where
  activeTurn : Option Turn
  history : ThreadSyncHistory
  thread : Thread

structure ThreadSyncCatchUp where
  thread : Option Thread
  historyCursor : Option (Option String)
  reset : Bool
  sourceWitness : Option String

def isInProgress (turn : Turn) : Bool := decide (turn.fields.get? "status" = some (.str "inProgress"))

def setById (byId : List Turn) (turn : Turn) : List Turn :=
  if turn.id ∈ byId.map Turn.id then byId.map fun t => if t.id = turn.id then turn else t
  else byId ++ [turn]

section Materialize

variable (stringify : Json → String)

def mergeActiveTurnCheckpoint (cached : Option Thread) (checkpoint : Option Turn) : Option Turn :=
  checkpoint.map fun checkpoint =>
    let found := (cached.bind fun thread =>
      thread.turns.find? fun turn => decide (turn.id = checkpoint.id) && isInProgress turn)
    match found with
    | none => checkpoint
    | some previous =>
      let view := previous.fields.get? "itemsView"
      if view = some (.str "notLoaded") then checkpoint
      else
        let merged := checkpoint.fields.foldl (fun v f => v.insert f.1 f.2) previous.fields
        let metadata := projectedTurnMetadata previous.fields
        let checkpointMetadata := projectedTurnMetadata checkpoint.fields
        let withMetadata := if metadata = none ∧ checkpointMetadata = none then merged
          else merged.insert "codewide"
            (spread (metadata.getD (.obj [])) (checkpointMetadata.getD .null))
        let kept := if view = some (.str "full") ∨
            checkpoint.fields.get? "itemsView" = some (.str "notLoaded") then view
          else checkpoint.fields.get? "itemsView"
        { id := checkpoint.id
          fields := (kept.map (withMetadata.insert "itemsView")).getD
            (withMetadata.erase "itemsView")
          items := reconcileActiveTurnItems stringify previous.items checkpoint.items }

def materializeThreadSync (cached : Option Thread) (response : ThreadSyncResponse)
    (currentHistoryCursor : Option (Option String)) : Option (Option String) × Thread :=
  let isReset := decide (response.history.kind = .reset)
  let sealedTurns := if isReset then []
    else ((cached.map Thread.turns).getD []).filter (fun turn => !isInProgress turn)
  let byId := response.history.turns.foldl setById (sealedTurns.foldl setById [])
  let activeTurn :=
    mergeActiveTurnCheckpoint stringify (if isReset then none else cached) response.activeTurn
  (if isReset then some response.history.olderCursor else currentHistoryCursor,
    { response.thread with turns := byId ++ activeTurn.toList })

def ThreadSyncCatchUp.accept (c : ThreadSyncCatchUp) (response : ThreadSyncResponse) :
    ThreadSyncCatchUp :=
  let next := materializeThreadSync stringify c.thread response c.historyCursor
  ⟨some next.2, next.1, c.reset || decide (response.history.kind = .reset),
    response.history.sourceWitness⟩

structure Progress where
  catchUp : ThreadSyncCatchUp
  seen : List ThreadSyncResponse

def Progress.step (s : Progress) (response : ThreadSyncResponse) : Progress :=
  ⟨s.catchUp.accept stringify response, s.seen ++ [response]⟩

end Materialize

def Progress.turns (s : Progress) : List Turn := (s.catchUp.thread.map Thread.turns).getD []

def sealedIds (turns : List Turn) : List String :=
  (turns.filter fun turn => !isInProgress turn).map Turn.id

/-- The turns of a page are sealed, the active turn is none of them, and none is listed twice. -/
def Meets (s : Progress) (r : ThreadSyncResponse) : Prop :=
  (∀ t ∈ r.history.turns, isInProgress t = false) ∧
  (∀ a ∈ r.activeTurn, a.id ∉ r.history.turns.map Turn.id ∧
    (r.history.kind ≠ .reset → a.id ∉ sealedIds s.turns)) ∧
  (r.history.kind = .reset → ∀ q ∈ s.seen, ∀ t ∈ q.history.turns,
    t.id ∈ r.history.turns.map Turn.id)

structure Kept (cached : Option Thread) (historyCursor : Option (Option String)) (s : Progress) :
    Prop where
  unique : (s.turns.map Turn.id).Nodup
  pages : ∀ r ∈ s.seen, ∀ t ∈ r.history.turns, t.id ∈ sealedIds s.turns
  active : ∀ r ∈ s.seen.getLast?, ∀ t ∈ s.turns, isInProgress t = true →
    ∃ a ∈ r.activeTurn, a.id = t.id
  kept : (∀ r ∈ s.seen, r.history.kind ≠ .reset) →
    sealedIds ((cached.map Thread.turns).getD []) <+: sealedIds s.turns
  dropped : (∃ r ∈ s.seen, r.history.kind = .reset) → ∀ t ∈ s.turns, ∃ r ∈ s.seen,
    t.id ∈ r.history.turns.map Turn.id ∨ ∃ a ∈ r.activeTurn, a.id = t.id
  cursor : s.catchUp.historyCursor =
    (((s.seen.filter fun r => decide (r.history.kind = .reset)).getLast?).map
      fun r => some r.history.olderCursor).getD historyCursor

variable {stringify : Json → String} {historyCursor : Option (Option String)} {cached : Option Thread} {s : Progress}

@[simp] lemma mergeActiveTurnCheckpoint_id (checkpoint : Option Turn) :
    (mergeActiveTurnCheckpoint stringify cached checkpoint).map Turn.id =
      checkpoint.map Turn.id := by
  unfold mergeActiveTurnCheckpoint
  rw [Option.map_map]
  congr 1
  funext checkpoint
  simp only [Function.comp]
  split
  · rfl
  · split <;> rfl

lemma ids_setById (byId : List Turn) (turn : Turn) : (setById byId turn).map Turn.id =
    if turn.id ∈ byId.map Turn.id then byId.map Turn.id else byId.map Turn.id ++ [turn.id] := by
  unfold setById
  split
  · rw [map_map]
    refine map_congr_left fun t _ => ?_
    simp only [Function.comp]
    split
    · rename_i hsame
      exact hsame.symm
    · rfl
  · exact map_append

/-- The ids a map has stay in their places, and the new ones come behind them once. -/
lemma ids_foldl (byId turns : List Turn) (h : (byId.map Turn.id).Nodup) :
    byId.map Turn.id <+: (turns.foldl setById byId).map Turn.id ∧
      ((turns.foldl setById byId).map Turn.id).Nodup ∧
      ∀ id, id ∈ (turns.foldl setById byId).map Turn.id ↔
        id ∈ byId.map Turn.id ∨ id ∈ turns.map Turn.id := by
  induction turns generalizing byId with
  | nil => exact ⟨prefix_rfl, h, by simp⟩
  | cons turn rest ih =>
  have hids := ids_setById byId turn
  by_cases hmem : turn.id ∈ byId.map Turn.id
  · rw [if_pos hmem] at hids
    obtain ⟨hfront, hnodup, hall⟩ := ih (setById byId turn) (hids ▸ h)
    rw [hids] at hfront hall
    refine ⟨hfront, hnodup, fun id => (hall id).trans ?_⟩
    rw [map_cons, mem_cons]
    constructor
    · tauto
    rintro (hid | rfl | hid)
    · exact .inl hid
    · exact .inl hmem
    · exact .inr hid
  rw [if_neg hmem] at hids
  have hnew : ((setById byId turn).map Turn.id).Nodup := by
    rw [hids, nodup_append]
    exact ⟨h, nodup_singleton _, fun x hx y hy => by
      rw [mem_singleton.mp hy]
      rintro rfl
      exact hmem hx⟩
  obtain ⟨hfront, hnodup, hall⟩ := ih (setById byId turn) hnew
  rw [hids] at hfront hall
  refine ⟨(prefix_append _ _).trans hfront, hnodup, fun id => (hall id).trans ?_⟩
  simp only [mem_append, map_cons, mem_cons, not_mem_nil, or_false, or_assoc]

lemma foldl_setById_of_nodup (byId turns : List Turn)
    (h : ((byId ++ turns).map Turn.id).Nodup) : turns.foldl setById byId = byId ++ turns := by
  induction turns generalizing byId with
  | nil => exact (append_nil byId).symm
  | cons turn rest ih =>
  have hnew : turn.id ∉ byId.map Turn.id := fun hmem => by
    rw [map_append, nodup_append] at h
    exact h.2.2 _ hmem _ (mem_map_of_mem mem_cons_self) rfl
  rw [foldl_cons, setById, if_neg hnew, ih _ (by simpa using h), append_assoc, singleton_append]

lemma mem_foldl_setById {byId turns : List Turn} {t : Turn} (h : t ∈ turns.foldl setById byId) :
    t ∈ byId ∨ t ∈ turns := by
  induction turns generalizing byId with
  | nil => exact .inl h
  | cons turn rest ih =>
  rcases ih h with hset | hrest
  · unfold setById at hset
    split at hset
    · obtain ⟨u, hu, rfl⟩ := mem_map.mp hset
      split
      · exact .inr mem_cons_self
      · exact .inl hu
    · rcases mem_concat.mp hset with hold | hnew
      · exact .inl hold
      · exact .inr (hnew ▸ mem_cons_self)
  · exact .inr (mem_cons_of_mem _ hrest)

def Progress.byId (s : Progress) (r : ThreadSyncResponse) : List Turn :=
  r.history.turns.foldl setById ((if r.history.kind = .reset then []
    else s.turns.filter fun turn => !isInProgress turn).foldl setById [])

open Progress

variable (stringify s) in
lemma turns_step (r : ThreadSyncResponse) : ∃ active : Option Turn,
    active.map Turn.id = r.activeTurn.map Turn.id ∧
      (s.step stringify r).turns = s.byId r ++ active.toList :=
  ⟨mergeActiveTurnCheckpoint stringify
    (if r.history.kind = .reset then none else s.catchUp.thread) r.activeTurn,
    mergeActiveTurnCheckpoint_id _, by
    simp [step, ThreadSyncCatchUp.accept, materializeThreadSync, turns, byId]⟩

lemma sealed_byId {r : ThreadSyncResponse} (hmeets : Meets s r) :
    ∀ t ∈ s.byId r, isInProgress t = false := by
  intro t ht
  rcases mem_foldl_setById ht with hold | hnew
  · rcases mem_foldl_setById hold with hnil | hkept
    · cases hnil
    · split at hkept
      · cases hkept
      · simpa using (mem_filter.mp hkept).2
  · exact hmeets.1 t hnew

lemma sealedIds_append {byId active : List Turn} (h : ∀ t ∈ byId, isInProgress t = false) :
    byId.map Turn.id <+: sealedIds (byId ++ active) := by
  have hall : byId.filter (fun turn => !isInProgress turn) = byId :=
    filter_eq_self.mpr fun t ht => by simp [h t ht]
  rw [sealedIds, filter_append, map_append, hall]
  exact prefix_append _ _

lemma Kept.ids_byId (h : Kept cached historyCursor s) (r : ThreadSyncResponse) :
    (if r.history.kind = .reset then [] else sealedIds s.turns) <+: (s.byId r).map Turn.id ∧
      ((s.byId r).map Turn.id).Nodup ∧
      ∀ id, id ∈ (s.byId r).map Turn.id ↔
        (r.history.kind ≠ .reset ∧ id ∈ sealedIds s.turns) ∨ id ∈ r.history.turns.map Turn.id := by
  have hsealed : (sealedIds s.turns).Nodup := h.unique.sublist (filter_sublist.map Turn.id)
  unfold byId
  by_cases hreset : r.history.kind = .reset
  · simpa [hreset] using ids_foldl [] r.history.turns nodup_nil
  · rw [if_neg hreset, if_neg hreset, foldl_setById_of_nodup [] _ hsealed]
    simpa [hreset, sealedIds] using ids_foldl _ r.history.turns hsealed

lemma Kept.step (h : Kept cached historyCursor s) {r : ThreadSyncResponse} (hmeets : Meets s r) :
    Kept cached historyCursor (s.step stringify r) := by
  obtain ⟨active, hact, hturns⟩ := turns_step stringify s r
  obtain ⟨hfront, hnodup, hids⟩ := h.ids_byId r
  have hsealed := sealed_byId hmeets
  have hin : (s.byId r).map Turn.id <+: sealedIds (s.step stringify r).turns :=
    hturns ▸ sealedIds_append hsealed
  have hactiveIds : ∀ t ∈ active.toList, ∃ a ∈ r.activeTurn, a.id = t.id := by
    intro t ht
    obtain ⟨a, ha, hsame⟩ := Option.map_eq_some_iff.mp
      (hact.symm.trans (congrArg (Option.map Turn.id) (Option.mem_toList.mp ht)))
    exact ⟨a, ha, hsame⟩
  refine ⟨?_, ?_, ?_, ?_, ?_, ?_⟩
  · rw [hturns, map_append, nodup_append]
    refine ⟨hnodup, ?_, ?_⟩
    · cases active <;> simp
    intro id hid other hother
    obtain ⟨t, ht, rfl⟩ := mem_map.mp hother
    obtain ⟨a, ha, hsame⟩ := hactiveIds t ht
    obtain ⟨hpage, hkept⟩ := hmeets.2.1 a ha
    rintro rfl
    rcases (hids _).mp hid with ⟨hreset, hold⟩ | hnew
    · exact hkept hreset (hsame ▸ hold)
    · exact hpage (hsame ▸ hnew)
  · intro q hq t ht
    refine hin.subset ((hids _).mpr ?_)
    rcases mem_concat.mp hq with hq | hq
    · by_cases hreset : r.history.kind = .reset
      · exact .inr (hmeets.2.2 hreset q hq t ht)
      · exact .inl ⟨hreset, h.pages q hq t ht⟩
    · rw [hq] at ht
      exact .inr (mem_map_of_mem ht)
  · intro q hq t ht hrun
    simp only [Progress.step, getLast?_concat, Option.mem_some_iff] at hq
    subst hq
    rw [hturns] at ht
    rcases mem_append.mp ht with ht | ht
    · exact absurd (hsealed t ht) (by simp [hrun])
    · exact hactiveIds t ht
  · intro hnone
    have hreset : r.history.kind ≠ .reset := hnone r (mem_append_right _ mem_cons_self)
    rw [if_neg hreset] at hfront
    exact ((h.kept fun q hq => hnone q (mem_append_left _ hq)).trans hfront).trans hin
  · intro hsome t ht
    rw [hturns] at ht
    have hnow : ∀ q ∈ [r], q ∈ (s.step stringify r).seen := fun q hq => mem_append_right _ hq
    rcases mem_append.mp ht with ht | ht
    · rcases (hids _).mp (mem_map_of_mem ht) with ⟨hreset, hold⟩ | hnew
      · obtain ⟨u, hu, hsame⟩ := mem_map.mp hold
        have hbef : ∃ q ∈ s.seen, q.history.kind = .reset := by
          obtain ⟨q, hq, hkind⟩ := hsome
          rcases mem_concat.mp hq with hq | hq
          · exact ⟨q, hq, hkind⟩
          · exact absurd (hq ▸ hkind) hreset
        obtain ⟨q, hq, hgives⟩ := h.dropped hbef u (mem_filter.mp hu).1
        exact ⟨q, mem_append_left _ hq, hsame ▸ hgives⟩
      · exact ⟨r, mem_append_right _ mem_cons_self, .inl hnew⟩
    · exact ⟨r, mem_append_right _ mem_cons_self, .inr (hactiveIds t ht)⟩
  simp only [Progress.step, ThreadSyncCatchUp.accept, materializeThreadSync, filter_append]
  by_cases hreset : r.history.kind = .reset
  · simp [hreset]
  · simp [hreset, h.cursor]

def Progress.start (cached : Option Thread) (historyCursor : Option (Option String)) : Progress :=
  ⟨⟨cached, historyCursor, false, none⟩, []⟩

theorem catchUp_kept (hunique : (((cached.map Thread.turns).getD []).map Turn.id).Nodup)
    (responses : List ThreadSyncResponse)
    (h : Always (Progress.step stringify) Meets (.start cached historyCursor) responses) :
    Kept cached historyCursor
      (exec (Progress.step stringify) (.start cached historyCursor) responses) :=
  have hstart : Kept cached historyCursor (.start cached historyCursor) :=
    ⟨hunique, by simp [start], by simp [start], fun _ => prefix_rfl,
      by simp [start], rfl⟩
  exec_invariant_of_always (P := Kept cached historyCursor) (Q := Meets)
    (fun _ _ hs hmeets => hs.step hmeets) hstart h

def turnAs (id status : String) : Turn := ⟨id, [("status", .str status)], []⟩

def threadOf (turns : List Turn) : Thread := ⟨"t", 0, [], turns⟩

theorem catchUp_kept_of_delta :
    Kept (some (threadOf [turnAs "1" "completed", turnAs "2" "inProgress"])) none
      (exec (Progress.step fun _ => "")
        (.start (some (threadOf [turnAs "1" "completed", turnAs "2" "inProgress"])) none)
        [⟨some (turnAs "3" "inProgress"), ⟨.delta, none, none, [turnAs "2" "completed"]⟩,
          threadOf []⟩]) :=
  catchUp_kept (by decide) _
    ⟨⟨by decide, by simp [turnAs, sealedIds, threadOf, turns, start, isInProgress,
      Projection.Fields.get?, Json.lookupField], fun h => nomatch h⟩, trivial⟩

/-- The response was computed before the completion the device has. -/
theorem completed_turn_twice :
    ((exec (Progress.step fun _ => "") (.start (some (threadOf [turnAs "1" "completed"])) none)
      [⟨some (turnAs "1" "inProgress"), ⟨.delta, none, none, []⟩, threadOf []⟩]).turns.map
        Turn.id) = ["1", "1"] := by
  decide

end CodeWide.Projection.CatchUp
