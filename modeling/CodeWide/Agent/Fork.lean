import CodeWide.Lib.Json
import CodeWide.Lib.Run
import Mathlib.Data.List.Nodup

/-!
# The handoff of a fork

A fork carries the newest turns of its source as a text before the first message, in memory and in
a durable record.
-/

namespace CodeWide.Agent

open Lib List Table Option

def maxSourceTurns : Nat := 500

structure AgentTurn (ι : Type) where
  turnId : String
  items : List ι

section Source

attribute [local irreducible] maxSourceTurns

variable {ι : Type}

/-- The pages of turns, newest first, are read until there are enough. -/
def readPages (turns : List (AgentTurn ι)) : List (List (AgentTurn ι)) → List (AgentTurn ι)
  | [] => turns
  | page :: rest => if turns.length < maxSourceTurns then readPages (turns ++ page) rest else turns

def namedTurn (params : Json) (field : String) : Option String := (params.get? field).bind Json.asStr?

def turnPosition (params : Json) (field : String) (turns : List (AgentTurn ι)) : Option Nat :=
  (namedTurn params field).bind (fun id => turns.findIdx? (fun turn => decide (turn.turnId = id)))

/-- `source_turns`: oldest first, up to the fork point. -/
def sourceTurns (pages : List (List (AgentTurn ι))) (params : Json) : List (AgentTurn ι) :=
  let turns := ((readPages [] pages).take maxSourceTurns).reverse
  match turnPosition params "lastTurnId" turns with
  | some last => turns.take (last + 1)
  | none =>
    match turnPosition params "beforeTurnId" turns with
    | some before => turns.take before
    | none => turns

def handoffText (preamble : List (AgentTurn ι) → String) (pages : List (List (AgentTurn ι)))
    (params : Json) : String := preamble (sourceTurns pages params)

inductive ForkPoint where
  | last (turnId : String)
  | before (turnId : String)

namespace ForkPoint

def turnId : ForkPoint → String
  | .last id | .before id => id

/-- How many turns of the history a fork at its turn `k` takes over. -/
def count : ForkPoint → Nat → Nat
  | .last _, k => k + 1
  | .before _, k => k

def NamedBy (params : Json) : ForkPoint → Prop
  | .last id => namedTurn params "lastTurnId" = some id ∧ namedTurn params "beforeTurnId" = none
  | .before id => namedTurn params "lastTurnId" = none ∧ namedTurn params "beforeTurnId" = some id

end ForkPoint

lemma take_readPages (turns : List (AgentTurn ι)) (pages : List (List (AgentTurn ι))) :
    (readPages turns pages).take maxSourceTurns = (turns ++ pages.flatten).take maxSourceTurns := by
  induction pages generalizing turns with
  | nil => rw [readPages, flatten_nil, append_nil]
  | cons page rest ih =>
  rw [readPages]
  split
  · rw [ih, flatten_cons, append_assoc]
  · next henough => rw [take_append_of_le_length (Nat.le_of_not_lt henough)]

variable {pages : List (List (AgentTurn ι))}

lemma newest_eq {history : List (AgentTurn ι)} (hpages : pages.flatten = history.reverse) :
    ((readPages [] pages).take maxSourceTurns).reverse =
      history.drop (history.length - maxSourceTurns) := by
  rw [take_readPages, nil_append, hpages, take_reverse, reverse_reverse]

variable {history : List (AgentTurn ι)} {k d : Nat} {turn : AgentTurn ι}

lemma index_eq (hdistinct : (history.map AgentTurn.turnId).Nodup)
    (hturn : history[k]? = some turn) {i : Nat} {other : AgentTurn ι}
    (hother : history[i]? = some other) (hid : other.turnId = turn.turnId) : i = k := by
  have hi : (history.map AgentTurn.turnId)[i]? = some turn.turnId := by
    rw [List.getElem?_map, hother, map_some, hid]
  have hk : (history.map AgentTurn.turnId)[k]? = some turn.turnId := by
    rw [List.getElem?_map, hturn, map_some]
  obtain ⟨hilt, -⟩ := List.getElem?_eq_some_iff.mp hi
  exact (List.getElem?_inj hilt hdistinct).mp (hi.trans hk.symm)

lemma findIdx?_drop (hdistinct : (history.map AgentTurn.turnId).Nodup)
    (hturn : history[k]? = some turn) :
    (history.drop d).findIdx? (fun other => decide (other.turnId = turn.turnId)) =
      if d ≤ k then some (k - d) else none := by
  split
  · next hle =>
    have hget : (history.drop d)[k - d]? = some turn := by
      rw [List.getElem?_drop, Nat.add_sub_cancel' hle]
      exact hturn
    obtain ⟨hlt, heq⟩ := List.getElem?_eq_some_iff.mp hget
    rw [List.findIdx?_eq_some_iff_getElem]
    refine ⟨hlt, by rw [heq]; exact decide_eq_true rfl, fun j hj => ?_⟩
    intro hsame
    have hother : history[d + j]? = some ((history.drop d)[j]) := by
      rw [← List.getElem?_drop]
      exact List.getElem?_eq_getElem _
    have hindex := index_eq hdistinct hturn hother (of_decide_eq_true hsame)
    omega
  next hlt =>
  rw [List.findIdx?_eq_none_iff]
  intro other hmem
  obtain ⟨i, hi⟩ := List.mem_iff_getElem?.mp hmem
  rw [List.getElem?_drop] at hi
  refine decide_eq_false (fun hid => ?_)
  have hindex := index_eq hdistinct hturn hi hid
  omega

lemma sourceTurns_eq {params : Json} {point : ForkPoint} (hpages : pages.flatten = history.reverse)
    (hdistinct : (history.map AgentTurn.turnId).Nodup) (hpoint : point.NamedBy params)
    (hturn : history[k]? = some turn) (hid : turn.turnId = point.turnId) :
    sourceTurns pages params = if history.length ≤ k + maxSourceTurns then
        (history.take (point.count k)).drop (history.length - maxSourceTurns)
      else history.drop (history.length - maxSourceTurns) := by
  have hfind := @findIdx?_drop _ _ _ (history.length - maxSourceTurns) _ hdistinct hturn
  have hiff : history.length - maxSourceTurns ≤ k ↔ history.length ≤ k + maxSourceTurns := by omega
  rw [if_congr hiff rfl rfl, hid] at hfind
  unfold sourceTurns
  rw [newest_eq hpages]
  simp only
  cases point with
  | last id =>
    have hlast : turnPosition params "lastTurnId" (history.drop (history.length - maxSourceTurns)) =
          if history.length ≤ k + maxSourceTurns then
            some (k - (history.length - maxSourceTurns)) else none := by
      unfold turnPosition
      rw [hpoint.1]
      exact hfind
    have hbef : turnPosition params "beforeTurnId"
        (history.drop (history.length - maxSourceTurns)) = none := by
      unfold turnPosition
      rw [hpoint.2]
      rfl
    by_cases hle : history.length ≤ k + maxSourceTurns
    · rw [if_pos hle] at hlast
      rw [hlast, if_pos hle, drop_take]
      exact congrArg (fun n => take n _) (Nat.succ_sub (Nat.sub_le_iff_le_add.mpr hle)).symm
    · rw [if_neg hle] at hlast
      rw [hlast, hbef, if_neg hle]
  | before id =>
  have hlast : turnPosition params "lastTurnId"
      (history.drop (history.length - maxSourceTurns)) = none := by
    unfold turnPosition
    rw [hpoint.1]
    rfl
  have hbef : turnPosition params "beforeTurnId" (history.drop (history.length - maxSourceTurns)) =
        if history.length ≤ k + maxSourceTurns then
          some (k - (history.length - maxSourceTurns)) else none := by
    unfold turnPosition
    rw [hpoint.2]
    exact hfind
  by_cases hle : history.length ≤ k + maxSourceTurns
  · rw [if_pos hle] at hbef
    rw [hlast, hbef, if_pos hle, drop_take]
    rfl
  · rw [if_neg hle] at hbef
    rw [hlast, hbef, if_neg hle]

lemma sourceTurns_upTo_iff {params : Json}
    {point : ForkPoint} (hpages : pages.flatten = history.reverse)
    (hdistinct : (history.map AgentTurn.turnId).Nodup) (hpoint : point.NamedBy params)
    (hturn : history[k]? = some turn) (hid : turn.turnId = point.turnId) :
    (∀ taken ∈ sourceTurns pages params, taken ∈ history.take (point.count k)) ↔
      history.length ≤ k + maxSourceTurns := by
  rw [sourceTurns_eq hpages hdistinct hpoint hturn hid]
  split
  · next hle => exact iff_of_true (fun taken hmem => mem_of_mem_drop hmem) hle
  next hlt =>
  refine iff_of_false (fun hall => ?_) hlt
  -- the newest turn of all is taken over
  have hlast : history.length - 1 < history.length := by omega
  have hnewe : history[history.length - 1]? = some history[history.length - 1] :=
    getElem?_eq_getElem hlast
  have htaken : history[history.length - 1] ∈ history.drop (history.length - maxSourceTurns) := by
    refine mem_iff_getElem?.mpr ⟨maxSourceTurns - 1, ?_⟩
    rw [getElem?_drop, ← hnewe]
    congr 1
    unfold maxSourceTurns at hlt ⊢
    omega
  obtain ⟨i, hi⟩ := mem_iff_getElem?.mp (hall _ htaken)
  have hcount : point.count k ≤ k + 1 := by
    cases point
    · exact Nat.le_refl _
    · exact Nat.le_succ _
  rw [getElem?_take] at hi
  split at hi
  · next hicount =>
    have hindex := index_eq hdistinct hnewe hi rfl
    unfold maxSourceTurns at hlt
    omega
  · cases hi

end Source

structure ForkRecord where
  pendingHandoff : Option String

/-- `pending` is in memory, `records` is stored; a worker is clearing the record of each
thread of `consuming`. -/
structure ForkService where
  pending : Table String String
  records : Table String ForkRecord
  consuming : List String

namespace ForkService

def putPending (pending : Table String String) (e : String × ForkRecord) : Table String String :=
  match e.2.pendingHandoff with
  | some handoff => pending.insert e.1 handoff
  | none => pending

def loadPending (records : Table String ForkRecord) : Table String String :=
  records.entries.foldl putPending ∅

def preamblePart (preamble : String) : Json :=
  .ofFields [("type", .str "text"), ("text", .str preamble), ("text_elements", .arr [])]

def prepend (preamble : String) (params : Json) : Json :=
  match (params.get? "input").bind Json.asArr? with
  | some input => params.insert "input" (.arr (preamblePart preamble :: input))
  | none => params

def inject (s : ForkService) (method : String) (params : Json) : Json :=
  if method ≠ "turn/start" then params
  else match (params.get? "threadId").bind Json.asStr? with
    | none => params
    | some threadId =>
      match s.pending.get? threadId with
      | none => params
      | some preamble => prepend preamble params

def observeStarted (s : ForkService) (threadId : String) : ForkService :=
  if s.pending.contains threadId then
    { s with pending := s.pending.erase threadId, consuming := s.consuming ++ [threadId] }
  else s

def consume (s : ForkService) (threadId : String) : ForkService :=
  if threadId ∈ s.consuming then
    { s with
      records := if s.records.contains threadId then s.records.insert threadId ⟨none⟩ else s.records
      consuming := s.consuming.erase threadId }
  else s

def restart (s : ForkService) : ForkService := ⟨loadPending s.records, s.records, []⟩

lemma get?_loadPending (records : Table String ForkRecord) (threadId : String) :
    (loadPending records).get? threadId =
      (records.get? threadId).bind ForkRecord.pendingHandoff := by
  have hput : ∀ (t : Table String String) (e : String × ForkRecord) (k : String),
      (putPending t e).get? k = if k = e.1 then e.2.pendingHandoff.or (t.get? k) else t.get? k := by
    intro t e k
    unfold putPending
    cases e.2.pendingHandoff with
    | none => simp
    | some handoff => rw [get?_insert, some_or]
  unfold loadPending
  rw [@get?_foldl_entries _ _ _ _ _ (fun record old => record.pendingHandoff.or old) hput]
  cases records.get? threadId with
  | none => rfl
  | some record => exact or_none

lemma prepend_ne {preamble : String} {params : Json} {input : List Json}
    (hinput : (params.get? "input").bind Json.asArr? = some input) :
    prepend preamble params ≠ params := by
  obtain ⟨value, hvalue, harr⟩ := bind_eq_some_iff.mp hinput
  intro heq
  have hprepend : prepend preamble params =
      params.insert "input" (.arr (preamblePart preamble :: input)) := by
    unfold prepend
    rw [hinput]
  rw [hprepend] at heq
  have hget := Json.get?_insert (Json.isObj_of_get? hvalue) "input" "input"
    (.arr (preamblePart preamble :: input))
  rw [heq, hvalue, if_pos rfl] at hget
  cases hget
  exact absurd (congrArg length (some.inj harr)) (by simp)

end ForkService

structure Attempt where
  given : Json
  sent : Json
  early : Bool
  /-- A restart had come between an observed start and the end of its worker. -/
  afterLoss : Bool
deriving DecidableEq

inductive ForkEvent where
  | request (params : Json)
  | started (threadId : String) (attempt : Option Nat)
  | consumed (threadId : String)
  | restart

structure Followed.Fork where
  service : ForkService
  attempts : List Attempt
  starts : Nat
  /-- The attempts of the turns after the first. -/
  later : List Attempt
  /-- A restart came while the record was to be cleared, and no turn has started since. -/
  lost : Bool

namespace Followed.Fork

variable (threadId : String)

def step (s : Fork) : ForkEvent → Fork
  | .request params =>
    if (params.get? "threadId").bind Json.asStr? = some threadId then
      let attempt : Attempt :=
        ⟨params, s.service.inject "turn/start" params, decide (s.starts = 0), s.lost⟩
      { s with attempts := s.attempts ++ [attempt] }
    else s
  | .started other attempt =>
    let service := s.service.observeStarted other
    if other = threadId then
      { s with
        service, starts := s.starts + 1, lost := false
        later := if s.starts = 0 then s.later
          else s.later ++ (attempt.bind (fun i => s.attempts[i]?)).toList }
    else { s with service }
  | .consumed other => { s with service := s.service.consume other }
  | .restart =>
    { s with
      service := s.service.restart, lost := s.lost || decide (threadId ∈ s.service.consuming) }

structure Start (handoff : String) (s : Fork) : Prop where
  pending : s.service.pending.get? threadId = some handoff
  record : s.service.records.get? threadId = some ⟨some handoff⟩
  idle : threadId ∉ s.service.consuming
  attempts : s.attempts = []
  starts : s.starts = 0
  later : s.later = []
  lost : s.lost = false

/-- Every attempt before the first start carries the handoff, and no later turn does. -/
def Once (handoff : String) (s : Fork) : Prop :=
  (∀ a ∈ s.attempts, a.early = true → a.sent = ForkService.prepend handoff a.given) ∧
    ∀ a ∈ s.later, a.sent = a.given

/-- No turn after the first is of an attempt with an input from before the first start. -/
def Meets (s : Fork) : ForkEvent → Prop
  | .started other (some i) => other = threadId → s.starts ≠ 0 → ∀ a ∈ s.attempts[i]?,
    (a.early || a.afterLoss) = true → (a.given.get? "input").bind Json.asArr? = none
  | _ => True

/-- The handoff is in memory exactly before the first start and after a loss. -/
structure Inv (handoff : String) (s : Fork) : Prop where
  pending : s.service.pending.get? threadId =
    if s.starts = 0 ∨ s.lost = true then some handoff else none
  record : s.service.records.get? threadId =
    some ⟨if s.starts = 0 ∨ s.lost = true ∨ threadId ∈ s.service.consuming then some handoff
      else none⟩
  idle : s.starts = 0 ∨ s.lost = true → threadId ∉ s.service.consuming
  once : s.service.consuming.count threadId ≤ 1
  sent : ∀ a ∈ s.attempts, a.sent =
    if (a.early || a.afterLoss) = true then ForkService.prepend handoff a.given else a.given
  later : ∀ a ∈ s.later, a.sent = a.given

variable {threadId} {handoff : String} {s : Fork}

lemma Start.inv (h : s.Start threadId handoff) : s.Inv threadId handoff where
  pending := by rw [h.pending, if_pos (.inl h.starts)]
  record := by rw [h.record, if_pos (.inl h.starts)]
  idle := fun _ => h.idle
  once := by rw [count_eq_zero_of_not_mem h.idle]; exact Nat.zero_le _
  sent a hmem := by
    rw [h.attempts] at hmem
    cases hmem
  later a hmem := by
    rw [h.later] at hmem
    cases hmem

section

variable (h : s.Inv threadId handoff)
include h

lemma Inv.once_carried : s.Once handoff := by
  refine ⟨fun a hmem hearly => ?_, h.later⟩
  rw [h.sent a hmem, hearly, Bool.true_or, if_pos rfl]

open ForkService

lemma inject_eq {params : Json} (hthr : (params.get? "threadId").bind Json.asStr? = some threadId) :
    s.service.inject "turn/start" params =
      if s.starts = 0 ∨ s.lost = true then ForkService.prepend handoff params else params := by
  unfold inject
  rw [if_neg (fun hne => hne rfl), hthr]
  simp only
  rw [h.pending]
  by_cases hwaits : s.starts = 0 ∨ s.lost = true
  · rw [if_pos hwaits, if_pos hwaits]
  · rw [if_neg hwaits, if_neg hwaits]

lemma inv_request (params : Json) : (step threadId s (.request params)).Inv threadId handoff := by
  unfold step
  simp only
  split
  · next hthr =>
    refine ⟨h.pending, h.record, h.idle, h.once, fun a hmem => ?_, h.later⟩
    rcases mem_concat.mp hmem with hold | hnew
    · exact h.sent a hold
    · rw [hnew]
      simp only [Bool.or_eq_true, decide_eq_true_eq]
      exact inject_eq h hthr
  · exact h

lemma inv_started_other {other : String} (hne : other ≠ threadId) :
    Inv threadId handoff { s with service := s.service.observeStarted other } := by
  unfold observeStarted
  split
  · have hmem : threadId ∈ s.service.consuming ++ [other] ↔ threadId ∈ s.service.consuming := by
      rw [mem_append, mem_singleton, or_iff_left hne.symm]
    refine ⟨?_, ?_, fun hwaits => ?_, ?_, h.sent, h.later⟩
    · exact (get?_erase_of_ne _ hne.symm).trans h.pending
    · simp only [hmem]
      exact h.record
    · exact fun hcon => h.idle hwaits (hmem.mp hcon)
    · change (s.service.consuming ++ [other]).count threadId ≤ 1
      rw [count_append, count_singleton, if_neg (by simpa using hne)]
      exact h.once
  · exact h

lemma inv_started {later : List Attempt} (hlater : ∀ a ∈ later, a.sent = a.given) :
    Inv threadId handoff { s with
      service := s.service.observeStarted threadId, starts := s.starts + 1, lost := false
      later } := by
  unfold observeStarted Table.contains
  rw [h.pending]
  by_cases hwaits : s.starts = 0 ∨ s.lost = true
  · have hidle := h.idle hwaits
    rw [if_pos hwaits, isSome_some, if_pos rfl]
    have hcount : (s.service.consuming ++ [threadId]).count threadId = 1 := by
      rw [count_append, count_eq_zero_of_not_mem hidle, count_singleton_self]
    refine ⟨?_, ?_, fun hnew => ?_, Nat.le_of_eq hcount, h.sent, hlater⟩
    · rw [if_neg (by simp)]
      exact get?_erase_self _ _
    · have hmem : threadId ∈ s.service.consuming ++ [threadId] := by simp
      simp only [hmem, or_true, if_true]
      exact h.record.trans (by rw [if_pos (or_assoc.mp (.inl hwaits))])
    · rcases hnew with hstar | hlost
      · cases hstar
      · cases hlost
  obtain ⟨hstar, hlost⟩ := not_or.mp hwaits
  rw [if_neg hwaits]
  refine ⟨?_, ?_, fun hnew => ?_, h.once, h.sent, hlater⟩
  · rw [if_neg (by simp)]
    exact h.pending.trans (if_neg hwaits)
  · refine h.record.trans ?_
    simp [hstar, hlost]
  · rcases hnew with hstar | hlost
    · cases hstar
    · cases hlost

lemma inv_consumed (other : String) :
    Inv threadId handoff { s with service := s.service.consume other } := by
  unfold consume
  split
  · next hwk =>
    by_cases hother : other = threadId
    · subst hother
      have hwaits : ¬ (s.starts = 0 ∨ s.lost = true) := fun hwaits => h.idle hwaits hwk
      have hgone : other ∉ s.service.consuming.erase other := by
        rw [← count_eq_zero, count_erase_self]
        have hcount := h.once
        omega
      have hcont : s.service.records.contains other = true := by
        unfold Table.contains
        rw [h.record]
        rfl
      refine ⟨h.pending, ?_, fun hnew => absurd hnew hwaits, ?_, h.sent, h.later⟩
      · simp only [hcont, if_true, get?_insert_self]
        rw [if_neg]
        rintro (hstar | hlost | hmem)
        · exact hwaits (.inl hstar)
        · exact hwaits (.inr hlost)
        · exact hgone hmem
      · exact Nat.le_trans (count_eq_zero_of_not_mem hgone).le (Nat.zero_le _)
    have hmem : threadId ∈ s.service.consuming.erase other ↔ threadId ∈ s.service.consuming :=
      mem_erase_of_ne (Ne.symm hother)
    refine ⟨h.pending, ?_, fun hwaits => fun hcon => h.idle hwaits (hmem.mp hcon), ?_, h.sent,
      h.later⟩
    · simp only [hmem]
      split
      · exact (get?_insert_of_ne _ _ (Ne.symm hother)).trans h.record
      · exact h.record
    · change (s.service.consuming.erase other).count threadId ≤ 1
      rw [count_erase_of_ne (Ne.symm hother)]
      exact h.once
  · exact h

lemma inv_restart : (step threadId s .restart).Inv threadId handoff := by
  unfold step restart
  refine ⟨?_, ?_, fun _ => not_mem_nil, Nat.zero_le _, h.sent, h.later⟩
  · simp only [get?_loadPending, h.record, bind_some, Bool.or_eq_true, decide_eq_true_eq]
  · simp only [h.record, Bool.or_eq_true, decide_eq_true_eq, not_mem_nil, or_false]

lemma inv_step {e : ForkEvent} (hmeets : s.Meets threadId e) :
    (step threadId s e).Inv threadId handoff := by
  cases e with
  | request params => exact inv_request h params
  | started other attempt =>
    unfold step
    simp only
    split
    · next hother =>
      subst hother
      refine inv_started h (fun a hmem => ?_)
      split at hmem
      · exact h.later a hmem
      next hstar =>
      rcases mem_append.mp hmem with hold | hnew
      · exact h.later a hold
      cases attempt with
      | none => cases hnew
      | some i =>
      have ha : s.attempts[i]? = some a := mem_toList.mp hnew
      have hsent := h.sent a (mem_of_getElem? ha)
      by_cases hcarry : (a.early || a.afterLoss) = true
      · rw [hsent, if_pos hcarry]
        unfold prepend
        rw [hmeets rfl hstar a ha hcarry]
      · rw [hsent, if_neg hcarry]
    · next hother => exact inv_started_other h hother
  | consumed other => exact inv_consumed h other
  | restart => exact inv_restart h

lemma meets_of_once_step {e : ForkEvent}
    (honce : (step threadId s e).Once handoff) : s.Meets threadId e := by
  cases e with
  | started other attempt =>
    cases attempt with
    | none => trivial
    | some i =>
    intro hother hstar a ha hcarry
    subst hother
    have hlater : a ∈ (step other s (.started other (some i))).later := by
      unfold step
      simp only [if_true]
      rw [if_neg hstar, bind_some, ha]
      exact mem_concat_self
    have hsame := honce.2 a hlater
    rw [h.sent a (mem_of_getElem? ha), if_pos hcarry] at hsame
    cases hinput : (a.given.get? "input").bind Json.asArr? with
    | none => rfl
    | some input => exact absurd hsame (prepend_ne hinput)
  | _ => trivial

end

/-- A fork carries the history up to its point once, exactly when that is one of the newest turns.
-/
theorem fork_carries_once_iff {ι : Type} (preamble : List (AgentTurn ι) → String)
    {pages : List (List (AgentTurn ι))} {history : List (AgentTurn ι)} {params : Json}
    {point : ForkPoint} {k : Nat} {turn : AgentTurn ι} (hpages : pages.flatten = history.reverse)
    (hdistinct : (history.map AgentTurn.turnId).Nodup) (hpoint : point.NamedBy params)
    (hturn : history[k]? = some turn) (hid : turn.turnId = point.turnId)
    (hstart : s.Start threadId (handoffText preamble pages params)) (events : List ForkEvent) :
    ((∀ taken ∈ sourceTurns pages params, taken ∈ history.take (point.count k)) ↔
      history.length ≤ k + maxSourceTurns) ∧
    ((∀ done rest, events = done ++ rest →
        (exec (step threadId) s done).Once (handoffText preamble pages params)) ↔
      Always (step threadId) (Meets threadId) s events) :=
  ⟨sourceTurns_upTo_iff hpages hdistinct hpoint hturn hid,
    always_iff_of_guarded (T := Inv threadId (handoffText preamble pages params))
      (P := Once (handoffText preamble pages params)) (Q := Meets threadId)
      (fun _ h => h.once_carried) (fun _ _ h hmeets => inv_step h hmeets)
      (fun _ _ h honce => meets_of_once_step h honce) hstart.inv events⟩

def forkParams : Json := .ofFields [("lastTurnId", .str "u")]

def sourcePages : List (List (AgentTurn Unit)) := [[⟨"u", []⟩]]

def forked (text : String) : Fork :=
  ⟨⟨(∅ : Table _ _).insert "t" text, (∅ : Table _ _).insert "t" ⟨some text⟩, []⟩, [], 0, [], false⟩

def firstMessage : Json :=
  .ofFields [("threadId", .str "t"), ("input", .arr [.str "hello"])]

lemma forked_start (text : String) : (forked text).Start "t" text where
  pending := get?_insert_self _ _ _
  record := get?_insert_self _ _ _
  idle := not_mem_nil
  attempts := rfl
  starts := rfl
  later := rfl
  lost := rfl

/-- A delivery that is tried twice, a restart, and a second message. -/
theorem fork_carries_once_of_retry :
    ((∀ taken ∈ sourceTurns sourcePages forkParams,
        taken ∈ [(⟨"u", []⟩ : AgentTurn Unit)].take 1) ↔ 1 ≤ 0 + maxSourceTurns) ∧
    ((∀ done rest, [.request firstMessage, .request firstMessage, .started "t" (some 1),
        .consumed "t", .restart, .request firstMessage, .started "t" (some 2)] = done ++ rest →
        (exec (step "t") (forked "history") done).Once "history") ↔
      Always (step "t") (Meets "t") (forked "history")
        [.request firstMessage, .request firstMessage, .started "t" (some 1),
          .consumed "t", .restart, .request firstMessage, .started "t" (some 2)]) :=
  @fork_carries_once_iff "t" (forked "history") Unit (fun _ => "history") sourcePages
    [⟨"u", []⟩] forkParams (.last "u") 0 ⟨"u", []⟩ rfl (by decide) ⟨rfl, rfl⟩ rfl rfl
    (forked_start "history") _

/-- After a restart that came before the record was cleared, the second turn carries the
handoff again. -/
theorem handoff_repeated_after_restart :
    ¬ (exec (step "t") (forked "history")
      [.request firstMessage, .started "t" (some 0), .restart, .request firstMessage,
        .started "t" (some 1)]).Once "history" := by
  intro honce
  have hsame := honce.2 ⟨firstMessage, ForkService.prepend "history" firstMessage, false, true⟩
    (by decide)
  exact absurd hsame (by decide)

end Followed.Fork

end CodeWide.Agent
