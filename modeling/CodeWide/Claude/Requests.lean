import CodeWide.Claude.Lifecycle

/-!
# Claude's requests are answered once

A request of Claude waits for the user, or in a client tool call, or it has been answered.
-/

namespace CodeWide.Claude

open Lib List Table Nat

structure Asked where
  query : Nat
  requestId : String
  toolName : String
  turn : Option Uuid
  deriving DecidableEq

structure Held where
  query : Option LiveQuery
  generation : Nat
  turn : Option Uuid
  pending : Table String PendingRequest
  running : Table CallId String
  answers : List Answer
  calls : List (Uuid × CallId)
  uuids : Nat
  profile : PermissionProfile

def Reply.allows : Reply → Bool
  | .allow _ _ _ => true
  | _ => false

def PendingKind.Fits (profile : PermissionProfile) (toolName : String) : PendingKind → Prop
  | .approval _ => profileAllowsTool profile toolName = true
  | .userInput _ => toolName = "AskUserQuestion"

/-- No call id is used twice in a turn, and the calls that run are of the active turn. -/
structure Called (turn : Option Uuid) (running : Table CallId String)
    (calls : List (Uuid × CallId)) (uuids : Nat) : Prop where
  nodup : calls.Nodup
  drawn : ∀ call ∈ calls, call.1 < uuids ∧ ∀ n, call.2 = toLex (.inr n) → n < uuids
  ofTurn : ∀ callId, (running.get? callId).isSome → ∃ t, turn = some t ∧ (t, callId) ∈ calls
  active : ∀ t, turn = some t → t < uuids

namespace Called

variable {turn : Option Uuid} {running : Table CallId String} {calls : List (Uuid × CallId)}
  {uuids : Nat}

section

variable (h : Called turn running calls uuids)
include h

lemma idle {other : Option Uuid}
    (hother : ∀ t, other = some t → t < uuids) : Called other ∅ calls uuids :=
  ⟨h.nodup, h.drawn, fun callId hrun => by simp at hrun, hother⟩

lemma erase (callId : CallId) : Called turn (running.erase callId) calls uuids := by
  refine ⟨h.nodup, h.drawn, fun other hrun => h.ofTurn other ?_, h.active⟩
  rw [get?_erase] at hrun
  split at hrun
  · cases hrun
  · exact hrun

lemma draw : Called turn running calls (uuids + 1) :=
  ⟨h.nodup, fun call hcall => ⟨lt_succ_of_lt (h.drawn call hcall).1,
    fun n hn => lt_succ_of_lt ((h.drawn call hcall).2 n hn)⟩, h.ofTurn,
    fun t ht => lt_succ_of_lt (h.active t ht)⟩

end

variable {callId : CallId}

lemma call (h : Called turn running calls uuids) {t : Uuid} (hturn : turn = some t) (hnew : (t, callId) ∉ calls) (hdrawn : ∀ n, callId = toLex (.inr n) → n < uuids)
    (requestId : String) :
    Called turn (running.insert callId requestId) (calls ++ [(t, callId)]) uuids := by
  refine ⟨?_, fun call hcall => ?_, fun other hrun => ?_, h.active⟩
  · refine nodup_append'.mpr ⟨h.nodup, nodup_singleton _, fun x hx hx' => ?_⟩
    rw [mem_singleton.mp hx'] at hx
    exact hnew hx
  · rcases mem_concat.mp hcall with hold | hlast
    · exact h.drawn call hold
    · rw [hlast]
      exact ⟨h.active t hturn, hdrawn⟩
  rw [get?_insert] at hrun
  split at hrun
  · next heq =>
    exact ⟨t, hturn, mem_append_right _ (mem_singleton.mpr (by rw [heq]))⟩
  · obtain ⟨u, hu, hmem⟩ := h.ofTurn other hrun
    exact ⟨u, hu, mem_append_left _ hmem⟩

lemma running_eq_none (h : Called turn running calls uuids) {t : Uuid} (hturn : turn = some t) (hnew : (t, callId) ∉ calls) : running.get? callId = none := by
  refine Option.not_isSome_iff_eq_none.mp (fun hrun => ?_)
  obtain ⟨u, hu, hmem⟩ := h.ofTurn callId hrun
  rw [hturn] at hu
  cases hu
  exact hnew hmem

end Called

namespace Held

def waiting (v : Held) : List String :=
  v.pending.entries.map (fun entry => entry.2.claudeRequestId) ++
    v.running.entries.map (fun entry => entry.2)

def answered (v : Held) : List String := v.answers.map Answer.requestId

structure Kept (v : Held) (asked : List Asked) (cancelled granted : List String) : Prop where
  nodup : (v.waiting ++ v.answered).Nodup
  waits : ∀ id ∈ v.waiting, ∃ r ∈ asked, r.requestId = id ∧ v.query = some ⟨r.query⟩ ∧
    v.turn ≠ none ∧ r.turn = v.turn
  toAsker : ∀ a ∈ v.answers, ∃ r ∈ asked, r.requestId = a.requestId ∧ r.query = a.query
  all : ∀ r ∈ asked, v.query = some ⟨r.query⟩ →
    r.requestId ∈ v.waiting ∨ r.requestId ∈ v.answered ∨ r.requestId ∈ cancelled
  past : ∀ r ∈ asked, r.query ≤ v.generation
  called : Called v.turn v.running v.calls v.uuids
  fits : ∀ key p, v.pending.get? key = some p →
    ∃ r ∈ asked, r.requestId = p.claudeRequestId ∧ p.kind.Fits v.profile r.toolName
  allowed : ∀ a ∈ v.answers, a.reply.allows = true → a.requestId ∈ granted

variable {v : Held} {asked : List Asked} {cancelled granted : List String}

lemma waiting_eq_nil (h : v.Kept asked cancelled granted) (hnone : v.turn = none ∨ v.query = none) :
    v.waiting = [] := by
  refine eq_nil_iff_forall_not_mem.mpr (fun id hid => ?_)
  obtain ⟨r, -, -, hquery, hturn, -⟩ := h.waits id hid
  rcases hnone with hnone | hnone
  · exact hturn hnone
  · rw [hnone] at hquery
    cases hquery

lemma waiting_of_empty (hpend : v.pending = ∅) (hrunn : v.running = ∅) : v.waiting = [] := by
  rw [waiting, hpend, hrunn]
  rfl

lemma empty_of_waiting (h : v.waiting = []) : v.pending = ∅ ∧ v.running = ∅ := by
  obtain ⟨hp, hr⟩ := append_eq_nil_iff.mp h
  refine ⟨ext_get? (fun key => ?_), ext_get? (fun key => ?_)⟩
  · rw [get?_empty, get?, map_eq_nil_iff.mp hp]
    rfl
  · rw [get?_empty, get?, map_eq_nil_iff.mp hr]
    rfl

variable {query : Option LiveQuery}

lemma Kept.of_idle (h : v.Kept asked cancelled granted) (hwait : v.waiting = [])
    {generation : Nat} (hgen : v.generation ≤ generation)
    (hquery : query = v.query ∨ query = none ∨ ∃ q, query = some q ∧ v.generation < q.generation)
    {turn : Option Uuid} (hturn : ∀ t, turn = some t → t < v.uuids) (profile : PermissionProfile) :
    Kept { v with query := query, generation := generation, turn := turn, profile := profile }
      asked cancelled granted where
  nodup := h.nodup
  waits id hid := by
    have hnil : id ∈ v.waiting := hid
    rw [hwait] at hnil
    cases hnil
  toAsker := h.toAsker
  all r hr hopen := by
    rcases hquery with heq | heq | ⟨q, heq, hlt⟩
    · exact h.all r hr (heq ▸ hopen)
    · cases heq.symm.trans hopen
    · cases heq.symm.trans hopen
      exact absurd (h.past r hr) (not_le.mpr hlt)
  past r hr := le_trans (h.past r hr) hgen
  called := by
    rw [(empty_of_waiting hwait).2]
    exact h.called.idle hturn
  fits key p hkey := by
    have hempty : v.pending.get? key = some p := hkey
    rw [(empty_of_waiting hwait).1] at hempty
    cases hempty
  allowed := h.allowed

/-- What `cancelEach` and `resolveEach` write for the requests that they are given. -/
def refusals (query : Option LiveQuery) (reply : Reply) (ids : List String) : List Answer :=
  match query with
  | some q => ids.map (fun id => ⟨q.generation, id, reply⟩)
  | none => []

lemma map_refusals {q : LiveQuery} (reply : Reply) (ids : List String) :
    (refusals (some q) reply ids).map Answer.requestId = ids := by
  rw [refusals, map_map]
  exact map_id ids

@[simp] lemma refusals_nil (query : Option LiveQuery) (reply : Reply) :
    refusals query reply [] = [] := by
  cases query <;> rfl

lemma refusals_cons (query : Option LiveQuery) (reply : Reply) (id : String) (ids : List String) :
    refusals query reply (id :: ids) = refusals query reply [id] ++ refusals query reply ids := by
  cases query <;> rfl

section

variable (h : v.Kept asked cancelled granted)
include h

variable {reply : Reply}

lemma Kept.answerEach {w : Held} {ids : List String} (hperm : v.waiting.Perm (ids ++ w.waiting))
    (hquery : w.query = v.query) (hgen : w.generation = v.generation)
    (hturns : w.turn = v.turn)
    (hans : w.answers = v.answers ++ refusals v.query reply ids)
    (hcalled : Called w.turn w.running w.calls w.uuids) (hprof : w.profile = v.profile)
    (hsub : ∀ key p, w.pending.get? key = some p → v.pending.get? key = some p)
    (hreply : reply.allows = true → ∀ id ∈ ids, id ∈ granted) : w.Kept asked cancelled granted := by
  have hmem : ∀ {a}, a ∈ refusals v.query reply ids →
      ∃ q, v.query = some q ∧ ∃ id ∈ ids, a = ⟨q.generation, id, reply⟩ := by
    intro a ha
    cases hq : v.query with
    | none =>
      rw [hq] at ha
      cases ha
    | some q =>
    rw [hq] at ha
    obtain ⟨id, hid, rfl⟩ := mem_map.mp ha
    exact ⟨q, rfl, id, hid, rfl⟩
  have hids : (refusals v.query reply ids).map Answer.requestId = ids := by
    cases hq : v.query with
    | none =>
      rw [waiting_eq_nil h (.inr hq)] at hperm
      rw [(append_eq_nil_iff.mp hperm.nil_eq.symm).1]
      rfl
    | some q => exact map_refusals reply ids
  have hansw : w.answered = v.answered ++ ids := by
    rw [answered, hans, map_append, hids]
    rfl
  refine ⟨?_, fun other hother => ?_, fun a ha => ?_, fun x hx hopenx => ?_, fun x hx => ?_,
    hcalled, fun key p hkey => hprof ▸ h.fits key p (hsub key p hkey), fun a ha hallow => ?_⟩
  · rw [hansw]
    refine (List.Perm.nodup_iff ((hperm.append_right _).trans ?_)).mp h.nodup
    rw [append_assoc, ← append_assoc w.waiting]
    exact perm_append_comm
  · rw [hquery, hturns]
    exact h.waits other (hperm.mem_iff.mpr (mem_append_right _ hother))
  · rw [hans] at ha
    rcases mem_append.mp ha with hold | hnew
    · exact h.toAsker a hold
    obtain ⟨q, hq, id, hid, rfl⟩ := hmem hnew
    obtain ⟨r, hr, hid', hopen, -⟩ := h.waits id (hperm.mem_iff.mpr (mem_append_left _ hid))
    rw [hq] at hopen
    exact ⟨r, hr, hid', congrArg LiveQuery.generation (Option.some.inj hopen.symm)⟩
  · rw [hansw]
    rcases h.all x hx (hquery ▸ hopenx) with hw | ha | hc
    · rcases mem_append.mp (hperm.mem_iff.mp hw) with hin | hrest
      · exact .inr (.inl (mem_append_right _ hin))
      · exact .inl hrest
    · exact .inr (.inl (mem_append_left _ ha))
    · exact .inr (.inr hc)
  · rw [hgen]
    exact h.past x hx
  rw [hans] at ha
  rcases mem_append.mp ha with hold | hnew
  · exact h.allowed a hold hallow
  · obtain ⟨q, -, id, hid, rfl⟩ := hmem hnew
    exact hreply hallow id hid

lemma Kept.flush_running (hreply : reply.allows = false) : Kept { v with
      running := ∅
      answers := v.answers ++ refusals v.query reply (v.running.entries.map (fun e => e.2)) }
      asked cancelled granted := by
  refine h.answerEach ?_ rfl rfl rfl rfl (h.called.idle h.called.active) rfl (fun _ _ hkey => hkey)
    (fun hallow => absurd (hallow.symm.trans hreply) (by decide))
  show List.Perm (_ ++ _) (_ ++ (_ ++ []))
  rw [append_nil]
  exact perm_append_comm

lemma Kept.flush_pending (hreply : reply.allows = false) : Kept { v with
      pending := ∅
      answers := v.answers ++
        refusals v.query reply (v.pending.entries.map (fun e => e.2.claudeRequestId)) }
      asked cancelled granted :=
  h.answerEach (List.Perm.refl _) rfl rfl rfl rfl h.called rfl (fun key p hkey => (by cases hkey))
    (fun hallow => absurd (hallow.symm.trans hreply) (by decide))

lemma Kept.ended {generation : Nat}
    (hgen : v.generation ≤ generation) (profile : PermissionProfile) :
    Kept ⟨none, generation, none, ∅, ∅, v.answers, v.calls, v.uuids, profile⟩
      asked cancelled granted where
  nodup := (nodup_append.mp h.nodup).2.1
  waits id hid := by cases hid
  toAsker := h.toAsker
  all r hr hopen := by cases hopen
  past r hr := le_trans (h.past r hr) hgen
  called := h.called.idle (fun t ht => by cases ht)
  fits key p hkey := by cases hkey
  allowed := h.allowed

lemma Kept.draw : Kept { v with uuids := v.uuids + 1 } asked cancelled granted :=
  ⟨h.nodup, h.waits, h.toAsker, h.all, h.past, h.called.draw, h.fits, h.allowed⟩

/-! ## One request -/

lemma exists_asked {id : String}
    (hid : id ∈ v.waiting ++ v.answered) : ∃ r ∈ asked, r.requestId = id := by
  rcases mem_append.mp hid with hw | ha
  · obtain ⟨r, hr, heq, -⟩ := h.waits id hw
    exact ⟨r, hr, heq⟩
  · obtain ⟨answer, hanswer, rfl⟩ := mem_map.mp ha
    obtain ⟨r, hr, heq, -⟩ := h.toAsker answer hanswer
    exact ⟨r, hr, heq⟩

end

section One

variable {w : Held} {r : Asked} {id : String}

lemma Kept.answer_new (h : v.Kept asked cancelled granted) (hnew : ∀ x ∈ asked, x.requestId ≠ r.requestId)
    (hpast : r.query ≤ v.generation) {reply : Reply}
    (hreply : reply.allows = true → r.requestId ∈ granted) :
    Kept { v with answers := v.answers ++ [⟨r.query, r.requestId, reply⟩] } (asked ++ [r])
      cancelled granted := by
  have hids : (v.answers ++ [(⟨r.query, r.requestId, reply⟩ : Answer)]).map Answer.requestId =
      v.answered ++ [r.requestId] := map_append
  have hfresh : r.requestId ∉ v.waiting ++ v.answered := fun hmem => by
    obtain ⟨x, hx, heq⟩ := exists_asked h hmem
    exact hnew x hx heq
  refine ⟨?_, fun id hid => ?_, fun a ha => ?_, fun x hx hopenx => ?_, fun x hx => ?_, h.called,
    fun key p hkey => ?_, fun a ha hallow => ?_⟩
  · show (v.waiting ++ map _ _).Nodup
    rw [hids, ← append_assoc]
    exact nodup_append'.mpr ⟨h.nodup, nodup_singleton _, fun x hx hx' => by
      rw [mem_singleton.mp hx'] at hx
      exact hfresh hx⟩
  · obtain ⟨x, hx, hrest⟩ := h.waits id hid
    exact ⟨x, mem_append_left _ hx, hrest⟩
  · rcases mem_concat.mp ha with hold | hlast
    · obtain ⟨x, hx, hrest⟩ := h.toAsker a hold
      exact ⟨x, mem_append_left _ hx, hrest⟩
    · rw [hlast]
      exact ⟨r, mem_concat_self, rfl, rfl⟩
  · show x.requestId ∈ v.waiting ∨ x.requestId ∈ map _ _ ∨ _
    rw [hids]
    rcases mem_concat.mp hx with hold | hlast
    · exact (h.all x hold hopenx).imp_right (fun hrest => hrest.imp_left (mem_append_left _))
    · rw [hlast]
      exact .inr (.inl mem_concat_self)
  · rcases mem_concat.mp hx with hold | hlast
    · exact h.past x hold
    · rw [hlast]
      exact hpast
  · obtain ⟨x, hx, hfits⟩ := h.fits key p hkey
    exact ⟨x, mem_append_left _ hx, hfits⟩
  rcases mem_concat.mp ha with hold | hlast
  · exact h.allowed a hold hallow
  · rw [hlast] at hallow ⊢
    exact hreply hallow

lemma Kept.put (h : v.Kept asked cancelled granted) (hnew : ∀ x ∈ asked, x.requestId ≠ r.requestId)
    (hopen : v.query = some ⟨r.query⟩) (hpast : r.query ≤ v.generation) (hturn : v.turn ≠ none)
    (hr : r.turn = v.turn) (hperm : w.waiting.Perm (r.requestId :: v.waiting))
    (hquery : w.query = v.query) (hgen : w.generation = v.generation)
    (hturns : w.turn = v.turn) (hans : w.answers = v.answers)
    (hcalled : Called w.turn w.running w.calls w.uuids)
    (hfits : ∀ key p, w.pending.get? key = some p →
      ∃ x ∈ asked ++ [r], x.requestId = p.claudeRequestId ∧ p.kind.Fits w.profile x.toolName) :
    w.Kept (asked ++ [r]) cancelled granted := by
  have hfresh : r.requestId ∉ v.waiting ++ v.answered := fun hmem => by
    obtain ⟨x, hx, heq⟩ := exists_asked h hmem
    exact hnew x hx heq
  have hansw : w.answered = v.answered := congrArg (map Answer.requestId) hans
  refine ⟨?_, fun id hid => ?_, fun a ha => ?_, fun x hx hopenx => ?_, fun x hx => ?_, hcalled,
    hfits, fun a ha => h.allowed a (hans ▸ ha)⟩
  · rw [hansw]
    refine (List.Perm.nodup_iff (hperm.append_right _)).mpr ?_
    exact nodup_cons.mpr ⟨hfresh, h.nodup⟩
  · rw [hquery, hturns]
    rcases mem_cons.mp (hperm.mem_iff.mp hid) with rfl | hold
    · exact ⟨r, mem_concat_self, rfl, hopen, hturn, hr⟩
    · obtain ⟨x, hx, hrest⟩ := h.waits id hold
      exact ⟨x, mem_append_left _ hx, hrest⟩
  · obtain ⟨x, hx, hrest⟩ := h.toAsker a (hans ▸ ha)
    exact ⟨x, mem_append_left _ hx, hrest⟩
  · rw [hansw, hperm.mem_iff]
    rcases mem_concat.mp hx with hold | hlast
    · exact (h.all x hold (hquery ▸ hopenx)).imp_left (mem_cons_of_mem _)
    · rw [hlast]
      exact .inl mem_cons_self
  rw [hgen]
  rcases mem_concat.mp hx with hold | hlast
  · exact h.past x hold
  · rw [hlast]
    exact hpast

section

variable (h : v.Kept asked cancelled granted)
include h

lemma Kept.taken (hperm : v.waiting.Perm (id :: w.waiting))
    (hquery : w.query = v.query) (hgen : w.generation = v.generation)
    (hturns : w.turn = v.turn) {reply : Reply}
    (hans : w.answers = v.answers ++ refusals v.query reply [id])
    (hcalled : Called w.turn w.running w.calls w.uuids) (hprof : w.profile = v.profile)
    (hsub : ∀ key p, w.pending.get? key = some p → v.pending.get? key = some p)
    (hreply : reply.allows = true → id ∈ granted) : w.Kept asked cancelled granted := by
  refine h.answerEach hperm hquery hgen hturns hans hcalled hprof hsub
    (fun hallow other hother => ?_)
  rw [mem_singleton.mp hother]
  exact hreply hallow

lemma Kept.dropped (hperm : v.waiting.Perm (id :: w.waiting))
    (hquery : w.query = v.query) (hgen : w.generation = v.generation)
    (hturns : w.turn = v.turn) (hans : w.answers = v.answers)
    (hcalled : Called w.turn w.running w.calls w.uuids) (hprof : w.profile = v.profile)
    (hsub : ∀ key p, w.pending.get? key = some p → v.pending.get? key = some p) :
    w.Kept asked (cancelled ++ [id]) granted := by
  have hansw : w.answered = v.answered := congrArg (map Answer.requestId) hans
  refine ⟨?_, fun other hother => ?_, fun a ha => ?_, fun x hx hopenx => ?_, fun x hx => ?_,
    hcalled, fun key p hkey => hprof ▸ h.fits key p (hsub key p hkey),
    fun a ha => h.allowed a (hans ▸ ha)⟩
  · rw [hansw]
    exact (nodup_cons.mp ((List.Perm.nodup_iff (hperm.append_right _)).mp h.nodup)).2
  · rw [hquery, hturns]
    exact h.waits other (hperm.mem_iff.mpr (mem_cons_of_mem _ hother))
  · exact h.toAsker a (hans ▸ ha)
  · rw [hansw]
    rcases h.all x hx (hquery ▸ hopenx) with hw | ha | hc
    · rcases mem_cons.mp (hperm.mem_iff.mp hw) with heq | hrest
      · exact .inr (.inr (mem_append_right _ (mem_singleton.mpr heq)))
      · exact .inl hrest
    · exact .inr (.inl ha)
    · exact .inr (.inr (mem_append_left _ hc))
  · rw [hgen]
    exact h.past x hx

lemma Kept.withdrawn (id : String) : v.Kept asked (cancelled ++ [id]) granted :=
  ⟨h.nodup, h.waits, h.toAsker, fun x hx hopen =>
    (h.all x hx hopen).imp_right (fun hrest => hrest.imp_right (mem_append_left _)), h.past,
    h.called, h.fits, h.allowed⟩

end

end One

/-! ### Where it waits -/

lemma waiting_insert_pending {key : String} (hnew : v.pending.get? key = none)
    (request : PendingRequest) :
    (waiting { v with pending := v.pending.insert key request }).Perm
      (request.claudeRequestId :: v.waiting) :=
  ((entries_insert_perm request hnew).map (fun entry => entry.2.claudeRequestId)).append_right _

lemma waiting_erase_pending {key : String} {request : PendingRequest}
    (hkey : v.pending.get? key = some request) :
    v.waiting.Perm (request.claudeRequestId :: waiting { v with pending := v.pending.erase key }) :=
  ((entries_erase_perm hkey).map (fun entry => entry.2.claudeRequestId)).append_right _

variable {callId : CallId}

lemma waiting_insert_running (hnew : v.running.get? callId = none) (requestId : String) :
    (waiting { v with running := v.running.insert callId requestId }).Perm
      (requestId :: v.waiting) :=
  (((entries_insert_perm requestId hnew).map (fun entry => entry.2)).append_left _).trans
    perm_middle

lemma waiting_erase_running {requestId : String} (hkey : v.running.get? callId = some requestId) :
    v.waiting.Perm (requestId :: waiting { v with running := v.running.erase callId }) :=
  (((entries_erase_perm hkey).map (fun entry => entry.2)).append_left _).trans perm_middle

end Held

/-! ## What the operations do -/

namespace Session

open Held

variable {env : Surroundings} {s : Session} {asked : List Asked} {cancelled granted : List String}

def held (s : Session) : Held :=
  ⟨s.query, s.generation, s.active.map ActiveTurn.turnId, s.pending, s.toolCalls.running, s.answers,
    s.calls, s.uuids, profileOf s.settings.permissionProfile⟩

lemma held_emit (s : Session) (events : List Event) : (s.emit events).held = s.held := rfl

lemma held_emitItems (s : Session) (items : List String) : (s.emitItems items).held = s.held := by
  unfold emitItems
  split <;> rfl

lemma held_startTool (s : Session) (request : ToolRequest) :
    (s.startTool env request).held = s.held := by
  unfold startTool
  split
  · rfl
  · exact held_emitItems s _

lemma held_answer (s : Session) (requestId : String) (reply : Reply) :
    (s.answer requestId reply).held =
      { s.held with answers := s.held.answers ++ refusals s.held.query reply [requestId] } := by
  unfold answer
  cases hquery : s.query with
  | none => simp only [held, hquery, refusals, append_nil]
  | some query =>
    simp only [held, hquery, refusals]
    rfl

lemma held_cancelEach (s : Session) (running : List (CallId × String)) :
    (s.cancelEach running).held = { s.held with
        answers := s.held.answers ++ refusals s.held.query (.toolResult false toolCallCancelled)
          (running.map (fun entry => entry.2)) } := by
  induction running generalizing s with
  | nil => rw [cancelEach, map_nil, refusals_nil, append_nil]
  | cons entry rest ih =>
    rw [cancelEach, ih, held_answer, map_cons,
      refusals_cons s.held.query _ entry.2 (rest.map (fun entry => entry.2)), ← append_assoc]

lemma held_cancelToolCalls (s : Session) : s.cancelToolCalls.held = { s.held with
        running := ∅
        answers := s.held.answers ++ refusals s.held.query (.toolResult false toolCallCancelled)
          (s.held.running.entries.map (fun entry => entry.2)) } :=
  held_cancelEach _ _

lemma held_resolveEach (s : Session) (reason : RequestResolution)
    (entries : List (String × PendingRequest)) :
    (resolveEach reason s entries).held = { s.held with
        answers := s.held.answers ++ refusals s.held.query cancelledDecision
          (entries.map (fun entry => entry.2.claudeRequestId)) } := by
  induction entries generalizing s with
  | nil => rw [resolveEach, map_nil, refusals_nil, append_nil]
  | cons entry rest ih =>
  obtain ⟨key, request⟩ := entry
  rw [resolveEach, ih, held_answer, map_cons, refusals_cons s.held.query _ request.claudeRequestId
      (rest.map (fun entry => entry.2.claudeRequestId)), ← append_assoc]
  rfl

lemma held_resolveAllPending (s : Session) (reason : RequestResolution) :
    (s.resolveAllPending reason).held = { s.held with
        pending := ∅
        answers := s.held.answers ++ refusals s.held.query cancelledDecision
          (s.held.pending.entries.map (fun entry => entry.2.claudeRequestId)) } :=
  held_resolveEach _ _ _

/-! ## The query and the settings -/

structure Answering (s : Session) (asked : List Asked) (cancelled granted : List String) : Prop where
  kept : s.held.Kept asked cancelled granted
  current : ∀ query, s.query = some query → query.generation = s.generation

section

variable (h : s.Answering asked cancelled granted)
include h

lemma Answering.waiting_of_idle (hacti : s.active = none) : s.held.waiting = [] := by
  refine waiting_eq_nil h.kept (.inl ?_)
  show s.active.map ActiveTurn.turnId = none
  rw [hacti]
  rfl

lemma Answering.of_held {t : Session} (heq : t.held = s.held) :
    t.Answering asked cancelled granted where
  kept := heq ▸ h.kept
  current query hquery := by
    have hq : t.query = s.query := congrArg Held.query heq
    have hg : t.generation = s.generation := congrArg Held.generation heq
    rw [hg]
    exact h.current query (hq ▸ hquery)

lemma Answering.draw :
    ({ s with uuids := s.uuids + 1 } : Session).Answering asked cancelled granted :=
  ⟨h.kept.draw, h.current⟩

lemma answering_closeQuery (hwait : s.held.waiting = []) :
    s.closeQuery.Answering asked cancelled granted := by
  unfold closeQuery
  split
  · exact ⟨h.kept.of_idle hwait (le_succ _) (.inr (.inl rfl)) h.kept.called.active _,
      fun query hquery => by cases hquery⟩
  · exact h

lemma answering_applyPendingSettings :
    s.applyPendingSettings.Answering asked cancelled granted := by
  cases hacti : s.active with
  | some active => rwa [query_applyPendingSettings_of_active hacti]
  | none =>
  have hcl := answering_closeQuery h (h.waiting_of_idle hacti)
  unfold applyPendingSettings
  split
  · exact h
  split
  · have hidle : s.closeQuery.active = none :=
      (congrArg TurnView.active (turns_closeQuery s)).trans hacti
    exact ⟨hcl.kept.of_idle (hcl.waiting_of_idle hidle) le_rfl (.inl rfl)
      hcl.kept.called.active _, hcl.current⟩
  · exact hcl

end

lemma answering_ensureQuery (env : Surroundings) (h : s.Answering asked cancelled granted) :
    (s.ensureQuery env).Answering asked cancelled granted := by
  unfold ensureQuery
  split
  · exact h
  next hnone =>
  split
  · have hwait := waiting_eq_nil h.kept (.inr hnone)
    refine ⟨h.kept.of_idle hwait (le_succ _)
      (.inr (.inr ⟨⟨s.generation + 1⟩, rfl, lt_succ_self _⟩)) h.kept.called.active _,
      fun query hquery => ?_⟩
    cases hquery
    rfl
  · exact h

section

variable (h : s.Answering asked cancelled granted)
include h

lemma answering_switchPermissionsLive :
    s.switchPermissionsLive.Answering asked cancelled granted := by
  unfold switchPermissionsLive
  split
  · exact h
  next pending hpend =>
  split
  · exact h
  split
  · exact h
  next hsw =>
  refine ⟨⟨h.kept.nodup, h.kept.waits, h.kept.toAsker, h.kept.all, h.kept.past, h.kept.called,
    fun key p hkey => ?_, h.kept.allowed⟩, h.current⟩
  have hwaits : p.claudeRequestId ∈ s.held.waiting :=
    mem_append_left _ (mem_map_of_mem (mem_entries_iff.mpr hkey))
  obtain ⟨_, _, _, hopen, _⟩ := h.kept.waits _ hwaits
  have hlive : switchesLive (profileOf s.settings.permissionProfile)
      (profileOf pending.permissionProfile) = true := by
    rw [← Bool.not_eq_false]
    intro hfalse
    refine hsw ⟨?_, hfalse⟩
    rw [show s.query = _ from hopen]
    exact Option.some_ne_none _
  obtain ⟨r, hr, hid, hfits⟩ := h.kept.fits key p hkey
  refine ⟨r, hr, hid, ?_⟩
  cases hkind : p.kind with
  | approval suggestions =>
    show profileAllowsTool (profileOf pending.permissionProfile) r.toolName = true
    rw [profileAllowsTool, (Bool.and_eq_true_iff.mp hlive).2]
    rfl
  | userInput questions =>
    rw [hkind] at hfits
    exact hfits

lemma answering_updateSettings (next : ThreadSettings) :
    (s.updateSettings next).Answering asked cancelled granted := by
  unfold updateSettings
  split
  · exact h
  apply answering_applyPendingSettings
  have hpend : ({ s with pendingSettings := some next } : Session).Answering asked cancelled granted :=
    h.of_held rfl
  exact answering_switchPermissionsLive hpend

lemma answering_cancelToolCalls : s.cancelToolCalls.Answering asked cancelled granted where
  kept := by
    rw [held_cancelToolCalls]
    exact h.kept.flush_running rfl
  current query hquery := by
    have hq := congrArg Held.query (held_cancelToolCalls s)
    have hg := congrArg Held.generation (held_cancelToolCalls s)
    exact (h.current query (hq.symm.trans hquery)).trans hg.symm

/-! ## The end of a turn -/

end

lemma held_ended (s : Session) (reason : RequestResolution) (events : List Event) :
    ((s.cancelToolCalls.resolveAllPending reason).emit events).held = { s.held with
        pending := ∅
        running := ∅
        answers := s.held.answers ++ refusals s.held.query (.toolResult false toolCallCancelled)
            (s.held.running.entries.map (fun entry => entry.2)) ++
          refusals s.held.query cancelledDecision
            (s.held.pending.entries.map (fun entry => entry.2.claudeRequestId)) } := by
  rw [held_emit, held_resolveAllPending, held_cancelToolCalls]

lemma active_ended (s : Session) (reason : RequestResolution) (events : List Event) :
    ((({ s with active := none } : Session).cancelToolCalls.resolveAllPending reason).emit
      events).active = none := by
  have hcanc := congrArg TurnView.active
    (turns_cancelToolCalls ({ s with active := none } : Session))
  have hres := congrArg TurnView.active
    (turns_resolveAllPending ({ s with active := none } : Session).cancelToolCalls reason)
  exact hres.trans hcanc

lemma answering_released (h : s.Answering asked cancelled granted) (hacti : s.active = none)
    (releaseAfter : Bool) :
    (if releaseAfter then s.closeQuery else s).applyPendingSettings.Answering asked cancelled granted := by
  apply answering_applyPendingSettings
  split
  · exact answering_closeQuery h (h.waiting_of_idle hacti)
  · exact h

lemma answering_finishTurn (h : s.Answering asked cancelled granted) (outcome : TurnOutcome) :
    (s.finishTurn env outcome).Answering asked cancelled granted := by
  unfold finishTurn
  split
  · exact h
  next active hacti =>
  simp only
  refine answering_released ⟨?_, fun query hquery => ?_⟩ (active_ended s _ _) _
  · rw [held_ended]
    exact ((h.kept.flush_running rfl).flush_pending rfl).of_idle (waiting_of_empty rfl rfl)
      le_rfl (.inl rfl) (fun t ht => by cases ht) _
  have hheld := held_ended ({ s with active := none } : Session)
    (if outcome = .interrupted then .cancelled else .turnEnded)
    (env.closed.map (Event.item active.turnId) ++ [Event.turnCompleted active.turnId outcome])
  have hq := congrArg Held.query hheld
  have hg := congrArg Held.generation hheld
  exact (h.current query (hq.symm.trans hquery)).trans hg.symm

variable {active : ActiveTurn}

lemma answering_finishTurn_of_ended {v : Held} (hv : v.Kept asked cancelled granted)
    (hquery : s.query = none) (hgen : v.generation ≤ s.generation)
    (hans : s.answers = v.answers) (hcalls : s.calls = v.calls) (huuids : s.uuids = v.uuids) (hacti : s.active = some active)
    (outcome : TurnOutcome) : (s.finishTurn env outcome).Answering asked cancelled granted := by
  unfold finishTurn
  rw [hacti]
  simp only
  have hheld := held_ended ({ s with active := none } : Session)
    (if outcome = .interrupted then .cancelled else .turnEnded)
    (env.closed.map (Event.item active.turnId) ++ [Event.turnCompleted active.turnId outcome])
  have hnone : ({ s with active := none } : Session).held.query = none := hquery
  rw [hnone, refusals, refusals, append_nil, append_nil] at hheld
  refine answering_released ⟨?_, fun query hopen => ?_⟩ (active_ended s _ _) _
  · rw [hheld]
    have hended := hv.ended hgen (profileOf s.settings.permissionProfile)
    rw [← hans, ← hcalls, ← huuids] at hended
    show Kept ⟨s.query, s.generation, none, ∅, ∅, s.answers, s.calls, s.uuids,
      profileOf s.settings.permissionProfile⟩ asked cancelled granted
    rw [hquery]
    exact hended
  · have hq := congrArg Held.query hheld
    cases hnone.symm.trans (hq.symm.trans hopen)

lemma answering_close_finish (env : Surroundings) (h : s.Answering asked cancelled granted) {t : Session}
    (ht : t.held = s.held) (hacti : t.active = some active)
    (outcome : TurnOutcome) : (t.closeQuery.finishTurn env outcome).Answering asked cancelled granted := by
  have hgen : s.held.generation ≤ t.closeQuery.generation := by
    rw [← ht]
    unfold closeQuery
    split
    · exact le_succ _
    · exact le_rfl
  have hkept : t.closeQuery.answers = s.held.answers ∧ t.closeQuery.calls = s.held.calls ∧
      t.closeQuery.uuids = s.held.uuids := by
    rw [← ht]
    unfold closeQuery
    split <;> exact ⟨rfl, rfl, rfl⟩
  have hcl : t.closeQuery.active = some active :=
    (congrArg TurnView.active (turns_closeQuery t)).trans hacti
  exact answering_finishTurn_of_ended h.kept (query_closeQuery t) hgen hkept.1 hkept.2.1
    hkept.2.2 hcl outcome

/-! ## Steps that take up no request -/

lemma answering_beginTurn (env : Surroundings) (h : s.Answering asked cancelled granted)
    (hacti : s.active = none) {turnId : Uuid} (hdrawn : turnId < s.uuids)
    (user firstOffer : Bool) :
    (s.beginTurn env turnId user firstOffer).Answering asked cancelled granted where
  kept := h.kept.of_idle (h.waiting_of_idle hacti) le_rfl (.inl rfl)
    (fun t ht => (by cases ht; exact hdrawn)) _
  current := h.current

lemma answering_activeOrWake (env : Surroundings) (h : s.Answering asked cancelled granted) :
    (s.activeOrWake env).Answering asked cancelled granted := by
  unfold activeOrWake
  split
  · exact h
  · next hacti =>
    exact answering_beginTurn env h.draw hacti (lt_succ_self _) _ _

section

variable (h : s.Answering asked cancelled granted)
include h

lemma answering_startTurn (user : Bool) :
    (s.startTurn env user).1.Answering asked cancelled granted := by
  cases hacti : s.active with
  | some active =>
    unfold startTurn
    rw [hacti]
    exact h
  | none =>
  rw [startTurn_of_idle hacti]
  have happl := answering_applyPendingSettings h
  have hnone : s.applyPendingSettings.active = none :=
    (congrArg TurnView.active (turns_applyPendingSettings s)).trans hacti
  have hready : (s.applyPendingSettings.reopenForClientTools env).Answering asked cancelled granted := by
    unfold reopenForClientTools
    split
    · exact happl
    · exact answering_closeQuery happl (happl.waiting_of_idle hnone)
  have hreadyNone : (s.applyPendingSettings.reopenForClientTools env).active = none :=
    (congrArg TurnView.active (turns_reopenForClientTools env _)).trans hnone
  generalize s.applyPendingSettings.reopenForClientTools env = ready at hready hreadyNone
  have hopened := answering_ensureQuery env
    (answering_beginTurn env hready.draw hreadyNone (lt_succ_self _) user true)
  simp only
  split
  · exact answering_finishTurn hopened _
  · exact hopened

lemma answering_steer (expected : Uuid) :
    (s.steer env expected).Answering asked cancelled granted := by
  unfold steer
  split
  · next query active hquery hacti =>
    split
    · refine h.draw.of_held ((held_emitItems _ _).trans ?_)
      simp only [held, hacti]
      rfl
    · exact h
  · exact h

lemma answering_requestInterrupt (runningCommand : Bool) :
    (s.requestInterrupt env runningCommand).Answering asked cancelled granted := by
  unfold requestInterrupt
  have hcanc := answering_cancelToolCalls h
  generalize s.cancelToolCalls = cancelledCalls at hcanc
  simp only
  split
  · exact hcanc
  next active hacti =>
  have hasked : ({ cancelledCalls with
      active := some { active with interruptRequested := true, releaseAfter := runningCommand } } :
      Session).Answering asked cancelled granted :=
    hcanc.of_held (by simp only [held, hacti]; rfl)
  split
  · exact answering_finishTurn hasked _
  · exact hasked.of_held rfl

lemma answering_onInterruptTimeout :
    (s.onInterruptTimeout env).Answering asked cancelled granted := by
  unfold onInterruptTimeout
  split
  · exact h
  next active hacti =>
  split
  · exact answering_close_finish env h (by simp only [held, hacti]; rfl) rfl _
  · exact h

lemma answering_onQueryEnded (exited : TurnOutcome) :
    (s.onQueryEnded env exited).Answering asked cancelled granted := by
  unfold onQueryEnded
  split
  · exact h
  simp only
  split
  · next hacti =>
    exact ⟨h.kept.of_idle (h.waiting_of_idle hacti) (le_succ _) (.inr (.inl rfl))
      h.kept.called.active _, fun query hquery => by cases hquery⟩
  next active hacti =>
  exact answering_finishTurn_of_ended (s := { s with
    query := none, generation := s.generation + 1 }) h.kept rfl (le_succ _) rfl rfl rfl
    hacti _

lemma answering_dispose : (s.dispose env).Answering asked cancelled granted := by
  have hdisp : ({ s with disposed := true } : Session).Answering asked cancelled granted := h.of_held rfl
  unfold dispose
  simp only
  split
  · next active hacti =>
    have hfin := answering_close_finish env (t := { s with
        disposed := true, active := some { active with interruptRequested := true } }) h
      (by simp only [held, hacti]; rfl) rfl .interrupted
    apply answering_closeQuery hfin
    apply hfin.waiting_of_idle
    have hcl : ({ s with
        disposed := true, active := some { active with interruptRequested := true } } :
        Session).closeQuery.active = some { active with interruptRequested := true } :=
      congrArg TurnView.active (turns_closeQuery _)
    exact congrArg TurnView.active (turns_finishTurn env hcl .interrupted)
  · next hacti =>
    exact answering_closeQuery hdisp (hdisp.waiting_of_idle hacti)

end

/-- Nothing waits when the query of the active turn is replaced. -/
def ReplacesIdle (s : Session) (frame : ResultFrame) : Prop :=
  frame.lostSession = true → ∀ active ∈ s.active, active.sessionReplacements = 0 →
    active.firstOffer = true → s.pending.entries = [] ∧ s.toolCalls.running.entries = []

lemma answering_onResult (h : s.Answering asked cancelled granted) {frame : ResultFrame}
    (hidle : s.ReplacesIdle frame) : (s.onResult env frame).Answering asked cancelled granted := by
  unfold onResult
  split
  · exact h
  next active hacti =>
  split
  · next hlost =>
    unfold replaceLostSession
    rw [hacti]
    simp only
    split
    · exact answering_close_finish env h rfl hacti _
    next hreplace =>
    rw [not_or, Bool.not_eq_false, not_le, lt_one_iff] at hreplace
    obtain ⟨hpend, hrunn⟩ := hidle hlost active hacti hreplace.1 hreplace.2
    have hreplaced : ({ s with active := some { active with
        sessionReplacements := active.sessionReplacements + 1 } } : Session).Answering asked
        cancelled granted := h.of_held (by simp only [held, hacti]; rfl)
    have hwait : ({ s with active := some { active with
        sessionReplacements := active.sessionReplacements + 1 } } : Session).held.waiting =
        [] := by
      show s.pending.entries.map _ ++ s.toolCalls.running.entries.map _ = []
      rw [hpend, hrunn]
      rfl
    exact (answering_closeQuery hreplaced hwait).draw.of_held rfl
  split
  · next after hafter =>
    have hid := (isIntermediateResult_turn hafter).1
    refine h.of_held ?_
    simp only [held, hacti, Option.map_some, hid]
  · exact answering_finishTurn h _

lemma answering_offerReplacement (h : s.Answering asked cancelled granted) (turnId : Uuid) :
    (s.offerReplacement env turnId).Answering asked cancelled granted := by
  have hdrawn := h.draw
  unfold offerReplacement
  split
  · exact h
  simp only
  split
  · exact hdrawn
  · split
    · exact answering_ensureQuery env hdrawn
    · exact hdrawn

/-! ## Steps that take up a request -/

section Taken

variable {query : LiveQuery} {requestId toolName : String} {turn : Option Uuid}

lemma answering_answer_new (h : s.Answering asked cancelled granted)
    (hnew : ∀ x ∈ asked, x.requestId ≠ requestId) (hquery : s.query = some query) {reply : Reply}
    (hreply : reply.allows = true → requestId ∈ granted) :
    (s.answer requestId reply).Answering (asked ++ [⟨query.generation, requestId, toolName, turn⟩])
      cancelled granted := by
  have hgen := h.current query hquery
  refine ⟨?_, fun other hother => ?_⟩
  · rw [held_answer, show s.held.query = some query from hquery]
    exact h.kept.answer_new (r := ⟨query.generation, requestId, toolName, turn⟩) hnew
      (le_of_eq hgen) hreply
  have hheld := held_answer s requestId reply
  have hq := congrArg Held.query hheld
  have hg := congrArg Held.generation hheld
  exact (h.current other (hq.symm.trans hother)).trans hg.symm

lemma active_answer (s : Session) (requestId : String) (reply : Reply) :
    (s.answer requestId reply).active = s.active :=
  congrArg TurnView.active (turns_answer s requestId reply)

lemma active_openRequest (s : Session) (request : ToolRequest) (kind : PendingKind) :
    (s.openRequest env request kind).active = (s.activeOrWake env).active := by
  unfold openRequest
  simp only
  split
  · exact active_answer _ _ _
  · rfl

lemma active_startTool (s : Session) (request : ToolRequest) :
    (s.startTool env request).active = s.active := by
  unfold startTool
  split
  · rfl
  · unfold emitItems
    split <;> rfl

lemma activeOrWake_of_active {active : ActiveTurn} (h : s.active = some active) :
    s.activeOrWake env = s := by
  unfold activeOrWake
  rw [h]

variable {request : ToolRequest}

lemma answering_openRequest (h : s.Answering asked cancelled granted)
    (hnew : ∀ x ∈ asked, x.requestId ≠ request.requestId) (hquery : s.query = some query)
    (hkey : s.pending.get? (pendingId request.toolUseId) = none)
    (hturn : turn = (s.activeOrWake env).active.map ActiveTurn.turnId) {kind : PendingKind}
    (hkind : kind.Fits (profileOf s.settings.permissionProfile) toolName) :
    (s.openRequest env request kind).Answering
      (asked ++ [⟨query.generation, request.requestId, toolName, turn⟩]) cancelled granted := by
  unfold openRequest
  have hwoken := answering_activeOrWake env h
  rw [← pending_activeOrWake env s] at hkey
  have hwokenQuery := query_activeOrWake env s
  rw [← hwokenQuery] at hquery
  rw [← (woken_kept env s).1] at hkind
  generalize s.activeOrWake env = woken at hwoken hkey hquery hturn hkind
  simp only
  split
  · exact answering_answer_new hwoken hnew hquery (fun hallow => by cases hallow)
  next active hacti =>
  have hsome : woken.held.turn = some active.turnId := by
    show woken.active.map ActiveTurn.turnId = _
    rw [hacti]
    rfl
  have hperm := waiting_insert_pending (v := woken.held) hkey
    ⟨request.requestId, request.toolUseId, request.input, kind⟩
  refine ⟨hwoken.kept.put (r := ⟨query.generation, request.requestId, toolName, turn⟩) hnew hquery
    (le_of_eq (hwoken.current query hquery)) (by rw [hsome]; exact Option.some_ne_none _) hturn
    hperm rfl rfl rfl rfl hwoken.kept.called (fun key p hp => ?_), hwoken.current⟩
  have hp' : (woken.pending.insert (pendingId request.toolUseId)
    ⟨request.requestId, request.toolUseId, request.input, kind⟩).get? key = some p := hp
  rw [get?_insert] at hp'
  split at hp'
  · cases hp'
    exact ⟨_, mem_concat_self, rfl, hkind⟩
  · obtain ⟨x, hx, hfits⟩ := hwoken.kept.fits key p hp'
    exact ⟨x, mem_append_left _ hx, hfits⟩

lemma toolName_of_question {toolName : String} (h : toolDisposition toolName = .question) :
    toolName = "AskUserQuestion" := by
  unfold toolDisposition at h
  split at h
  · cases h
  · split at h
    · next heq => exact heq
    · split at h <;> cases h

lemma turn_startTool (env : Surroundings) (s : Session) (request : ToolRequest) :
    (s.activeOrWake env).active.map ActiveTurn.turnId =
      ((s.startTool env request).activeOrWake env).active.map ActiveTurn.turnId := by
  unfold activeOrWake
  rw [active_startTool]
  cases hacti : s.active with
  | some active => simp only [hacti, active_startTool]
  | none =>
  have huuids : (s.startTool env request).uuids = s.uuids :=
    congrArg Held.uuids (held_startTool s request)
  simp only [beginTurn, emit, huuids]

lemma answering_askApproval (h : s.Answering asked cancelled granted)
    (hnew : ∀ x ∈ asked, x.requestId ≠ request.requestId) (hquery : s.query = some query)
    (hkey : profileAllowsTool (profileOf s.settings.permissionProfile) request.toolName = true →
      profileOf s.settings.permissionProfile ≠ .fullAccess →
        s.pending.get? (pendingId request.toolUseId) = none ∧
          turn = (s.activeOrWake env).active.map ActiveTurn.turnId)
    (hgr : profileOf s.settings.permissionProfile = .fullAccess → request.requestId ∈ granted) :
    (s.askApproval env request).Answering
      (asked ++ [⟨query.generation, request.requestId, request.toolName, turn⟩]) cancelled granted := by
  have hstart : (s.startTool env request).Answering asked cancelled granted :=
    h.of_held (held_startTool s request)
  have hstartedQuery : (s.startTool env request).query = some query :=
    (query_startTool s request).trans hquery
  unfold askApproval
  simp only
  split
  · exact answering_answer_new h hnew hquery (fun hallow => by cases hallow)
  next hallo =>
  split
  · next hprof =>
    exact answering_answer_new hstart hnew hstartedQuery (fun _ => hgr hprof)
  next hprof =>
  obtain ⟨hfree, hturn⟩ := hkey (Bool.not_eq_false _ ▸ hallo) hprof
  have hwoken := turn_startTool env s request
  refine answering_openRequest hstart hnew hstartedQuery ?_ (hturn.trans hwoken) ?_
  · rw [pending_startTool]
    exact hfree
  have hprofiles : profileOf (s.startTool env request).settings.permissionProfile =
      profileOf s.settings.permissionProfile :=
    congrArg Held.profile (held_startTool s request)
  rw [hprofiles]
  exact (Bool.not_eq_false _).mp hallo

/-- A request changes nothing but the turn on its way to the user. -/
lemma kept_wakeFor (env : Surroundings) (s : Session) (subagent : Bool) :
    (if subagent then s else s.activeOrWake env).query = s.query ∧
      (if subagent then s else s.activeOrWake env).pending = s.pending ∧
      (if subagent then s else s.activeOrWake env).settings = s.settings ∧
      (if subagent then s else s.activeOrWake env).queryTools = s.queryTools ∧
      (if subagent then s else s.activeOrWake env).activeOrWake env = s.activeOrWake env := by
  split
  · exact ⟨rfl, rfl, rfl, rfl, rfl⟩
  · obtain ⟨active, hacti⟩ := active_activeOrWake env s
    exact ⟨query_activeOrWake env s, pending_activeOrWake env s, (woken_kept env s).1,
      (woken_kept env s).2, activeOrWake_of_active hacti⟩

lemma AsksUser.allowed (h : s.AsksUser request)
    (hquest : toolDisposition request.toolName ≠ .question) :
    profileAllowsTool (profileOf s.settings.permissionProfile) request.toolName = true ∧
      profileOf s.settings.permissionProfile ≠ .fullAccess := by
  obtain ⟨-, -, hasked | ⟨-, hallo, hprof⟩⟩ := h
  · exact absurd hasked hquest
  · exact ⟨hallo, hprof⟩

lemma answering_canUseTool (h : s.Answering asked cancelled granted)
    (hnew : ∀ x ∈ asked, x.requestId ≠ request.requestId) (hquery : s.query = some query)
    (hkey : s.AsksUser request → s.pending.get? (pendingId request.toolUseId) = none)
    (hturn : s.AsksUser request → turn = (s.activeOrWake env).active.map ActiveTurn.turnId)
    (hgr : s.ownsClientTool request.toolName = true ∨
      profileOf s.settings.permissionProfile = .fullAccess → request.requestId ∈ granted) :
    (s.canUseTool env request).Answering
      (asked ++ [⟨query.generation, request.requestId, request.toolName, turn⟩]) cancelled granted := by
  unfold canUseTool
  have hwoken : (if request.subagent then s else s.activeOrWake env).Answering asked cancelled granted := by
    split
    · exact h
    · exact answering_activeOrWake env h
  have hkept := kept_wakeFor env s request.subagent
  generalize (if request.subagent then s else s.activeOrWake env) = woken at hwoken hkept
  obtain ⟨hq, hp, hset, htools, hwake⟩ := hkept
  have howns : woken.ownsClientTool request.toolName = s.ownsClientTool request.toolName := by
    unfold ownsClientTool
    rw [htools]
  rw [← hq] at hquery
  rw [← hp] at hkey
  rw [← hwake] at hturn
  simp only
  split
  · exact answering_answer_new hwoken hnew hquery (fun hallow => by cases hallow)
  next hid =>
  split
  · next howner =>
    have hstart : ((woken.activeOrWake env).startTool env request).Answering asked cancelled granted :=
      (answering_activeOrWake env hwoken).of_held (held_startTool _ request)
    refine answering_answer_new hstart hnew ?_ (fun _ => hgr (.inl (howns ▸ howner)))
    rw [query_startTool, query_activeOrWake]
    exact hquery
  next hother =>
  rw [howns, Bool.not_eq_true] at hother
  -- an item and a plan go to the user alike
  have happroval (hexit : toolDisposition request.toolName ≠ .exitPlan) :
      (woken.askApproval env request).Answering
        (asked ++ [⟨query.generation, request.requestId, request.toolName, turn⟩])
        cancelled granted := by
    refine answering_askApproval hwoken hnew hquery (fun hallo hprof => ?_)
      (fun hfull => hgr (.inr (hset ▸ hfull)))
    rw [hset] at hallo hprof
    have hasks : s.AsksUser request := ⟨hid, hother, .inr ⟨hexit, hallo, hprof⟩⟩
    exact ⟨hkey hasks, hturn hasks⟩
  split
  · refine answering_answer_new (hwoken.of_held (held_startTool _ request)) hnew ?_
      (fun hallow => by cases hallow)
    exact (query_startTool woken request).trans hquery
  · next hquest =>
    have hasks : s.AsksUser request := ⟨hid, hother, .inl hquest⟩
    refine answering_openRequest hwoken hnew hquery (hkey hasks) (hturn hasks) ?_
    exact toolName_of_question hquest
  · next hitem => exact happroval (by rw [hitem]; decide)
  · next hplan => exact happroval (by rw [hplan]; decide)

/-! ### Client tool calls -/

/-- The open items that were claimed earlier in the turn are still counted as claimed. -/
def ClaimsAgain (s : Session) (openItems : List String) : Prop :=
  ∃ active ∈ s.active, ∃ id ∈ openItems,
    (active.turnId, toLex (.inl id)) ∈ s.calls ∧ id ∉ s.toolCalls.claimed

lemma answering_callClientTool (h : s.Answering asked cancelled granted)
    (hnew : ∀ x ∈ asked, x.requestId ≠ requestId) (hquery : s.query = some query)
    {openItems : List String} (hclaims : ¬ s.ClaimsAgain openItems)
    (hturn : turn = s.active.map ActiveTurn.turnId) :
    (s.callClientTool requestId openItems).Answering
      (asked ++ [⟨query.generation, requestId, toolName, turn⟩]) cancelled granted := by
  unfold callClientTool
  split
  · exact answering_answer_new h hnew hquery (fun hallow => by cases hallow)
  next active hacti =>
  have hclai : (s.claim openItems).2.Answering asked cancelled granted ∧
      (s.claim openItems).2.query = s.query ∧ (s.claim openItems).2.active = s.active ∧
      (active.turnId, (s.claim openItems).1) ∉ (s.claim openItems).2.calls ∧
      ∀ n, (s.claim openItems).1 = toLex (.inr n) → n < (s.claim openItems).2.uuids := by
    unfold claim
    split
    · next id hfind =>
      refine ⟨h.of_held rfl, rfl, rfl, fun hmem => ?_, fun n hn => ?_⟩
      · have hfree := find?_some hfind
        rw [Bool.not_eq_true', contains_eq_mem, decide_eq_false_iff_not] at hfree
        exact hclaims ⟨active, hacti, id, mem_of_find?_eq_some hfind, hmem, hfree⟩
      · have hsum : (Sum.inl id : String ⊕ Uuid) = Sum.inr n := toLex.injective hn
        cases hsum
    refine ⟨h.draw, rfl, rfl, fun hmem => ?_, fun n hn => ?_⟩
    · exact lt_irrefl _ ((h.kept.called.drawn _ hmem).2 s.uuids rfl)
    · cases toLex.injective hn
      exact lt_succ_self _
  generalize s.claim openItems = pair at hclai
  obtain ⟨callId, claimed⟩ := pair
  obtain ⟨hanswering, hq, ha, hfresh, hdrawn⟩ := hclai
  simp only at hanswering hq ha hfresh hdrawn ⊢
  have hsome : claimed.held.turn = some active.turnId := by
    show claimed.active.map ActiveTurn.turnId = _
    rw [ha, hacti]
    rfl
  have hrunn := hanswering.kept.called.running_eq_none hsome hfresh
  have hopen : claimed.held.query = some query := hq.trans hquery
  refine ⟨hanswering.kept.put (r := ⟨query.generation, requestId, toolName, turn⟩)
    (w := { claimed.held with
      running := claimed.toolCalls.running.insert callId requestId
      calls := claimed.calls ++ [(active.turnId, callId)] }) hnew hopen
    (le_of_eq (hanswering.current query hopen)) (by rw [hsome]; exact Option.some_ne_none _) ?_
    (waiting_insert_running (v := claimed.held) hrunn requestId) rfl rfl rfl rfl
    (hanswering.kept.called.call hsome hfresh hdrawn requestId) (fun key p hp => ?_),
    hanswering.current⟩
  · rw [hturn, hsome, hacti]
    rfl
  · obtain ⟨x, hx, hfits⟩ := hanswering.kept.fits key p hp
    exact ⟨x, mem_append_left _ hx, hfits⟩

lemma answering_onMcpMessage (h : s.Answering asked cancelled granted)
    (hnew : ∀ x ∈ asked, x.requestId ≠ requestId) (hquery : s.query = some query)
    {serverName : String} {message : McpMessage}
    (hclaims : ∀ tool openItems, message = .call tool openItems → ¬ s.ClaimsAgain openItems)
    (hturn : turn = s.active.map ActiveTurn.turnId) :
    (s.onMcpMessage requestId serverName message).Answering
      (asked ++ [⟨query.generation, requestId, toolName, turn⟩]) cancelled granted := by
  unfold onMcpMessage
  split
  · exact answering_answer_new h hnew hquery (fun hallow => by cases hallow)
  split
  · split
    · exact answering_callClientTool h hnew hquery (hclaims _ _ rfl) hturn
    · exact answering_answer_new h hnew hquery (fun hallow => by cases hallow)
  · exact answering_answer_new h hnew hquery (fun hallow => by cases hallow)

end Taken

/-! ## Steps that settle a request -/

lemma get?_of_erase {α : Type} {t : Table String α} {key other : String} {value : α}
    (h : (t.erase key).get? other = some value) : t.get? other = some value := by
  exact (of_get?_erase h).2

lemma answering_answer_pending (h : s.Answering asked cancelled granted) {key : String}
    {pending : PendingRequest} (hkey : s.pending.get? key = some pending) {reply : Reply}
    (hreply : reply.allows = true → pending.claudeRequestId ∈ granted) :
    ((({ s with pending := s.pending.erase key } : Session).resolveRequest key .responded).answer
      pending.claudeRequestId reply).Answering asked cancelled granted := by
  have hheld := held_answer (({ s with pending := s.pending.erase key } : Session).resolveRequest key
    .responded) pending.claudeRequestId reply
  refine ⟨?_, fun query hquery => ?_⟩
  · rw [hheld]
    exact h.kept.taken (w := { s.held with
      pending := s.pending.erase key
      answers := s.held.answers ++ refusals s.held.query reply [pending.claudeRequestId] })
      (waiting_erase_pending (v := s.held) hkey) rfl rfl rfl rfl h.kept.called rfl
      (fun other p hp => get?_of_erase hp) hreply
  · have hq := congrArg Held.query hheld
    have hg := congrArg Held.generation hheld
    exact (h.current query (hq.symm.trans hquery)).trans hg.symm

def accepts : PendingKind → RuntimeResponse → Bool
  | .approval _, .approval .accept => true
  | .approval _, .approval .acceptForSession => true
  | .userInput _, .userInput _ => true
  | _, _ => false

variable (response : RuntimeResponse)

lemma allows_approvalDecision (input : String) (suggestions : List String) :
    (approvalDecision response input suggestions).allows = accepts (.approval suggestions) response := by
  cases response with
  | approval decision => cases decision <;> rfl
  | userInput answers | error => rfl

lemma allows_userInputDecision (input : String) (questions : List Question) :
    (userInputDecision response input questions).allows = accepts (.userInput questions) response := by
  cases response <;> rfl

section

variable (h : s.Answering asked cancelled granted)
include h

lemma answering_respond (key : String) (response : RuntimeResponse)
    (hgr : ∀ pending, s.pending.get? key = some pending → accepts pending.kind response = true →
      pending.claudeRequestId ∈ granted) :
    (s.respond key response).Answering asked cancelled granted := by
  unfold respond
  split
  · exact h
  next pending hkey =>
  refine answering_answer_pending h hkey (fun hallow => hgr pending hkey ?_)
  cases hkind : pending.kind with
  | approval suggestions =>
    rw [hkind] at hallow
    exact (allows_approvalDecision _ _ _).symm.trans hallow
  | userInput questions =>
    rw [hkind] at hallow
    exact (allows_userInputDecision _ _ _).symm.trans hallow

lemma answering_onToolCallDone {callId : CallId} {requestId : String}
    (hown : ∀ waiting, s.toolCalls.running.get? callId = some waiting → waiting = requestId)
    (success : Bool) (text : String) :
    (s.onToolCallDone callId requestId success text).Answering asked cancelled granted := by
  unfold onToolCallDone
  split
  · next waiting hrunn =>
    have heq := hown waiting hrunn
    subst heq
    have hheld := held_answer ({ s with toolCalls :=
      { s.toolCalls with running := s.toolCalls.running.erase callId } } : Session) waiting
      (.toolResult success text)
    refine ⟨?_, fun query hquery => ?_⟩
    · rw [hheld]
      exact h.kept.taken (w := { s.held with
        running := s.toolCalls.running.erase callId
        answers := s.held.answers ++ refusals s.held.query (.toolResult success text) [waiting] })
        (waiting_erase_running (v := s.held) hrunn) rfl rfl rfl rfl
        (h.kept.called.erase callId) rfl (fun other p hp => hp) (fun hallow => by cases hallow)
    · have hq := congrArg Held.query hheld
      have hg := congrArg Held.generation hheld
      exact (h.current query (hq.symm.trans hquery)).trans hg.symm
  · exact h

lemma answering_onRequestCancelled (requestId : String) :
    (s.onRequestCancelled requestId).Answering asked (cancelled ++ [requestId]) granted := by
  unfold onRequestCancelled
  split
  · next key pending hfind =>
    have hdec := find?_some hfind
    have hid : pending.claudeRequestId = requestId := of_decide_eq_true hdec
    have hkey := mem_entries_iff.mp (mem_of_find?_eq_some hfind)
    have hperm := waiting_erase_pending (v := s.held) hkey
    rw [hid] at hperm
    exact ⟨h.kept.dropped hperm rfl rfl rfl rfl h.kept.called rfl
      (fun other p hp => get?_of_erase hp), h.current⟩
  split
  · next callId waiting hfind =>
    have hdec := find?_some hfind
    have hid : waiting = requestId := of_decide_eq_true hdec
    have hrunn := mem_entries_iff.mp (mem_of_find?_eq_some hfind)
    have hperm := waiting_erase_running (v := s.held) hrunn
    rw [hid] at hperm
    exact ⟨h.kept.dropped hperm rfl rfl rfl rfl (h.kept.called.erase callId) rfl
      (fun other p hp => hp), h.current⟩
  · exact ⟨h.kept.withdrawn requestId, h.current⟩

/-! ## The turn that a request is put into -/

end

lemma turn_askApproval (env : Surroundings) (s : Session) {request : ToolRequest}
    (hallo : profileAllowsTool (profileOf s.settings.permissionProfile) request.toolName = true)
    (hprof : profileOf s.settings.permissionProfile ≠ .fullAccess) :
    (s.askApproval env request).active.map ActiveTurn.turnId =
      (s.activeOrWake env).active.map ActiveTurn.turnId := by
  unfold askApproval
  simp only
  rw [if_neg (by rw [hallo]; decide), if_neg hprof, active_openRequest]
  exact (turn_startTool env s request).symm

lemma turn_canUseTool (env : Surroundings) (s : Session) {request : ToolRequest}
    (hasks : s.AsksUser request) :
    (s.canUseTool env request).active.map ActiveTurn.turnId =
      (s.activeOrWake env).active.map ActiveTurn.turnId := by
  have hallo := hasks.allowed
  obtain ⟨hid, howns, hask⟩ := hasks
  unfold canUseTool
  have hkept := kept_wakeFor env s request.subagent
  generalize (if request.subagent then s else s.activeOrWake env) = woken at hkept
  obtain ⟨-, -, hset, htools, hwake⟩ := hkept
  have hwokenOwns : woken.ownsClientTool request.toolName = false := by
    unfold ownsClientTool at howns ⊢
    rw [htools]
    exact howns
  have happroval (hquest : toolDisposition request.toolName ≠ .question) :
      (woken.askApproval env request).active.map ActiveTurn.turnId =
        (woken.activeOrWake env).active.map ActiveTurn.turnId := by
    rw [← hset] at hallo
    exact turn_askApproval env woken (hallo hquest).1 (hallo hquest).2
  simp only
  rw [if_neg hid, if_neg (by rw [hwokenOwns]; decide), ← hwake]
  split
  · next hexit =>
    rcases hask with hquest | ⟨hnot, -⟩
    · cases hexit.symm.trans hquest
    · exact absurd hexit hnot
  · rw [active_openRequest]
  · next hitem => exact happroval (by rw [hitem]; decide)
  · next hplan => exact happroval (by rw [hplan]; decide)

lemma active_claim (s : Session) (openItems : List String) :
    (s.claim openItems).2.active = s.active := by
  unfold claim
  split <;> rfl

lemma active_onMcpMessage (s : Session) (requestId serverName : String) (message : McpMessage) :
    (s.onMcpMessage requestId serverName message).active = s.active := by
  unfold onMcpMessage
  split
  · exact active_answer s _ _
  split
  · split
    · next openItems _ =>
      unfold callClientTool
      split
      · exact active_answer s _ _
      have hclaim := active_claim s openItems
      generalize s.claim openItems = pair at hclaim ⊢
      obtain ⟨callId, claimed⟩ := pair
      exact hclaim
    · exact active_answer s _ _
  · exact active_answer s _ _

end Session

/-! ## Runs -/

/-- A session with the requests that came, those Claude withdrew, and those whose tool may run. -/
structure Watched where
  session : Session
  asked : List Asked
  cancelled : List String
  granted : List String

namespace Watched

open Session Held

def requestOf : QueryEvent → Option (String × String)
  | .canUseTool request => some (request.requestId, request.toolName)
  | .namesNoToolUse requestId => some (requestId, "")
  | .mcpMessage requestId _ _ => some (requestId, "")
  | .otherRequest requestId _ => some (requestId, "")
  | _ => none

def askedBy (query : LiveQuery) (after : Session) (event : QueryEvent) : List Asked :=
  match requestOf event with
  | some (requestId, toolName) =>
    [⟨query.generation, requestId, toolName, after.active.map ActiveTurn.turnId⟩]
  | none => []

def cancelledBy : QueryEvent → List String
  | .cancelled requestId => [requestId]
  | _ => []

def grantedBy (s : Session) : Act → List String
  | .query (.canUseTool request) =>
    if s.query ≠ none ∧ (s.ownsClientTool request.toolName = true ∨
        profileOf s.settings.permissionProfile = .fullAccess) then [request.requestId]
    else []
  | .respond key response =>
    match s.pending.get? key with
    | some request => if accepts request.kind response then [request.claudeRequestId] else []
    | none => []
  | _ => []

def step (w : Watched) (input : Surroundings × Act) : Watched :=
  let after := w.session.step input
  let granted := w.granted ++ grantedBy w.session input.2
  match w.session.query, input.2 with
  | some live, .query event =>
    ⟨after, w.asked ++ askedBy live after event, w.cancelled ++ cancelledBy event, granted⟩
  | _, _ => ⟨after, w.asked, w.cancelled, granted⟩

/-- A request comes under a new id and is put to the user under a free key. -/
def Meets (w : Watched) : Surroundings × Act → Prop
  | (_, .query event) => w.session.query ≠ none →
    (∀ request ∈ requestOf event, ∀ x ∈ w.asked, x.requestId ≠ request.1) ∧
    match event with
    | .canUseTool request => w.session.AsksUser request →
      w.session.pending.get? (pendingId request.toolUseId) = none
    | .mcpMessage _ _ (.call _ openItems) => ¬ w.session.ClaimsAgain openItems
    | .result frame => w.session.ReplacesIdle frame
    | _ => True
  | (_, .toolCallDone callId requestId _ _) =>
    ∀ waiting, w.session.toolCalls.running.get? callId = some waiting → waiting = requestId
  | _ => True

structure Inv (w : Watched) : Prop where
  answering : w.session.Answering w.asked w.cancelled w.granted
  distinct : (w.asked.map Asked.requestId).Nodup

end Watched

lemma Session.Answering.grant {s : Session} {asked : List Asked} {cancelled granted : List String}
    (h : s.Answering asked cancelled granted) (more : List String) :
    s.Answering asked cancelled (granted ++ more) :=
  ⟨⟨h.kept.nodup, h.kept.waits, h.kept.toAsker, h.kept.all, h.kept.past, h.kept.called, h.kept.fits,
    fun a ha hallow => mem_append_left _ (h.kept.allowed a ha hallow)⟩, h.current⟩

namespace Watched

open Session Held

variable {w : Watched} {event : QueryEvent}

variable {env : Surroundings} {query : LiveQuery}

lemma answering_event
    (h : w.session.Answering w.asked w.cancelled (w.granted ++ grantedBy w.session (.query event)))
    (hquery : w.session.query = some query) (hmeets : w.Meets (env, .query event)) :
    (w.session.onQueryEvent env event).Answering
      (w.asked ++ askedBy query (w.session.onQueryEvent env event) event)
      (w.cancelled ++ cancelledBy event) (w.granted ++ grantedBy w.session (.query event)) := by
  have hopen : w.session.query ≠ none := by
    rw [hquery]
    exact Option.some_ne_none query
  obtain ⟨hnew, hevent⟩ := hmeets hopen
  cases event with
  | backgroundTasks count =>
    simp only [askedBy, requestOf, cancelledBy, append_nil]
    have hcount : ({ w.session with backgroundTasks := count } : Session).Answering w.asked
        w.cancelled _ := h.of_held rfl
    unfold onQueryEvent onBackgroundTasks
    simp only
    split
    · exact answering_applyPendingSettings hcount
    · exact hcount
  | task =>
    simp only [askedBy, requestOf, cancelledBy, append_nil]
    exact h.of_held (held_emitItems _ _)
  | content topLevel =>
    simp only [askedBy, requestOf, cancelledBy, append_nil]
    unfold onQueryEvent onContent
    simp only
    split
    · exact (answering_activeOrWake env h).of_held (held_emitItems _ _)
    · exact h
  | result frame =>
    simp only [askedBy, requestOf, cancelledBy, append_nil]
    exact answering_onResult h hevent
  | canUseTool request =>
    simp only [cancelledBy, append_nil]
    refine answering_canUseTool h (hnew _ rfl) hquery hevent
      (fun hasks => turn_canUseTool env w.session hasks) (fun hgran => ?_)
    refine mem_append_right _ ?_
    rw [grantedBy, if_pos ⟨hopen, hgran⟩]
    exact mem_singleton.mpr rfl
  | namesNoToolUse requestId | otherRequest requestId subtype =>
    simp only [cancelledBy, append_nil]
    exact answering_answer_new h (hnew _ rfl) hquery (fun hallow => by cases hallow)
  | mcpMessage requestId serverName message =>
    simp only [cancelledBy, append_nil]
    refine answering_onMcpMessage h (hnew _ rfl) hquery (fun tool openItems hcall => ?_) ?_
    · subst hcall
      exact hevent
    · exact congrArg (Option.map ActiveTurn.turnId) (active_onMcpMessage w.session _ _ _)
  | cancelled requestId =>
    simp only [askedBy, requestOf, append_nil]
    exact answering_onRequestCancelled h requestId
  | exited outcome =>
    simp only [askedBy, requestOf, cancelledBy, append_nil]
    exact answering_onQueryEnded h outcome

lemma distinct_append {after : Session} (h : (w.asked.map Asked.requestId).Nodup)
    (hnew : ∀ request ∈ requestOf event, ∀ x ∈ w.asked, x.requestId ≠ request.1) :
    ((w.asked ++ askedBy query after event).map Asked.requestId).Nodup := by
  unfold askedBy
  cases hreq : requestOf event with
  | none => rwa [append_nil]
  | some request =>
  obtain ⟨requestId, toolName⟩ := request
  rw [map_append]
  refine nodup_append'.mpr ⟨h, nodup_singleton _, fun id hid hid' => ?_⟩
  obtain ⟨x, hx, rfl⟩ := mem_map.mp hid
  exact hnew _ hreq x hx (mem_singleton.mp hid')

lemma step_of_open (hquery : w.session.query = some query) : w.step (env, .query event) =
      ⟨w.session.onQueryEvent env event,
        w.asked ++ askedBy query (w.session.onQueryEvent env event) event,
        w.cancelled ++ cancelledBy event, w.granted ++ grantedBy w.session (.query event)⟩ := by
  have hstep : w.session.step (env, .query event) = w.session.onQueryEvent env event := by
    rw [Session.step, if_neg (by rw [hquery]; exact Option.some_ne_none query)]
  unfold step
  simp only [hquery, hstep]

lemma step_of_closed (hquery : w.session.query = none) : w.step (env, .query event) =
      ⟨w.session, w.asked, w.cancelled, w.granted ++ grantedBy w.session (.query event)⟩ := by
  have hstep : w.session.step (env, .query event) = w.session := by
    rw [Session.step, if_pos hquery]
  unfold step
  simp only [hquery, hstep]

variable {input : Surroundings × Act}

lemma inv_step (h : w.Inv) (hmeets : w.Meets input) : (w.step input).Inv := by
  obtain ⟨env, act⟩ := input
  have hgr := h.answering.grant (grantedBy w.session act)
  have hother : ∀ {after : Session}, w.session.step (env, act) = after →
      (∀ event, act ≠ .query event) →
      after.Answering w.asked w.cancelled (w.granted ++ grantedBy w.session act) →
      (w.step (env, act)).Inv := by
    intro after hafter hact hanswering
    have hstep : w.step (env, act) =
        ⟨after, w.asked, w.cancelled, w.granted ++ grantedBy w.session act⟩ := by
      unfold step
      rw [hafter]
      cases act with
      | query event => exact absurd rfl (hact event)
      | _ => cases w.session.query <;> rfl
    rw [hstep]
    exact ⟨hanswering, h.distinct⟩
  cases act with
  | query event =>
    cases hquery : w.session.query with
    | none =>
      rw [step_of_closed hquery]
      exact ⟨hgr, h.distinct⟩
    | some query =>
    rw [step_of_open hquery]
    have hopen : w.session.query ≠ none := by
      rw [hquery]
      exact Option.some_ne_none query
    exact ⟨answering_event hgr hquery hmeets, distinct_append h.distinct (hmeets hopen).1⟩
  | startTurn user =>
    exact hother rfl (fun event heq => by cases heq) (answering_startTurn hgr user)
  | steer expected =>
    exact hother rfl (fun event heq => by cases heq) (answering_steer hgr expected)
  | interrupt turnId runningCommand =>
    refine hother rfl (fun event heq => by cases heq) ?_
    rw [Session.step, interrupt]
    split
    · exact hgr
    · split
      · exact answering_requestInterrupt hgr runningCommand
      · exact hgr
  | respond key response =>
    refine hother rfl (fun event heq => by cases heq)
      (answering_respond hgr key response (fun pending hkey hacc => ?_))
    refine mem_append_right _ ?_
    rw [grantedBy, hkey]
    simp only [hacc, if_true, mem_singleton]
  | updateSettings next =>
    exact hother rfl (fun event heq => by cases heq) (answering_updateSettings hgr next)
  | edit presence => exact hother rfl (fun event heq => by cases heq) (hgr.of_held rfl)
  | dispose => exact hother rfl (fun event heq => by cases heq) (answering_dispose hgr)
  | toolCallDone callId requestId success text =>
    exact hother rfl (fun event heq => by cases heq)
      (answering_onToolCallDone hgr hmeets success text)
  | modeChangeFailed generation =>
    refine hother rfl (fun event heq => by cases heq) ?_
    rw [Session.step, onModeChangeFailed]
    split
    · have houtdated : ({ w.session with queryModeOutdated := true } : Session).Answering w.asked
          w.cancelled _ := hgr.of_held rfl
      exact answering_applyPendingSettings houtdated
    · exact hgr
  | historyLines turnId =>
    refine hother rfl (fun event heq => by cases heq) ?_
    rw [Session.step]
    split
    · have hread : ({ w.session with histories := w.session.histories.erase turnId } :
          Session).Answering w.asked w.cancelled _ := hgr.of_held rfl
      exact answering_offerReplacement hread turnId
    · exact hgr
  | interruptTimeout =>
    exact hother rfl (fun event heq => by cases heq) (answering_onInterruptTimeout hgr)
  | idleTimer deferred =>
  refine hother rfl (fun event heq => by cases heq) ?_
  rw [Session.step, onIdleTimer]
  split
  · exact hgr
  next hidle =>
  split
  · exact hgr
  · exact answering_closeQuery hgr (hgr.waiting_of_idle (not_not.mp (fun hne => hidle (.inl hne))))

lemma readOnly_of_granted (h : w.Inv) {id : String} (hid : id ∈ grantedBy w.session input.2)
    (hprof : profileOf w.session.settings.permissionProfile = .readOnly) :
    ∃ r ∈ (w.step input).asked, r.requestId = id ∧
      (w.session.ownsClientTool r.toolName = true ∨ readOnlyTools.contains r.toolName = true ∨
        r.toolName = "AskUserQuestion") := by
  obtain ⟨env, act⟩ := input
  cases act with
  | query event =>
    cases event with
    | canUseTool request =>
      rw [grantedBy] at hid
      split at hid
      · next hgran =>
        obtain ⟨hopen, hgran⟩ := hgran
        obtain ⟨live, hlive⟩ := Option.ne_none_iff_exists'.mp hopen
        rw [step_of_open hlive]
        refine ⟨_, mem_concat_self, (mem_singleton.mp hid).symm, .inl ?_⟩
        rcases hgran with howns | hfull
        · exact howns
        · cases hprof.symm.trans hfull
      · cases hid
    | _ => cases hid
  | respond key response =>
    have hasked : (w.step (env, .respond key response)).asked = w.asked := by
      unfold step
      cases w.session.query <;> rfl
    rw [hasked]
    rw [grantedBy] at hid
    split at hid
    · next request hkey =>
      split at hid
      · next hacc =>
        obtain ⟨r, hr, hsame, hfits⟩ := h.answering.kept.fits key request hkey
        refine ⟨r, hr, hsame.trans (mem_singleton.mp hid).symm, .inr ?_⟩
        cases hkind : request.kind with
        | approval suggestions =>
          rw [hkind] at hfits
          have hallow : profileAllowsTool (profileOf w.session.settings.permissionProfile)
              r.toolName = true := hfits
          rw [hprof, profileAllowsTool, Bool.or_eq_true] at hallow
          exact .inl (hallow.resolve_left (by decide))
        | userInput questions =>
          rw [hkind] at hfits
          exact .inr hfits
      · cases hid
    · cases hid
  | _ => cases hid

def start (presence : Presence) (settings : ThreadSettings) : Watched :=
  ⟨spawn presence settings, [], [], []⟩

lemma inv_start (presence : Presence) (settings : ThreadSettings) :
    (start presence settings).Inv where
  answering :=
    { kept :=
        { nodup := nodup_nil
          waits := fun id hid => by cases hid
          toAsker := fun a ha => by cases ha
          all := fun r hr => by cases hr
          past := fun r hr => by cases hr
          called := ⟨nodup_nil, fun call hcall => (by cases hcall), fun c hc => (by cases hc),
            fun t ht => (by cases ht)⟩
          fits := fun key p hkey => by cases hkey
          allowed := fun a ha => by cases ha }
      current := fun query hquery => by cases hquery }
  distinct := nodup_nil

/-- A request is answered once, and a tool is allowed only if it may run. -/
theorem requests_answered_once (presence : Presence) (settings : ThreadSettings)
    (run : List (Surroundings × Act)) (h : Always step Meets (start presence settings) run) :
    ∀ done rest, run = done ++ rest →
      let w := exec step (start presence settings) done
      (w.session.answers.map Answer.requestId).Nodup ∧
      (∀ r ∈ w.asked, w.session.query = some ⟨r.query⟩ → r.requestId ∉ w.cancelled →
        (r.turn = none ∨ r.turn ≠ w.session.active.map ActiveTurn.turnId) →
          r.requestId ∈ w.session.answers.map Answer.requestId) ∧
      (∀ a ∈ w.session.answers, ∃ r ∈ w.asked, r.requestId = a.requestId ∧ r.query = a.query) ∧
      (∀ a ∈ w.session.answers, a.reply.allows = true → a.requestId ∈ w.granted) ∧
      (∀ input ∈ rest.head?, ∀ id ∈ grantedBy w.session input.2,
        profileOf w.session.settings.permissionProfile = .readOnly →
          ∃ r ∈ (w.step input).asked, r.requestId = id ∧
            (w.session.ownsClientTool r.toolName = true ∨
              readOnlyTools.contains r.toolName = true ∨ r.toolName = "AskUserQuestion")) ∧
      w.session.calls.Nodup := by
  intro done rest hrun
  rw [hrun, always_append] at h
  have hinv : Inv (exec step (start presence settings) done) :=
    exec_invariant_of_always (P := Inv) (Q := Meets) (fun _ _ hw hmeets => inv_step hw hmeets)
      (inv_start presence settings) h.1
  have hkept := hinv.answering.kept
  refine ⟨(nodup_append.mp hkept.nodup).2.1, fun r hr hopen hcanc hturn => ?_, hkept.toAsker,
    hkept.allowed, fun input _ id hid hprof => readOnly_of_granted hinv hid hprof,
    hkept.called.nodup⟩
  rcases hkept.all r hr hopen with hwaits | hansw | hwithdrawn
  · obtain ⟨x, hx, hsame, -, hne, hxturn⟩ := hkept.waits _ hwaits
    have heq : x = r := inj_on_of_nodup_map hinv.distinct hx hr hsame
    subst heq
    rcases hturn with hnone | hother
    · exact absurd (hxturn.symm.trans hnone) hne
    · exact absurd hxturn hother
  · exact hansw
  · exact absurd hwithdrawn hcanc

def bash (requestId : String) : Session.ToolRequest := ⟨false, requestId, "Bash", "ls", "t", [], []⟩

def accepted : List (Surroundings × Act) :=
  [(surroundings true, .startTurn true), (surroundings true, .query (.canUseTool (bash "r1"))),
    (surroundings true, .respond "perm-t" (.approval .accept)),
    (surroundings true, .query (.result ⟨false, false, false, .completed⟩))]

theorem requests_answered_once_of_accepted :
    (exec step (start (.listed false) workspaceSettings) accepted).session.active = none ∧
      "r1" ∈ (exec step (start (.listed false) workspaceSettings) accepted).session.answers.map
        Answer.requestId := by
  have hmeets : Always step Meets (start (.listed false) workspaceSettings) accepted :=
    ⟨trivial, fun _ => ⟨fun request hreq x hx => (by cases hx), fun _ => rfl⟩, trivial,
      fun _ => ⟨fun request hreq => (by cases hreq), fun hlost => (by cases hlost)⟩, trivial⟩
  obtain ⟨-, hansw, -⟩ := requests_answered_once (.listed false) workspaceSettings accepted
    hmeets accepted [] (append_nil _).symm
  have hasked : (exec step (start (.listed false) workspaceSettings) accepted).asked =
      [⟨1, "r1", "Bash", some 0⟩] := by decide
  refine ⟨by decide, hansw ⟨1, "r1", "Bash", some 0⟩ ?_ (by decide) (by decide) (by decide)⟩
  rw [hasked]
  exact mem_singleton.mpr rfl

def sameToolUse : List (Surroundings × Act) :=
  [(surroundings true, .startTurn true), (surroundings true, .query (.canUseTool (bash "r1"))),
    (surroundings true, .query (.canUseTool (bash "r2"))),
    (surroundings true, .query (.result ⟨false, false, false, .completed⟩))]

def replacedWhileWaiting : List (Surroundings × Act) :=
  [(surroundings true, .startTurn true), (surroundings true, .query (.canUseTool (bash "r1"))),
    (surroundings true, .query (.result ⟨true, false, false, .failed "lost"⟩)),
    (surroundings true, .historyLines 0),
    (surroundings true, .respond "perm-t" (.approval .accept))]

/-- A client tool is called for the same item before and after an interrupt. -/
def calledAgain : List (Surroundings × Act) :=
  let tools : Surroundings := ⟨["note"], true, [], [], []⟩
  [(tools, .startTurn true),
    (tools, .query (.mcpMessage "r1" "codewide" (.call "note" ["t"]))), (tools, .interrupt none false),
    (tools, .query (.mcpMessage "r2" "codewide" (.call "note" ["t"])))]

/-- The first of two requests of one tool use is never answered. -/
theorem request_left_unanswered :
    ((ran sameToolUse).active = none ∧ (ran sameToolUse).query = some ⟨1⟩ ∧
      (ran sameToolUse).answers.map Answer.requestId = ["r2"]) ∧
    (ran replacedWhileWaiting).answers = [⟨3, "r1", .allow "ls" none none⟩] ∧
    (ran calledAgain).calls = [(0, toLex (.inl "t")), (0, toLex (.inl "t"))] := by
  refine ⟨by decide, by decide, by decide⟩

end Watched

end CodeWide.Claude
