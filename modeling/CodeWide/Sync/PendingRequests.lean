import CodeWide.Lib.Json
import CodeWide.Lib.Run
import CodeWide.Lib.Text

/-!
# Pending server requests

The requests a provider waits for an answer to, and the rejections of oversized tool calls still to
be delivered (`sync_pending.rs`).
-/

namespace CodeWide.Sync.Pending

open Lib Table Option

def maxPendingServerRequests : Nat := 1024
def maxPendingServerRequestBytes : Nat := 4 * 1024 * 1024
def maxSingleServerRequestBytes : Nat := 1024 * 1024
def dynamicToolInputMaxBytes : Nat := 65536
def dynamicToolOutputMaxBytes : Nat := 262144

structure Encoder where
  encode : Json → String
  nonempty : ∀ v, encode v ≠ ""

namespace Encoder

def len (e : Encoder) (v : Json) : Nat := Text.utf8Len (e.encode v).toList

lemma len_pos (e : Encoder) (v : Json) : 0 < e.len v :=
  Text.utf8Len_pos (fun h => e.nonempty v (String.toList_eq_nil_iff.mp h))

end Encoder

structure PendingDynamicToolRejection where
  response : Json
  retainedBytes : Nat

structure PendingServerRequests where
  requests : Table String Json := ∅
  resolving : List String := []
  bytes : Nat := 0
  dynamicToolRejections : Table String PendingDynamicToolRejection := ∅
  dynamicToolRejectionBytes : Nat := 0

inductive PendingRequestClass where
  | userInteraction
  | systemDynamicTool
deriving DecidableEq

def userInteractionMethods : List String :=
  ["item/commandExecution/requestApproval", "item/fileChange/requestApproval",
    "item/tool/requestUserInput", "item/permissions/requestApproval",
    "mcpServer/elicitation/request"]

def classifyPendingRequestMethod (method : String) : Option PendingRequestClass :=
  if method ∈ userInteractionMethods then some .userInteraction
  else if method = "item/tool/call" then some .systemDynamicTool
  else none

variable (e : Encoder)

def rpcIdKey (id : Json) : String :=
  (match id with
    | .null => "null"
    | .bool _ => "bool"
    | .int _ | .float _ => "number"
    | .str _ => "string"
    | .arr _ => "array"
    | .obj _ => "object") ++ ":" ++ e.encode id

def boundedDynamicToolRequestId (payload : Json) : Option Json :=
  (payload.get? "id").filter (fun id =>
    (match id with
      | .str _ => true
      | .int _ => id.asI64?.isSome
      | _ => false) && decide (e.len id ≤ dynamicToolInputMaxBytes))

def fixedDynamicToolFailureResponse (id : Json) (text : String) : Json :=
  .ofFields [("id", id), ("result", .ofFields
    [("contentItems", .arr [.ofFields [("type", .str "inputText"), ("text", .str text)]]),
      ("success", .bool false)])]

def enforceDynamicToolOutputLimit (response : Json) (requestClass : Option PendingRequestClass) :
    Json :=
  if requestClass ≠ some .systemDynamicTool ∨ e.len response ≤ dynamicToolOutputMaxBytes then response
  else fixedDynamicToolFailureResponse ((response.get? "id").getD .null)
    "dynamic_tool_output_too_large"

def retainDynamicToolRejection (p : PendingServerRequests) (id response : Json) :
    Option PendingServerRequests :=
  let key := rpcIdKey e id
  let retainedBytes := e.len response + Text.utf8Len key.toList
  if p.requests.contains key then none
  else
    let previousBytes := ((p.dynamicToolRejections.get? key).map (·.retainedBytes)).getD 0
    let isNew := decide (previousBytes = 0)
    let nextCount := p.requests.size + p.dynamicToolRejections.size + isNew.toNat
    let nextBytes := p.bytes + p.dynamicToolRejectionBytes - previousBytes + retainedBytes
    if maxSingleServerRequestBytes < retainedBytes ∨ maxPendingServerRequests < nextCount ∨
        maxPendingServerRequestBytes < nextBytes then none
    else some { p with
      dynamicToolRejections := p.dynamicToolRejections.insert key ⟨response, retainedBytes⟩
      dynamicToolRejectionBytes := p.dynamicToolRejectionBytes - previousBytes + retainedBytes }

inductive Screening where
  | admissible
  | dropped
  | retained (p : PendingServerRequests)
  | failed

/-- `reject_oversized_dynamic_tool_requests` for one payload of its list: the lock is taken
anew for each. -/
def rejectOversizedDynamicToolRequest (p : PendingServerRequests) (payload : Json) : Screening :=
  if payload.method? ≠ some "item/tool/call" then .admissible
  else match boundedDynamicToolRequestId e payload with
  | none => .dropped
  | some id =>
    if e.len payload ≤ dynamicToolInputMaxBytes then .admissible
    else
      let response := fixedDynamicToolFailureResponse id "dynamic_tool_input_too_large"
      if dynamicToolOutputMaxBytes < e.len response then .dropped
      else match retainDynamicToolRejection e p id response with
      | some p' => .retained p'
      | none => .failed

def removeDynamicToolRejection (p : PendingServerRequests) (key : String) : PendingServerRequests :=
  match p.dynamicToolRejections.get? key with
  | none => p
  | some rejection => { p with
      dynamicToolRejections := p.dynamicToolRejections.erase key
      dynamicToolRejectionBytes := p.dynamicToolRejectionBytes - rejection.retainedBytes }

def removeServerRequestLocked (p : PendingServerRequests) (key : String) : PendingServerRequests :=
  let p := match p.requests.get? key with
    | none => p
    | some request => { p with
        requests := p.requests.erase key
        bytes := p.bytes - e.len request }
  let p := removeDynamicToolRejection p key
  { p with resolving := p.resolving.filter (fun k => decide (k ≠ key)) }

inductive Observation where
  | ignored
  | resolved (key : String)
  | request (key : String)

def observation (payload : Json) : Observation :=
  if payload.method? = some "serverRequest/resolved" then
    match (payload.get? "params").bind (·.get? "requestId") with
    | some id => .resolved (rpcIdKey e id)
    | none => .ignored
  else match payload.method?.bind classifyPendingRequestMethod with
  | none => .ignored
  | some requestClass =>
    if ((payload.get? "params").any Json.isObj) = false then .ignored
    else
      match (match requestClass with
        | .userInteraction => payload.get? "id"
        | .systemDynamicTool => boundedDynamicToolRequestId e payload) with
      | none => .ignored
      | some id => .request (rpcIdKey e id)

def retainServerRequest (p : PendingServerRequests) (key : String) (payload : Json) :
    Option PendingServerRequests :=
  if p.dynamicToolRejections.contains key then none
  else
    let previousBytes := ((p.requests.get? key).map e.len).getD 0
    let isNew := decide (previousBytes = 0)
    let nextCount := p.requests.size + p.dynamicToolRejections.size + isNew.toNat
    let nextRequestBytes := p.bytes - previousBytes + e.len payload
    if maxSingleServerRequestBytes < e.len payload ∨ maxPendingServerRequests < nextCount ∨
        maxPendingServerRequestBytes < nextRequestBytes + p.dynamicToolRejectionBytes then none
    else some { p with
      requests := p.requests.insert key payload
      bytes := nextRequestBytes }

def observeServerRequest (p : PendingServerRequests) (payload : Json) :
    Option PendingServerRequests :=
  match observation e payload with
  | .ignored => some p
  | .resolved key => some (removeServerRequestLocked e p key)
  | .request key => retainServerRequest e p key payload

/-- The table after a list of payloads; the first that is refused ends the loop. -/
def observeServerRequests (p : PendingServerRequests) :
    List Json → PendingServerRequests × Bool
  | [] => (p, true)
  | payload :: rest =>
    match observeServerRequest e p payload with
    | none => (p, false)
    | some p' => observeServerRequests p' rest

def isOwnedInteraction (owned : Json → Bool) (request : Json) : Bool :=
  decide (request.method?.bind classifyPendingRequestMethod = some .userInteraction) &&
    (request.get? "id").any owned

def disconnectedKeys (owned : Json → Bool) (p : PendingServerRequests) : List String :=
  (p.requests.entries.filter (fun r => isOwnedInteraction owned r.2)).map Prod.fst

def clearUserRequestsOnDisconnect (owned : Json → Bool) (p : PendingServerRequests) :
    PendingServerRequests :=
  (disconnectedKeys owned p).foldl (removeServerRequestLocked e) p

variable {e}

/-- The counters are the sums they stand for, and only pending requests are being resolved. -/
structure Accounted (e : Encoder) (p : PendingServerRequests) : Prop where
  bytes : p.bytes = p.requests.sum e.len
  rejectionBytes : p.dynamicToolRejectionBytes = p.dynamicToolRejections.sum (·.retainedBytes)
  retained : ∀ key rejection, p.dynamicToolRejections.get? key = some rejection →
    rejection.retainedBytes = e.len rejection.response + Text.utf8Len key.toList
  count : p.requests.size + p.dynamicToolRejections.size ≤ maxPendingServerRequests
  total : p.bytes + p.dynamicToolRejectionBytes ≤ maxPendingServerRequestBytes
  disjoint : ∀ key, p.requests.contains key = true → p.dynamicToolRejections.contains key = false
  resolving : ∀ key ∈ p.resolving, p.requests.contains key = true

lemma accounted_empty : Accounted e {} where
  bytes := rfl
  rejectionBytes := rfl
  retained _ _ h := nomatch h
  count := Nat.zero_le _
  total := Nat.zero_le _
  disjoint _ h := nomatch h
  resolving _ h := nomatch h

/-- A measure that is zero only for a missing entry tells whether the key is new. -/
lemma size_insert_of_measure {ν : Type} (t : Table String ν) (key : String) (v : ν) {f : ν → Nat}
    (hpos : ∀ w, t.get? key = some w → 0 < f w) :
    (t.insert key v).size = t.size + (decide (((t.get? key).map f).getD 0 = 0)).toNat := by
  cases hget : t.get? key with
  | none => exact size_insert_of_none v hget
  | some w =>
  have hne : f w ≠ 0 := by
    have := hpos w hget
    omega
  rw [size_insert_of_some v hget, map_some, getD_some, decide_eq_false hne]
  rfl

variable {p p' : PendingServerRequests}

variable {payload : Json}

lemma Accounted.retainRequest (h : Accounted e p) {key : String}
    (hret : retainServerRequest e p key payload = some p') :
    Accounted e p' ∧ p' = { p with
      requests := p.requests.insert key payload
      bytes := p'.bytes } := by
  unfold retainServerRequest at hret
  split at hret
  · cases hret
  rename_i hnew
  dsimp only at hret
  split at hret
  · cases hret
  rename_i hfits
  push Not at hfits
  obtain ⟨-, hcount, htotal⟩ := hfits
  cases hret
  have hsum := p.requests.sum_insert key payload e.len
  have hbytes := h.bytes
  refine ⟨?_, rfl⟩
  constructor
  · show p.bytes - ((p.requests.get? key).map e.len).getD 0 + e.len payload =
      (p.requests.insert key payload).sum e.len
    have hle := p.requests.sum_erase key e.len
    omega
  · exact h.rejectionBytes
  · exact h.retained
  · show (p.requests.insert key payload).size + p.dynamicToolRejections.size ≤ _
    rw [size_insert_of_measure _ _ _ (fun w _ => e.len_pos w)]
    omega
  · exact htotal
  · intro k hk
    change (p.requests.insert key payload).contains k = true at hk
    rw [contains_insert_iff] at hk
    rcases hk with rfl | hk
    · exact eq_false_of_ne_true hnew
    · exact h.disjoint k hk
  · intro k hk
    show (p.requests.insert key payload).contains k = true
    rw [contains_insert, h.resolving k hk, Bool.or_true]

lemma Accounted.retainRejection (h : Accounted e p)
    {id response : Json} (hret : retainDynamicToolRejection e p id response = some p') :
    Accounted e p' ∧ p' = { p with
      dynamicToolRejections := p.dynamicToolRejections.insert (rpcIdKey e id)
        ⟨response, e.len response + Text.utf8Len (rpcIdKey e id).toList⟩
      dynamicToolRejectionBytes := p'.dynamicToolRejectionBytes } := by
  unfold retainDynamicToolRejection at hret
  dsimp only at hret
  generalize hkey : rpcIdKey e id = key at hret ⊢
  split at hret
  · cases hret
  rename_i hnew
  split at hret
  · cases hret
  rename_i hfits
  push Not at hfits
  obtain ⟨-, hcount, htotal⟩ := hfits
  cases hret
  have hbytes := h.rejectionBytes
  have hsum := p.dynamicToolRejections.sum_insert key
    ⟨response, e.len response + Text.utf8Len key.toList⟩ (·.retainedBytes)
  have hle := p.dynamicToolRejections.sum_erase key (·.retainedBytes)
  refine ⟨?_, rfl⟩
  constructor
  · exact h.bytes
  · show p.dynamicToolRejectionBytes -
        ((p.dynamicToolRejections.get? key).map (·.retainedBytes)).getD 0 +
        (e.len response + Text.utf8Len key.toList) = (p.dynamicToolRejections.insert key _).sum _
    dsimp only at hsum
    omega
  · intro k rejection hk
    change (p.dynamicToolRejections.insert key _).get? k = some rejection at hk
    rcases of_get?_insert hk with ⟨heq, rfl⟩ | ⟨-, hk⟩
    · rw [heq]
    · exact h.retained k rejection hk
  · show p.requests.size + (p.dynamicToolRejections.insert key _).size ≤ _
    rw [size_insert_of_measure _ _ _ (f := (·.retainedBytes)) (fun r hr => ?_)]
    · omega
    · have := h.retained key r hr
      have := e.len_pos r.response
      omega
  · show p.bytes + (p.dynamicToolRejectionBytes - _ + _) ≤ _
    omega
  · intro k hk
    show (p.dynamicToolRejections.insert key _).contains k = false
    have hne : k ≠ key := by
      rintro rfl
      exact hnew hk
    rw [contains_insert, decide_eq_false hne, Bool.false_or]
    exact h.disjoint k hk
  · exact h.resolving

lemma Accounted.removeRejection {p : PendingServerRequests} (h : Accounted e p) (key : String) :
    Accounted e (removeDynamicToolRejection p key) := by
  unfold removeDynamicToolRejection
  split
  · exact h
  rename_i rejection hget
  have hsum := p.dynamicToolRejections.sum_erase key (·.retainedBytes)
  have hsize := p.dynamicToolRejections.size_erase_le key
  have hbytes := h.rejectionBytes
  have hcount := h.count
  have htotal := h.total
  rw [hget, map_some, getD_some] at hsum
  constructor
  · exact h.bytes
  · show p.dynamicToolRejectionBytes - rejection.retainedBytes =
      (p.dynamicToolRejections.erase key).sum _
    omega
  · intro k r hk
    change (p.dynamicToolRejections.erase key).get? k = some r at hk
    exact h.retained k r (of_get?_erase hk).2
  · show p.requests.size + (p.dynamicToolRejections.erase key).size ≤ _
    omega
  · show p.bytes + (p.dynamicToolRejectionBytes - _) ≤ _
    omega
  · intro k hk
    show (p.dynamicToolRejections.erase key).contains k = false
    rw [contains_erase, h.disjoint k hk, Bool.and_false]
  · exact h.resolving

@[simp] lemma removeRejection_requests (p : PendingServerRequests) (key : String) :
    (removeDynamicToolRejection p key).requests = p.requests := by
  unfold removeDynamicToolRejection
  split <;> rfl

@[simp] lemma removeRejection_resolving (p : PendingServerRequests) (key : String) :
    (removeDynamicToolRejection p key).resolving = p.resolving := by
  unfold removeDynamicToolRejection
  split <;> rfl

@[simp] lemma removeRejection_rejections (p : PendingServerRequests) (key : String) :
    (removeDynamicToolRejection p key).dynamicToolRejections = p.dynamicToolRejections.erase key := by
  unfold removeDynamicToolRejection
  split
  · rename_i hget
    exact (erase_of_none hget).symm
  · rfl

lemma removeRequest_fields (e : Encoder) (p : PendingServerRequests) (key : String) :
    (removeServerRequestLocked e p key).requests = p.requests.erase key ∧
      (removeServerRequestLocked e p key).dynamicToolRejections =
        p.dynamicToolRejections.erase key ∧
      (removeServerRequestLocked e p key).resolving =
        p.resolving.filter (fun k => decide (k ≠ key)) := by
  unfold removeServerRequestLocked
  cases hget : p.requests.get? key with
  | none => simp [erase_of_none hget]
  | some request => simp

lemma Accounted.removeRequest {p : PendingServerRequests} (h : Accounted e p) (key : String) :
    Accounted e (removeServerRequestLocked e p key) := by
  -- Without the key among the resolutions the accounts of the requests can be settled first.
  have hdrop : Accounted e { p with resolving := p.resolving.filter (fun k => decide (k ≠ key)) } :=
    { h with resolving := fun k hk => h.resolving k (List.mem_of_mem_filter hk) }
  have herase : ∀ request, p.requests.get? key = some request → Accounted e { p with
      requests := p.requests.erase key
      bytes := p.bytes - e.len request
      resolving := p.resolving.filter (fun k => decide (k ≠ key)) } := by
    intro request hget
    have hsum := p.requests.sum_erase key e.len
    have hsize := p.requests.size_erase_le key
    have hbytes := h.bytes
    have hcount := h.count
    have htotal := h.total
    rw [hget, map_some, getD_some] at hsum
    constructor
    · show p.bytes - e.len request = (p.requests.erase key).sum e.len
      omega
    · exact h.rejectionBytes
    · exact h.retained
    · show (p.requests.erase key).size + p.dynamicToolRejections.size ≤ _
      omega
    · show p.bytes - e.len request + p.dynamicToolRejectionBytes ≤ _
      omega
    · intro k hk
      change (p.requests.erase key).contains k = true at hk
      rw [contains_erase, Bool.and_eq_true] at hk
      exact h.disjoint k hk.2
    intro k hk
    show (p.requests.erase key).contains k = true
    obtain ⟨hmem, hne⟩ := List.mem_filter.mp hk
    rw [contains_erase, hne, h.resolving k hmem]
    rfl
  have hcommute : ∀ q : PendingServerRequests, { removeDynamicToolRejection q key with
        resolving := (removeDynamicToolRejection q key).resolving.filter (fun k => decide (k ≠ key)) } =
      removeDynamicToolRejection
        { q with resolving := q.resolving.filter (fun k => decide (k ≠ key)) } key := by
    intro q
    unfold removeDynamicToolRejection
    dsimp only
    cases q.dynamicToolRejections.get? key <;> rfl
  unfold removeServerRequestLocked
  cases hget : p.requests.get? key with
  | none =>
    dsimp only
    rw [hcommute]
    exact hdrop.removeRejection key
  | some request =>
  dsimp only
  rw [hcommute]
  exact (herase request hget).removeRejection key

lemma Accounted.observeOne (h : Accounted e p)
    (hobs : observeServerRequest e p payload = some p') : Accounted e p' := by
  unfold observeServerRequest at hobs
  split at hobs
  · cases hobs
    exact h
  · cases hobs
    exact h.removeRequest _
  · exact (h.retainRequest hobs).1

lemma Accounted.disconnect {p : PendingServerRequests} (h : Accounted e p)
    (owned : Json → Bool) : Accounted e (clearUserRequestsOnDisconnect e owned p) := by
  unfold clearUserRequestsOnDisconnect
  generalize disconnectedKeys owned p = keys
  induction keys generalizing p with
  | nil => exact h
  | cons key rest ih => exact ih (h.removeRequest key)

def inert (e : Encoder) (p : PendingServerRequests) (payload : Json) : Bool :=
  match observation e payload with
  | .ignored => true
  | .resolved key => !p.requests.contains key && !p.dynamicToolRejections.contains key
  | .request key => decide (p.requests.get? key = some payload)

lemma observeOne_of_inert (h : Accounted e p)
    (hinert : inert e p payload = true) (hobs : observeServerRequest e p payload = some p') :
    p' = p := by
  unfold inert at hinert
  unfold observeServerRequest at hobs
  split at hobs
  · cases hobs
    rfl
  · rename_i key hkey
    cases hobs
    rw [hkey] at hinert
    dsimp only at hinert
    rw [Bool.and_eq_true, Bool.not_eq_true', Bool.not_eq_true'] at hinert
    obtain ⟨hreq, hrejection⟩ := hinert
    have hfree : key ∉ p.resolving := by
      intro hmem
      rw [h.resolving key hmem] at hreq
      cases hreq
    rw [contains, isSome_eq_false_iff, isNone_iff_eq_none] at hreq hrejection
    have hkeep : p.resolving.filter (fun k => decide (k ≠ key)) = p.resolving := by
      refine List.filter_eq_self.mpr (fun k hk => ?_)
      rw [decide_eq_true_eq]
      rintro rfl
      exact hfree hk
    unfold removeServerRequestLocked
    rw [hreq]
    dsimp only
    unfold removeDynamicToolRejection
    rw [hrejection]
    dsimp only
    rw [hkeep]
  rename_i key hkey
  rw [hkey] at hinert
  have hget : p.requests.get? key = some payload := of_decide_eq_true hinert
  have hsum := p.requests.sum_erase key e.len
  have hbytes := h.bytes
  rw [hget, map_some, getD_some] at hsum
  obtain ⟨-, hshape⟩ := h.retainRequest hobs
  have hsame : p'.bytes = p.bytes := by
    unfold retainServerRequest at hobs
    split at hobs
    · cases hobs
    dsimp only at hobs
    split at hobs
    · cases hobs
    cases hobs
    dsimp only
    rw [hget, map_some, getD_some]
    omega
  rw [hshape, hsame, insert_of_some hget]

end CodeWide.Sync.Pending
