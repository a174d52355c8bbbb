import CodeWide.Lib.Latest
import CodeWide.Store.ReplayWindow
import Mathlib.Data.List.Sort

/-!
# Durable pins

What the table of pins is: of all pin and deletion events that were ever journaled, the latest of
every thread (`Decided`).
-/

namespace CodeWide.Store

open Lib List Saturating Table
open Option (bind_some)

def threadPin (s : ReplayStore) (threadId : String) : ThreadPin :=
  (s.pins.get? threadId).getD ⟨false, 0⟩

structure ThreadPinSnapshot where
  cursor : Nat
  threadIds : List String
deriving DecidableEq

def pinnedIds (pins : Table String ThreadPin) : List String :=
  (pins.entries.filter (fun e => e.2.pinned)).map Prod.fst

def threadPinSnapshot (s : ReplayStore) : ThreadPinSnapshot := ⟨s.head, pinnedIds s.pins⟩

lemma mem_pinnedIds {pins : Table String ThreadPin} {id : String} :
    id ∈ pinnedIds pins ↔ (pins.get? id).any ThreadPin.pinned = true := by
  unfold pinnedIds
  rw [mem_map]
  constructor
  · rintro ⟨⟨k, pin⟩, hmem, rfl⟩
    obtain ⟨hentry, hpinned⟩ := mem_filter.mp hmem
    rw [mem_entries_iff.mp hentry]
    exact hpinned
  intro hany
  cases hget : pins.get? id with
  | none =>
    rw [hget] at hany
    cases hany
  | some pin =>
    rw [hget] at hany
    exact ⟨(id, pin), mem_filter.mpr ⟨mem_entries_iff.mpr hget, hany⟩, rfl⟩

lemma pinnedIds_congr {pins view : Table String ThreadPin}
    (h : ∀ id, (pins.get? id).any ThreadPin.pinned = (view.get? id).any ThreadPin.pinned) :
    pinnedIds pins = pinnedIds view := by
  have hsort : ∀ t : Table String ThreadPin, (pinnedIds t).Pairwise (· < ·) := fun t =>
    pairwise_map.mpr (t.sorted.sublist filter_sublist)
  refine (hsort pins).eq_of_mem_iff (hsort view) (fun id => ?_)
  rw [mem_pinnedIds, mem_pinnedIds, h id]

def updatedPin (payload : Json) : Option (String × ThreadPin) :=
  if (payload.get? "method").bind Json.asStr? = some "companion/thread/pin/updated" then
    (payload.get? "params").bind (fun params =>
      ((params.get? "threadId").bind Json.asStr?).bind (fun threadId =>
        ((params.get? "pinned").bind Json.asBool?).bind (fun pinned =>
          ((params.get? "pinCursor").bind Json.asU64?).map (fun cursor =>
            (threadId, ⟨pinned, cursor⟩)))))
  else none

/-- The decision of a journaled entry: a deletion unpins under the cursor of the entry. -/
def pinEvent (codec : Codec) (entry : Nat × Payload) : Option (String × ThreadPin) :=
  (codec.parse entry.2).bind (fun payload =>
    ((deletedThreadId payload).map (fun threadId => (threadId, ⟨false, entry.1⟩))).or
      (updatedPin payload))

def pinEvents (codec : Codec) (log : List Payload) : List (String × ThreadPin) :=
  (numbered 0 log).filterMap (pinEvent codec)

lemma pinEvents_append (codec : Codec) (log : List Payload) (payload : Payload) :
    pinEvents codec (log ++ [payload]) =
      pinEvents codec log ++ (pinEvent codec (log.length + 1, payload)).toList := by
  unfold pinEvents
  rw [numbered_append, filterMap_append, Nat.zero_add]
  cases hevent : pinEvent codec (log.length + 1, payload) <;> simp [numbered, hevent]

lemma mem_pinEvents_append {codec : Codec} {log more : List Payload} {e : String × ThreadPin}
    (h : e ∈ pinEvents codec log) : e ∈ pinEvents codec (log ++ more) := by
  unfold pinEvents at h ⊢
  rw [numbered_append, filterMap_append]
  exact mem_append_left _ h

def Codec.ReadsBack (codec : Codec) (value : Json) : Prop :=
  codec.parse (codec.write value) = some value

instance (codec : Codec) (value : Json) : Decidable (codec.ReadsBack value) :=
  inferInstanceAs (Decidable (_ = _))

variable (request : ThreadPinRequest)

variable (cursor : Nat)

lemma method_notification : ((request.notification cursor).get? "method").bind Json.asStr? =
      some "companion/thread/pin/updated" := rfl

def ThreadPinRequest.params (request : ThreadPinRequest) (cursor : Nat) : Json :=
  .obj [("pinCursor", .int cursor), ("pinned", .bool request.pinned),
    ("threadId", .str request.threadId)]

lemma params_notification :
    (request.notification cursor).get? "params" = some (request.params cursor) := rfl

lemma threadId_params :
    (request.params cursor).get? "threadId" = some (.str request.threadId) := rfl

lemma pinned_params : (request.params cursor).get? "pinned" = some (.bool request.pinned) := rfl

lemma pinCursor_params {cursor : Nat} (hcurs : cursor ≤ max64) :
    ((request.params cursor).get? "pinCursor").bind Json.asU64? = some cursor := by
  have hfield : (request.params cursor).get? "pinCursor" = some (.int cursor) := rfl
  have hlt : cursor < 18446744073709551616 := by
    unfold max64 at hcurs
    omega
  rw [hfield, bind_some, Json.asU64?_natCast hlt]

lemma updatedPin_notification {cursor : Nat}
    (hcurs : cursor ≤ max64) : updatedPin (request.notification cursor) =
      some (request.threadId, ⟨request.pinned, cursor⟩) := by
  unfold updatedPin
  rw [if_pos (method_notification request cursor), params_notification, bind_some,
    threadId_params, pinned_params, pinCursor_params request hcurs]
  rfl

lemma pinEvent_notification {codec : Codec} {cursor : Nat}
    (hcurs : cursor ≤ max64) (hread : codec.ReadsBack (request.notification cursor))
    (k : Nat) : pinEvent codec (k, codec.write (request.notification cursor)) =
      some (request.threadId, ⟨request.pinned, cursor⟩) := by
  have hparse : codec.parse (codec.write (request.notification cursor)) =
      some (request.notification cursor) := hread
  have hnot : deletedThreadId (request.notification cursor) = none := by
    unfold deletedThreadId
    rw [method_notification, if_neg (by simp)]
  unfold pinEvent
  rw [hparse, bind_some, hnot, updatedPin_notification request hcurs, Option.map_none,
    Option.none_or]

/-- The event of a journal that carries a decision is the entry under its cursor. -/
def Carried (codec : Codec) (log : List Payload) (threadId : String) (pin : ThreadPin) : Prop :=
  1 ≤ pin.cursor ∧ ∃ payload, log[pin.cursor - 1]? = some payload ∧
    pinEvent codec (pin.cursor, payload) = some (threadId, pin)

structure Decided (codec : Codec) (log : List Payload) (pins : Table String ThreadPin) : Prop where
  carried : ∀ id pin, (id, pin) ∈ pinEvents codec log → Carried codec log id pin
  latest : ∀ id, IsLatest ThreadPin.cursor {pin | (id, pin) ∈ pinEvents codec log} (pins.get? id)

namespace Decided

variable {codec : Codec} {log : List Payload} {pins : Table String ThreadPin}

lemma empty : Decided codec [] ∅ :=
  ⟨fun _ _ h => (nomatch h), fun _ => Set.eq_empty_of_forall_notMem (fun _ h => (nomatch h))⟩

variable {id : String} {pin : ThreadPin}

lemma cursor_le (h : Carried codec log id pin) : pin.cursor ≤ log.length := by
  obtain ⟨hpos, payload, hget, -⟩ := h
  have hlt := (List.getElem?_eq_some_iff.mp hget).1
  omega

lemma eq_of_cursor {pin pin' : ThreadPin} (h : Carried codec log id pin)
    (h' : Carried codec log id pin') (hcurs : pin.cursor = pin'.cursor) : pin = pin' := by
  obtain ⟨-, payload, hget, hevent⟩ := h
  obtain ⟨-, payload', hget', hevent'⟩ := h'
  rw [hcurs, hget'] at hget
  obtain rfl := Option.some.inj hget
  rw [hcurs, hevent'] at hevent
  exact (Prod.mk.inj (Option.some.inj hevent)).2.symm

lemma carried_append (h : Carried codec log id pin)
    (more : List Payload) : Carried codec (log ++ more) id pin := by
  obtain ⟨hpos, payload, hget, hevent⟩ := h
  refine ⟨hpos, payload, ?_, hevent⟩
  rw [getElem?_append_left (List.getElem?_eq_some_iff.mp hget).1]
  exact hget

lemma skip (h : Decided codec log pins) {payload : Payload}
    (hevent : pinEvent codec (log.length + 1, payload) = none) :
    Decided codec (log ++ [payload]) pins := by
  have hsame : pinEvents codec (log ++ [payload]) = pinEvents codec log := by
    rw [pinEvents_append, hevent]
    exact append_nil _
  constructor
  · intro id pin hmem
    rw [hsame] at hmem
    exact carried_append (h.carried id pin hmem) [payload]
  · rw [hsame]
    exact h.latest

lemma push (h : Decided codec log pins) {payload : Payload}
    (hevent : pinEvent codec (log.length + 1, payload) = some (id, pin))
    (hcurs : pin.cursor = log.length + 1) :
    Decided codec (log ++ [payload]) (pins.insert id pin) := by
  have hmem : ∀ e, e ∈ pinEvents codec (log ++ [payload]) ↔
      e ∈ pinEvents codec log ∨ e = (id, pin) := by
    intro e
    rw [pinEvents_append, hevent]
    simp
  constructor
  · intro id' pin' he
    rcases (hmem _).mp he with he | he
    · exact carried_append (h.carried id' pin' he) [payload]
    · obtain ⟨rfl, rfl⟩ := Prod.mk.inj he
      refine ⟨by omega, payload, ?_, by rw [hcurs]; exact hevent⟩
      rw [hcurs, Nat.add_sub_cancel, getElem?_concat_length]
  intro id'
  by_cases hid : id' = id
  · subst hid
    have hset : {p | (id', p) ∈ pinEvents codec (log ++ [payload])} =
        insert pin {p | (id', p) ∈ pinEvents codec log} := by
      ext p
      simp only [Set.mem_ofPred_eq, hmem, Prod.mk.injEq, true_and, Set.mem_insert_iff]
      exact or_comm
    rw [hset, get?_insert_self]
    refine IsLatest.push (fun w hw => ?_)
    have hle := cursor_le (h.carried id' w hw)
    omega
  have hset : {p | (id', p) ∈ pinEvents codec (log ++ [payload])} =
      {p | (id', p) ∈ pinEvents codec log} := by
    ext p
    simp [hmem, hid]
  rw [hset, get?_insert_of_ne pins pin hid]
  exact h.latest id'

end Decided

section Transactions

variable {s : ReplayStore} {payloads : List Payload} {limits : ReplayLimits}

lemma pins_pruneReplay {fuel : Nat} : (pruneReplay limits fuel s).pins = s.pins := by
  induction fuel generalizing s with
  | zero => rfl
  | succ fuel ih =>
  unfold pruneReplay
  split
  · split
    · rfl
    · exact ih
  · rfl

lemma pins_foldl_pushEntry {cursors : List Nat} :
    (payloads.foldl pushEntry (s, cursors)).1.pins = s.pins := by
  induction payloads generalizing s cursors with
  | nil => rfl
  | cons payload rest ih => exact ih

lemma pins_appendReplayTransaction : (appendReplayTransaction s payloads limits).1.pins = s.pins :=
  pins_pruneReplay.trans pins_foldl_pushEntry

variable (codec : Codec)

lemma pins_appendReplayBatch : (appendReplayBatch codec s payloads limits).1.pins =
      (payloads.zip (appendReplayTransaction s payloads limits).2).foldl (retirePin codec)
        s.pins := by
  cases payloads with
  | nil => rfl
  | cons payload rest =>
  change foldl _ (appendReplayTransaction s (payload :: rest) limits).1.pins _ = _
  rw [pins_appendReplayTransaction]
  rfl

lemma pins_commitThreadPin (request : ThreadPinRequest) :
    (commitThreadPin codec s request limits).1.pins =
      s.pins.insert request.threadId ⟨request.pinned, add64 s.head 1⟩ := by
  change (appendReplayTransaction s [codec.write (request.notification _)] limits).1.pins.insert _ _
    = _
  rw [pins_appendReplayTransaction]

lemma pins_importThreadPins (threadIds : List String) :
    (importThreadPins codec s threadIds limits).1.pins = (importedPins codec s threadIds).1 :=
  pins_appendReplayTransaction

lemma cursors_foldl_pushEntry {cursors : List Nat} (hfits : s.head + payloads.length ≤ max64) :
    (payloads.foldl pushEntry (s, cursors)).2 =
      cursors ++ (numbered s.head payloads).map Prod.fst := by
  induction payloads generalizing s cursors with
  | nil => exact (append_nil cursors).symm
  | cons payload rest ih =>
  rw [length_cons] at hfits
  have hadd : add64 s.head 1 = s.head + 1 := add64_of_le (by omega)
  have hhead : (pushEntry (s, cursors) payload).1.head = s.head + 1 := hadd
  have hcursors : (pushEntry (s, cursors) payload).2 = cursors ++ [s.head + 1] :=
    congrArg (fun c => cursors ++ [c]) hadd
  rw [foldl_cons]
  rw [← @Prod.mk.eta _ _ (pushEntry (s, cursors) payload), ih (by rw [hhead]; omega), hhead,
    hcursors, append_assoc]
  rfl

lemma zip_map_fst_numbered (n : Nat) :
    payloads.zip ((numbered n payloads).map Prod.fst) = (numbered n payloads).map Prod.swap := by
  induction payloads generalizing n with
  | nil => rfl
  | cons payload rest ih => exact congrArg ((payload, n + 1) :: ·) (ih (n + 1))

end Transactions

/-- The appended payload announces no pin change: only the two pin writers do. -/
def PinFree (codec : Codec) (payload : Payload) : Prop :=
  (codec.parse payload).bind updatedPin = none

instance (codec : Codec) (payload : Payload) : Decidable (PinFree codec payload) :=
  inferInstanceAs (Decidable (_ = _))

namespace Decided

variable {codec : Codec} {log : List Payload} {pins : Table String ThreadPin}

lemma retirePin (h : Decided codec log pins) {payload : Payload} (hfree : PinFree codec payload) :
    Decided codec (log ++ [payload]) (Store.retirePin codec pins (payload, log.length + 1)) := by
  unfold PinFree at hfree
  unfold Store.retirePin
  cases hparse : codec.parse payload with
  | none =>
    refine h.skip ?_
    unfold pinEvent
    rw [hparse]
    rfl
  | some value =>
  rw [hparse, bind_some] at hfree
  rw [bind_some]
  cases hdel : deletedThreadId value with
  | none =>
    refine h.skip ?_
    unfold pinEvent
    rw [hparse, bind_some, hdel, hfree]
    rfl
  | some id =>
  refine h.push ?_ rfl
  unfold pinEvent
  rw [hparse, bind_some, hdel]
  rfl

lemma retirePins {payloads : List Payload} (h : Decided codec log pins)
    (hfree : ∀ payload ∈ payloads, PinFree codec payload) :
    Decided codec (log ++ payloads)
      (((numbered log.length payloads).map Prod.swap).foldl (Store.retirePin codec) pins) := by
  induction payloads generalizing log pins with
  | nil =>
    rw [append_nil]
    exact h
  | cons payload rest ih =>
  have hnext := h.retirePin (hfree payload mem_cons_self)
  have hrest := ih hnext (fun p hp => hfree p (mem_cons_of_mem _ hp))
  rw [length_append, append_assoc] at hrest
  exact hrest

lemma commit (h : Decided codec log pins) (request : ThreadPinRequest)
    (hfits : log.length + 1 ≤ max64)
    (hread : codec.ReadsBack (request.notification (log.length + 1))) :
    Decided codec (log ++ [codec.write (request.notification (log.length + 1))])
      (pins.insert request.threadId ⟨request.pinned, log.length + 1⟩) :=
  h.push (pinEvent_notification request hfits hread _) rfl

end Decided

/-- The notifications of an import are read back, whichever ids turn out to be new. -/
def ImportReadsBack (codec : Codec) (head : Nat) (threadIds : List String) : Prop :=
  ∀ id ∈ threadIds, ∀ i < threadIds.length,
    codec.ReadsBack ((⟨id, true⟩ : ThreadPinRequest).notification (head + i + 1))

instance (codec : Codec) (head : Nat) (threadIds : List String) :
    Decidable (ImportReadsBack codec head threadIds) :=
  inferInstanceAs (Decidable (∀ id ∈ threadIds, ∀ i < threadIds.length, _))

section Imports

variable {codec : Codec} {acc : Table String ThreadPin × Nat × List Payload}

variable {id : String}

lemma importPin_of_contains (h : acc.1.contains id = true) : importPin codec acc id = acc := by
  unfold importPin
  exact if_pos h

lemma importPin_of_new (h : acc.1.contains id = false) : importPin codec acc id =
      (acc.1.insert id ⟨true, add64 acc.2.1 1⟩, add64 acc.2.1 1,
        acc.2.2 ++ [codec.write ((⟨id, true⟩ : ThreadPinRequest).notification
          (add64 acc.2.1 1))]) := by
  unfold importPin
  exact if_neg (by simp [h])

lemma get?_importPin {pin : ThreadPin} (threadId : String)
    (h : acc.1.get? id = some pin) : (importPin codec acc threadId).1.get? id = some pin := by
  cases hnew : acc.1.contains threadId with
  | true => rwa [importPin_of_contains hnew]
  | false =>
  have hne : id ≠ threadId := by
    rintro rfl
    rw [Table.contains, h] at hnew
    cases hnew
  rw [importPin_of_new hnew, get?_insert_of_ne _ _ hne]
  exact h

lemma get?_foldl_importPin {threadIds : List String} {id : String} {pin : ThreadPin}
    (h : acc.1.get? id = some pin) :
    (threadIds.foldl (importPin codec) acc).1.get? id = some pin := by
  induction threadIds generalizing acc with
  | nil => exact h
  | cons threadId rest ih => exact ih (get?_importPin threadId h)

lemma contains_importPin (acc : Table String ThreadPin × Nat × List Payload) (id : String) :
    ∃ pin, (importPin codec acc id).1.get? id = some pin := by
  cases hnew : acc.1.contains id with
  | true =>
    rw [importPin_of_contains hnew]
    exact contains_iff.mp hnew
  | false =>
    rw [importPin_of_new hnew]
    exact ⟨_, get?_insert_self _ _ _⟩

lemma contains_foldl_importPin {threadIds : List String} (h : id ∈ threadIds) :
    ∃ pin, (threadIds.foldl (importPin codec) acc).1.get? id = some pin := by
  induction threadIds generalizing acc with
  | nil => cases h
  | cons threadId rest ih =>
  rcases mem_cons.mp h with rfl | h
  · obtain ⟨pin, hpin⟩ := @contains_importPin codec acc id
    exact ⟨pin, @get?_foldl_importPin codec (importPin codec acc id) rest id pin hpin⟩
  · exact ih h

lemma foldl_importPin_of_contains {threadIds : List String}
    (h : ∀ id ∈ threadIds, acc.1.contains id = true) :
    threadIds.foldl (importPin codec) acc = acc := by
  induction threadIds with
  | nil => rfl
  | cons threadId rest ih =>
    rw [foldl_cons, importPin_of_contains (h threadId mem_cons_self)]
    exact ih (fun id hid => h id (mem_cons_of_mem _ hid))

lemma length_le_importPin (acc : Table String ThreadPin × Nat × List Payload) (id : String) :
    acc.2.2.length ≤ (importPin codec acc id).2.2.length := by
  cases hnew : acc.1.contains id with
  | true => rw [importPin_of_contains hnew]
  | false =>
    rw [importPin_of_new hnew]
    simp

lemma length_le_foldl_importPin (threadIds : List String) :
    acc.2.2.length ≤ (threadIds.foldl (importPin codec) acc).2.2.length := by
  induction threadIds generalizing acc with
  | nil => exact le_rfl
  | cons id rest ih => exact le_trans (length_le_importPin acc id) ih

lemma Decided.importPins {log : List Payload} {threadIds : List String}
    (h : Decided codec (log ++ acc.2.2) acc.1) (hcurs : acc.2.1 = (log ++ acc.2.2).length)
    (hfits : log.length + (threadIds.foldl (importPin codec) acc).2.2.length ≤ max64)
    (hread : ImportReadsBack codec acc.2.1 threadIds) :
    Decided codec (log ++ (threadIds.foldl (importPin codec) acc).2.2)
      (threadIds.foldl (importPin codec) acc).1 := by
  induction threadIds generalizing acc with
  | nil => exact h
  | cons id rest ih =>
  cases hnew : acc.1.contains id with
  | true =>
    rw [foldl_cons, importPin_of_contains hnew] at hfits ⊢
    refine ih h hcurs hfits (fun id' hid i hi => ?_)
    exact hread id' (mem_cons_of_mem _ hid) i (Nat.lt_succ_of_lt hi)
  | false =>
  have hgrows := @length_le_foldl_importPin codec (importPin codec acc id) rest
  rw [foldl_cons] at hfits ⊢
  rw [importPin_of_new hnew] at hfits hgrows ⊢
  simp only [length_append, length_singleton] at hgrows
  rw [length_append] at hcurs
  have hadd : add64 acc.2.1 1 = (log ++ acc.2.2).length + 1 := by
    rw [add64_of_le (by omega), hcurs, length_append]
  have hsto := h.commit ⟨id, true⟩ (by rw [length_append]; omega) (by
    have hfirst := hread id mem_cons_self 0 (Nat.succ_pos _)
    rwa [Nat.add_zero, hcurs, ← length_append] at hfirst)
  rw [← hadd, append_assoc] at hsto
  refine ih hsto ?_ hfits (fun id' hid i hi => ?_)
  · rw [hadd]
    simp only [length_append, length_singleton]
    omega
  have hnext := hread id' (mem_cons_of_mem _ hid) (i + 1) (Nat.succ_lt_succ hi)
  rw [hcurs] at hnext
  rw [hadd, length_append]
  rwa [show log.length + acc.2.2.length + (i + 1) + 1 =
    log.length + acc.2.2.length + 1 + i + 1 by omega] at hnext

end Imports

/-- Pin changes are announced by the pin writers only, and the JSON library reads their
notifications back. -/
def PinsReadable (codec : Codec) (j : Journal) : ReplayOp → Prop
  | .append payloads _ => ∀ payload ∈ payloads, PinFree codec payload
  | .commitPin request _ => codec.ReadsBack (request.notification (j.store.head + 1))
  | .importPins threadIds _ => ImportReadsBack codec j.store.head threadIds

instance (codec : Codec) (j : Journal) : (op : ReplayOp) → Decidable (PinsReadable codec j op)
  | .append payloads _ => inferInstanceAs (Decidable (∀ payload ∈ payloads, PinFree codec payload))
  | .commitPin request _ =>
    inferInstanceAs (Decidable (codec.ReadsBack (request.notification (j.store.head + 1))))
  | .importPins threadIds _ =>
    inferInstanceAs (Decidable (ImportReadsBack codec j.store.head threadIds))

lemma Decided.step {codec : Codec} {j : Journal} {op : ReplayOp}
    (h : Decided codec j.log j.store.pins) (hhead : j.store.head = j.log.length)
    (hfits : HeadFits codec j op) (hread : PinsReadable codec j op) :
    Decided codec (j.step codec op).log (j.step codec op).store.pins := by
  unfold HeadFits at hfits
  cases op with
  | append payloads limits =>
    change j.store.head + payloads.length < _ at hfits
    change Decided codec (j.log ++ payloads) (appendReplayBatch codec j.store payloads limits).1.pins
    have hcursors : (appendReplayTransaction j.store payloads limits).2 = _ :=
      @cursors_foldl_pushEntry j.store payloads [] (le_of_lt hfits)
    rw [pins_appendReplayBatch, hcursors, nil_append, zip_map_fst_numbered, hhead]
    exact h.retirePins hread
  | commitPin request limits =>
    change j.store.head + 1 < _ at hfits
    have hadd : add64 j.store.head 1 = j.log.length + 1 := by
      rw [add64_of_le (le_of_lt hfits), hhead]
    change codec.ReadsBack (request.notification (j.store.head + 1)) at hread
    rw [hhead] at hread hfits
    change Decided codec (j.log ++ [codec.write (request.notification (add64 j.store.head 1))])
      (commitThreadPin codec j.store request limits).1.pins
    rw [pins_commitThreadPin, hadd]
    exact h.commit request (le_of_lt hfits) hread
  | importPins threadIds limits =>
  change j.store.head + (importedPins codec j.store threadIds).2.2.length < _ at hfits
  change Decided codec (j.log ++ (importedPins codec j.store threadIds).2.2)
    (importThreadPins codec j.store threadIds limits).1.pins
  rw [pins_importThreadPins]
  refine @Decided.importPins codec (j.store.pins, j.store.head, []) j.log threadIds ?_ ?_ ?_ hread
  · simpa using h
  · simpa using hhead
  · rw [← hhead]
    exact le_of_lt hfits

variable {codec : Codec} {s : ReplayStore} {limits : ReplayLimits}

lemma pruneReplay_settles {fuel : Nat} (hfuel : s.replay.size ≤ fuel) :
    ((pruneReplay limits fuel s).replay.size ≤ limits.maxEntries ∧
        (pruneReplay limits fuel s).bytes ≤ limits.maxBytes) ∨
      (pruneReplay limits fuel s).replay.first? = none := by
  induction fuel generalizing s with
  | zero =>
    right
    have hnil : s.replay.entries = [] := length_eq_zero_iff.mp (Nat.le_zero.mp hfuel)
    change s.replay.entries.head? = none
    rw [hnil]
    rfl
  | succ fuel ih =>
  unfold pruneReplay
  split
  · split
    · rename_i hfirst
      exact .inr hfirst
    rename_i cursor payload hfirst
    refine ih ?_
    have hsize := size_erase_of_some (first?_eq_some hfirst)
    change (s.replay.erase cursor).size ≤ fuel
    omega
  · rename_i hfine
    push Not at hfine
    exact .inl hfine

lemma pruneReplay_pruneReplay {fuel fuel' : Nat} (hfuel : s.replay.size ≤ fuel) :
    pruneReplay limits fuel' (pruneReplay limits fuel s) = pruneReplay limits fuel s := by
  rcases @pruneReplay_settles s limits fuel hfuel with ⟨hent, hbytes⟩ | hfirst
  · exact pruneReplay_of_within hent hbytes
  generalize pruneReplay limits fuel s = t at hfirst
  cases fuel' with
  | zero => rfl
  | succ fuel' =>
  unfold pruneReplay
  split
  · rw [hfirst]
  · rfl

variable {threadIds : List String}

lemma importThreadPins_of_contains (h : ∀ id ∈ threadIds, s.pins.contains id = true) :
    importThreadPins codec s threadIds limits = (pruneReplay limits s.replay.size s, s.head) := by
  have hsame : importedPins codec s threadIds = (s.pins, s.head, []) :=
    @foldl_importPin_of_contains codec (s.pins, s.head, []) threadIds h
  unfold importThreadPins
  rw [hsame]
  rfl

variable {id : String}

lemma contains_importThreadPins (h : id ∈ threadIds) :
    (importThreadPins codec s threadIds limits).1.pins.contains id = true := by
  rw [pins_importThreadPins]
  exact contains_iff.mpr (contains_foldl_importPin h)

lemma importThreadPins_twice (threadIds : List String) :
    (importThreadPins codec (importThreadPins codec s threadIds limits).1 threadIds limits).1 =
      (importThreadPins codec s threadIds limits).1 := by
  rw [importThreadPins_of_contains (fun id hid => contains_importThreadPins hid)]
  change pruneReplay limits _ (pruneReplay limits _ _) = pruneReplay limits _ _
  exact pruneReplay_pruneReplay le_rfl

lemma contains_retirePins {entries : List (Payload × Nat)} {pins : Table String ThreadPin}
    (h : pins.contains id = true) : (entries.foldl (retirePin codec) pins).contains id = true := by
  induction entries generalizing pins with
  | nil => exact h
  | cons entry rest ih =>
  refine ih ?_
  unfold retirePin
  split
  · rename_i threadId _
    rw [Table.contains, get?_insert]
    split
    · rfl
    · exact h
  · exact h

lemma contains_step {j : Journal} {op : ReplayOp}
    (h : j.store.pins.contains id = true) : (j.step codec op).store.pins.contains id = true := by
  cases op with
  | append payloads limits =>
    change (appendReplayBatch codec j.store payloads limits).1.pins.contains id = true
    rw [pins_appendReplayBatch]
    exact contains_retirePins h
  | commitPin request limits =>
    change (commitThreadPin codec j.store request limits).1.pins.contains id = true
    rw [pins_commitThreadPin, Table.contains, get?_insert]
    split
    · rfl
    · exact h
  | importPins threadIds limits =>
  change (importThreadPins codec j.store threadIds limits).1.pins.contains id = true
  obtain ⟨pin, hpin⟩ := contains_iff.mp h
  rw [pins_importThreadPins]
  exact contains_iff.mpr
    ⟨pin, @get?_foldl_importPin codec (j.store.pins, j.store.head, []) threadIds id pin hpin⟩

lemma step_import_again {j : Journal} {threadIds : List String}
    (h : ∀ id ∈ threadIds, j.store.pins.contains id = true) :
    (j.step codec (.importPins threadIds limits)).store.pins = j.store.pins ∧
      (j.step codec (.importPins threadIds limits)).store.head = j.store.head ∧
      (j.step codec (.importPins threadIds limits)).log = j.log := by
  have hstore : (j.step codec (.importPins threadIds limits)).store =
      pruneReplay limits j.store.replay.size j.store :=
    congrArg Prod.fst (importThreadPins_of_contains h)
  have hsame : importedPins codec j.store threadIds = (j.store.pins, j.store.head, []) :=
    @foldl_importPin_of_contains codec (j.store.pins, j.store.head, []) threadIds h
  refine ⟨?_, ?_, ?_⟩
  · rw [hstore, pins_pruneReplay]
  · rw [hstore, head_pruneReplay]
  · change j.log ++ (importedPins codec j.store threadIds).2.2 = j.log
    rw [hsame, append_nil]

end CodeWide.Store
