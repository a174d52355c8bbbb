import CodeWide.Store.Pins
import CodeWide.ThreadList.Rows

/-!
# Pin decisions converge

A pin decision is carried by the durable table, by the journaled events and by the rows of the
thread list (`apply_pin`).
-/

namespace CodeWide.ThreadList

open Lib Store List Saturating

def rowPin (row : Json) : Option ThreadPin :=
  (currentPin row).map (fun pin => ⟨pin.1, pin.2⟩)

def applyPinEvent (threadId : String) (row : Json) (event : String × ThreadPin) : Json :=
  if event.1 = threadId then (applyPin row event.2.pinned event.2.cursor).1 else row

lemma currentPin_insert {row metadata : Json} (hrow : row.isObj = true)
    (hmeta : metadata.isObj = true) (pinned : Bool) {cursor : Nat}
    (hcurs : cursor ≤ max64) :
    currentPin (row.insert "codewide" (metadata.insert "threadPin" (.obj [
      ("cursor", .int cursor), ("pinned", .bool pinned), ("version", .int 1)]))) =
        some (pinned, cursor) := by
  have hlt : cursor < 18446744073709551616 := by
    unfold max64 at hcurs
    omega
  have hget : (row.insert "codewide" (metadata.insert "threadPin" (.obj [
      ("cursor", .int cursor), ("pinned", .bool pinned), ("version", .int 1)]))).getPath?
        ["codewide", "threadPin"] = some (.obj [
      ("cursor", .int cursor), ("pinned", .bool pinned), ("version", .int 1)]) := by
    simp [Json.getPath?, Json.get?_insert hrow, Json.get?_insert hmeta]
  have hpinned : (Json.obj [("cursor", .int cursor), ("pinned", .bool pinned),
      ("version", .int 1)]).get? "pinned" = some (.bool pinned) := rfl
  have hfield : (Json.obj [("cursor", .int cursor), ("pinned", .bool pinned),
      ("version", .int 1)]).get? "cursor" = some (.int cursor) := rfl
  unfold currentPin
  rw [hget, Option.bind_some, hpinned, hfield, Option.bind_some, Option.bind_some,
    Json.asU64?_natCast hlt]
  rfl

variable {row : Json}

lemma isObj_of_currentPin {pin : Bool × Nat} (h : currentPin row = some pin) :
    row.isObj = true ∧ ((row.get? "codewide").getD (.obj [])).isObj = true := by
  obtain ⟨value, hpath, -⟩ := Option.bind_eq_some_iff.mp h
  obtain ⟨metadata, hmeta, hrest⟩ := Option.bind_eq_some_iff.mp hpath
  obtain ⟨_, hpin, -⟩ := Option.bind_eq_some_iff.mp hrest
  refine ⟨Json.isObj_of_get? hmeta, ?_⟩
  rw [hmeta]
  exact Json.isObj_of_get? hpin

lemma kept_applyPin {pin : ThreadPin} (hrow : (rowPin row).isSome) (hcurs : pin.cursor ≤ max64) :
    Kept ThreadPin.cursor (rowPin row) pin (rowPin (applyPin row pin.pinned pin.cursor).1) := by
  unfold rowPin at hrow ⊢
  cases hcur : currentPin row with
  | none =>
    rw [hcur] at hrow
    cases hrow
  | some current =>
  obtain ⟨hobj, hmeta⟩ := isObj_of_currentPin hcur
  by_cases hnewer : current.2 > pin.cursor ∨ current.2 = pin.cursor ∧ current.1 = pin.pinned
  · have hkeep : applyPin row pin.pinned pin.cursor = (row, false) := by
      unfold applyPin
      rw [if_pos (by simpa [hcur] using hnewer)]
    rw [hkeep, hcur]
    refine .inl ⟨rfl, ⟨current.1, current.2⟩, rfl, ?_⟩
    rcases hnewer with hlt | ⟨heq, -⟩
    · exact le_of_lt hlt
    · exact le_of_eq heq.symm
  have hwrite : (applyPin row pin.pinned pin.cursor).1 =
      row.insert "codewide" (((row.get? "codewide").getD (.obj [])).insert "threadPin" (.obj [
        ("cursor", .int pin.cursor), ("pinned", .bool pin.pinned), ("version", .int 1)])) := by
    unfold applyPin
    rw [if_neg (by simpa [hcur] using hnewer)]
    simp [hobj, hmeta]
  rw [hwrite, currentPin_insert hobj hmeta pin.pinned hcurs]
  refine .inr ⟨rfl, fun w hw => ?_⟩
  rw [← Option.some.inj hw]
  push Not at hnewer
  exact hnewer.1

lemma isLatest_applyPinEvents {row : Json} {threadId : String}
    {events : List (String × ThreadPin)} (hrow : (rowPin row).isSome)
    (hcurs : ∀ e ∈ events, e.2.cursor ≤ max64) :
    IsLatest ThreadPin.cursor (held (rowPin row) ∪ {pin | (threadId, pin) ∈ events})
      (rowPin (events.foldl (applyPinEvent threadId) row)) := by
  have hkept : ∀ row, (rowPin row).isSome → ∀ e ∈ events, e.1 = threadId →
      Kept ThreadPin.cursor (rowPin row) e.2 (rowPin (applyPinEvent threadId row e)) := by
    intro row hrow e he hid
    rw [applyPinEvent, if_pos hid]
    exact kept_applyPin hrow (hcurs e he)
  have hrun := @isLatest_exec ThreadPin ThreadPin.cursor Json (String × ThreadPin)
    (applyPinEvent threadId) rowPin (fun e => if e.1 = threadId then some e.2 else none)
    (fun row => (rowPin row).isSome) events row hrow (fun row hrow e he => ?_)
    (fun row _ e _ hnone => ?_) (fun row hrow e he pin hsome => ?_)
  · have hsame : {pin | ∃ e ∈ events, (if e.1 = threadId then some e.2 else none) = some pin} =
        {pin | (threadId, pin) ∈ events} := by
      ext pin
      constructor
      · rintro ⟨⟨id, pin'⟩, hmem, hval⟩
        obtain ⟨rfl, hpin⟩ := Option.ite_none_right_eq_some.mp hval
        rw [← Option.some.inj hpin]
        exact hmem
      · exact fun hmem => ⟨(threadId, pin), hmem, if_pos rfl⟩
    rw [hsame] at hrun
    exact hrun
  · by_cases hid : e.1 = threadId
    · rcases hkept row hrow e he hid with ⟨hsame, -⟩ | ⟨hnew, -⟩
      · rw [hsame]
        exact hrow
      · rw [hnew]
        rfl
    · rw [applyPinEvent, if_neg hid]
      exact hrow
  · have hid : e.1 ≠ threadId := fun hid => by rw [if_pos hid] at hnone; cases hnone
    rw [applyPinEvent, if_neg hid]
  · obtain ⟨hid, hpin⟩ := Option.ite_none_right_eq_some.mp hsome
    rw [← Option.some.inj hpin]
    exact hkept row hrow e he hid

def snapshotView (snapshot : ThreadPinSnapshot) : Table String ThreadPin :=
  snapshot.threadIds.foldl (fun view id => view.insert id ⟨true, snapshot.cursor⟩) ∅

lemma get?_foldl_insert {threadIds : List String} {pin : ThreadPin}
    {view : Table String ThreadPin} (id : String) :
    (threadIds.foldl (fun view id => view.insert id pin) view).get? id =
      if id ∈ threadIds then some pin else view.get? id := by
  induction threadIds generalizing view with
  | nil => simp
  | cons threadId rest ih =>
  rw [foldl_cons, ih, Table.get?_insert]
  by_cases hrest : id ∈ rest
  · rw [if_pos hrest, if_pos (mem_cons_of_mem _ hrest)]
  · rw [if_neg hrest]
    simp [mem_cons, hrest]

lemma get?_snapshotView (snapshot : ThreadPinSnapshot) (id : String) :
    (snapshotView snapshot).get? id =
      if id ∈ snapshot.threadIds then some ⟨true, snapshot.cursor⟩ else none :=
  get?_foldl_insert id

lemma pinned_snapshotView (s : ReplayStore) (id : String) :
    ((snapshotView (threadPinSnapshot s)).get? id).any ThreadPin.pinned =
      (s.pins.get? id).any ThreadPin.pinned := by
  have hmem : id ∈ (threadPinSnapshot s).threadIds ↔ _ := @mem_pinnedIds s.pins id
  rw [get?_snapshotView]
  cases hpinned : (s.pins.get? id).any ThreadPin.pinned with
  | true => rw [if_pos (hmem.mpr hpinned)]; rfl
  | false => rw [if_neg (by rw [hmem, hpinned]; simp)]; rfl

section Convergence

variable {codec : Codec} {log more : List Payload} {pins pins' : Table String ThreadPin}

lemma mem_pinEvents_iff (h' : Decided codec (log ++ more) pins') {e : String × ThreadPin} :
    e ∈ pinEvents codec (log ++ more) ↔
      e ∈ pinEvents codec log ∨ e ∈ pinEvents codec (log ++ more) ∧ log.length < e.2.cursor := by
  constructor
  · intro hmem
    by_cases hlt : log.length < e.2.cursor
    · exact .inr ⟨hmem, hlt⟩
    obtain ⟨hpos, payload, hget, hevent⟩ := h'.carried e.1 e.2 hmem
    rw [getElem?_append_left (by omega)] at hget
    refine .inl (mem_filterMap.mpr ⟨(e.2.cursor, payload), ?_, hevent⟩)
    exact mem_numbered.mpr ⟨by omega, hget⟩
  · rintro (hmem | ⟨hmem, -⟩)
    · exact mem_pinEvents_append hmem
    · exact hmem

/-- A register that has seen the later events agrees with the later table. -/
lemma agrees_of_seen (h : Decided codec log pins) (h' : Decided codec (log ++ more) pins')
    {id : String} {events : List (String × ThreadPin)}
    (hevs : ∀ e, e ∈ events ↔ e ∈ pinEvents codec (log ++ more) ∧ log.length < e.2.cursor)
    {before after : Option ThreadPin} (hbef : ∀ pin ∈ held before, pin.cursor ≤ log.length)
    (hafter : IsLatest ThreadPin.cursor (held before ∪ {pin | (id, pin) ∈ events}) after) :
    after = pins'.get? id ∨ after = before ∧ pins'.get? id = pins.get? id := by
  have hset : {pin | (id, pin) ∈ pinEvents codec (log ++ more)} =
      {pin | (id, pin) ∈ pinEvents codec log} ∪ {pin | (id, pin) ∈ events} := by
    ext pin
    simp only [Set.mem_ofPred_eq, Set.mem_union, hevs]
    exact mem_pinEvents_iff h'
  have hlater := h'.latest id
  rw [hset] at hlater
  have hnew : ∀ pin ∈ {pin | (id, pin) ∈ events}, log.length < pin.cursor := fun pin hpin =>
    ((hevs (id, pin)).mp hpin).2
  refine hafter.agree (h.latest id) hlater (fun a ha b hb => ?_) (fun a ha b hb => ?_) ?_
  · exact lt_of_le_of_lt (hbef a ha) (hnew b hb)
  · exact lt_of_le_of_lt (Decided.cursor_le (h.carried id a ha)) (hnew b hb)
  · rw [← hset]
    intro a ha b hb
    exact Decided.eq_of_cursor (h'.carried id a ha) (h'.carried id b hb)

end Convergence

/-- The operation stays within the cursors, and its pin events can be read. -/
def PinStep (codec : Codec) (j : Journal) (op : ReplayOp) : Prop :=
  HeadFits codec j op ∧ PinsReadable codec j op

instance (codec : Codec) (j : Journal) (op : ReplayOp) : Decidable (PinStep codec j op) :=
  inferInstanceAs (Decidable (_ ∧ _))

section Runs

variable {codec : Codec} {j : Journal} {ops : List ReplayOp}

def Settled (codec : Codec) (j : Journal) : Prop :=
  j.Numbered ∧ Decided codec j.log j.store.pins

lemma settled_exec (h : Settled codec j) (hrun : Always (Journal.step codec) (PinStep codec) j ops) :
    Settled codec (exec (Journal.step codec) j ops) :=
  exec_invariant_of_always
    (fun _ _ hj hop => ⟨hj.1.step hop.1, hj.2.step hj.1.head hop.1 hop.2⟩) h hrun

lemma log_exec (codec : Codec) (j : Journal) (ops : List ReplayOp) :
    ∃ more, (exec (Journal.step codec) j ops).log = j.log ++ more := by
  refine @exec_invariant _ _ _ (fun s => ∃ more, s.log = j.log ++ more) (fun s op hs => ?_) j
    ⟨[], (append_nil _).symm⟩ ops
  obtain ⟨more, hmore⟩ := hs
  refine ⟨more ++ op.written codec s.store, ?_⟩
  rw [← append_assoc, ← hmore]
  rfl

lemma contains_of_imported {threadIds : List String} {limits : ReplayLimits}
    (h : .importPins threadIds limits ∈ ops) :
    ∀ id ∈ threadIds, (exec (Journal.step codec) j ops).store.pins.contains id = true := by
  intro id hid
  obtain ⟨earlier, later, rfl⟩ := append_of_mem h
  rw [exec_append, exec_cons]
  exact @exec_invariant _ _ _ (fun s : Journal => s.store.pins.contains id = true)
    (fun _ _ hs => contains_step hs) _ (contains_importThreadPins hid) later

lemma step_import_twice (j : Journal) (threadIds : List String) (limits : ReplayLimits) :
    (j.step codec (.importPins threadIds limits)).step codec (.importPins threadIds limits) =
      j.step codec (.importPins threadIds limits) := by
  have hrows : ∀ id ∈ threadIds,
      (j.step codec (.importPins threadIds limits)).store.pins.contains id = true :=
    fun id hid => contains_importThreadPins hid
  obtain ⟨-, -, hlog⟩ := @step_import_again codec limits _ threadIds hrows
  have hstore : ((j.step codec (.importPins threadIds limits)).step codec
      (.importPins threadIds limits)).store = (j.step codec (.importPins threadIds limits)).store :=
    importThreadPins_twice threadIds
  generalize (j.step codec (.importPins threadIds limits)).step codec
    (.importPins threadIds limits) = again at hlog hstore
  cases again
  cases hlog
  cases hstore
  rfl

end Runs

variable {events : List (String × ThreadPin)}

/-- A client that holds the snapshot of a table and sees the later events holds the
snapshot of the later table. -/
lemma pinnedIds_of_seen {codec : Codec} {log more : List Payload} {s s' : ReplayStore}
    (hhead : s.head = log.length) (h : Decided codec log s.pins)
    (h' : Decided codec (log ++ more) s'.pins)
    (hevs : ∀ e, e ∈ events ↔ e ∈ pinEvents codec (log ++ more) ∧ log.length < e.2.cursor) :
    pinnedIds (events.foldl (offer ThreadPin.cursor) (snapshotView (threadPinSnapshot s))) =
      (threadPinSnapshot s').threadIds := by
  refine pinnedIds_congr (fun id => ?_)
  have hbef : ∀ pin ∈ held ((snapshotView (threadPinSnapshot s)).get? id),
      pin.cursor ≤ log.length := by
    intro pin hpin
    obtain ⟨-, heq⟩ := Option.ite_none_right_eq_some.mp ((get?_snapshotView _ id).symm.trans hpin)
    rw [← Option.some.inj heq]
    exact le_of_eq hhead
  have hlat := @isLatest_offers _ _ _ ThreadPin.cursor (snapshotView (threadPinSnapshot s))
    events id
  rcases agrees_of_seen h h' hevs hbef hlat with heq | ⟨heq, hsame⟩
  · rw [heq]
  · rw [heq, hsame, pinned_snapshotView]

/-- A row with the decision of a table that sees the later events has the decision of the
later table. -/
lemma rowPin_of_seen {codec : Codec} {log more : List Payload} {s s' : ReplayStore}
    (hhead : (log ++ more).length ≤ max64) (h : Decided codec log s.pins)
    (h' : Decided codec (log ++ more) s'.pins)
    (hevs : ∀ e, e ∈ events ↔ e ∈ pinEvents codec (log ++ more) ∧ log.length < e.2.cursor)
    {id : String} (hrow : rowPin row = some (threadPin s id)) :
    rowPin (events.foldl (applyPinEvent id) row) = some (threadPin s' id) := by
  have hcurs : ∀ e ∈ events, e.2.cursor ≤ max64 := fun e he =>
    le_trans (Decided.cursor_le (h'.carried e.1 e.2 ((hevs e).mp he).1)) hhead
  have hbef : ∀ pin ∈ held (rowPin row), pin.cursor ≤ log.length := by
    intro pin hpin
    rw [← Option.some.inj (hrow.symm.trans hpin), threadPin]
    cases hget : s.pins.get? id with
    | none => exact Nat.zero_le _
    | some stored =>
    have hlat := h.latest id
    rw [hget] at hlat
    exact Decided.cursor_le (h.carried id stored hlat.1)
  have hlat := @isLatest_applyPinEvents row id events (by rw [hrow]; rfl) hcurs
  rcases agrees_of_seen h h' hevs hbef hlat with heq | ⟨heq, hsame⟩
  · rw [heq, threadPin]
    cases hget : s'.pins.get? id with
    | none =>
      -- The register held a pin from the start, so it is not empty now.
      rw [heq, hget] at hlat
      have hmem : threadPin s id ∈ held (rowPin row) ∪ {pin | (id, pin) ∈ events} := .inl hrow
      exact absurd hmem (hlat ▸ Set.notMem_empty _)
    | some pin => rfl
  · rw [heq, hrow, threadPin, threadPin, hsame]

/-- Every row is carried by its event, and a snapshot ends at the later decisions. -/
theorem pins_converge (codec : Codec) (before after : List ReplayOp)
    (hrun : Always (Journal.step codec) (PinStep codec) Journal.empty (before ++ after)) :
    let j := exec (Journal.step codec) Journal.empty before
    let j' := exec (Journal.step codec) j after
    (∀ id pin, j.store.pins.get? id = some pin → Carried codec j.log id pin) ∧
    (∀ threadIds limits id pin, j.store.pins.get? id = some pin →
      (j.step codec (.importPins threadIds limits)).store.pins.get? id = some pin) ∧
    (∀ threadIds limits,
      (j.step codec (.importPins threadIds limits)).step codec (.importPins threadIds limits) =
        j.step codec (.importPins threadIds limits)) ∧
    (∀ threadIds limits limits', .importPins threadIds limits ∈ before →
      (j.step codec (.importPins threadIds limits')).store.pins = j.store.pins ∧
      (j.step codec (.importPins threadIds limits')).store.head = j.store.head ∧
      (j.step codec (.importPins threadIds limits')).log = j.log) ∧
    (threadPinSnapshot j.store).cursor = j.log.length ∧
    (threadPinSnapshot j'.store).cursor = j'.log.length ∧
    ∀ events : List (String × ThreadPin),
      (∀ e, e ∈ events ↔
        e ∈ pinEvents codec j'.log ∧ (threadPinSnapshot j.store).cursor < e.2.cursor) →
      pinnedIds (events.foldl (offer ThreadPin.cursor)
          (snapshotView (threadPinSnapshot j.store))) = (threadPinSnapshot j'.store).threadIds ∧
      ∀ id row, rowPin row = some (threadPin j.store id) →
        rowPin (events.foldl (applyPinEvent id) row) = some (threadPin j'.store id) := by
  intro j j'
  obtain ⟨hbef, hafter⟩ := always_append.mp hrun
  have hj : Settled codec j := settled_exec ⟨Journal.numbered_empty, Decided.empty⟩ hbef
  have hj' : Settled codec j' := settled_exec hj hafter
  have hhead : j.store.head = j.log.length := hj.1.head
  obtain ⟨more, hlog⟩ := log_exec codec j after
  have hdecided : Decided codec (j.log ++ more) j'.store.pins := hlog ▸ hj'.2
  have hfits : (j.log ++ more).length ≤ max64 := by
    rw [← hlog, ← hj'.1.head]
    exact le_of_lt hj'.1.2
  refine ⟨?_, ?_, ?_, ?_, hhead, hj'.1.head, ?_⟩
  · intro id pin hpin
    have hlat := hj.2.latest id
    rw [hpin] at hlat
    exact hj.2.carried id pin hlat.1
  · intro threadIds limits id pin hpin
    change (importThreadPins codec j.store threadIds limits).1.pins.get? id = some pin
    rw [pins_importThreadPins]
    exact @get?_foldl_importPin codec (j.store.pins, j.store.head, []) threadIds id pin hpin
  · exact fun threadIds limits => step_import_twice j threadIds limits
  · intro threadIds limits limits' hmem
    exact step_import_again (contains_of_imported hmem)
  intro events hevs
  have hseen : ∀ e, e ∈ events ↔
      e ∈ pinEvents codec (j.log ++ more) ∧ j.log.length < e.2.cursor := by
    intro e
    rw [hevs e, ← hlog, ← hhead]
    rfl
  refine ⟨pinnedIds_of_seen hhead hj.2 hdecided hseen, fun id row hrow => ?_⟩
  exact rowPin_of_seen hfits hj.2 hdecided hseen hrow

def textCodec (texts : List (Json × String)) : Codec where
  parse bytes := (texts.find? (fun t => decide (t.2.toUTF8.data.toList = bytes))).map Prod.fst
  write value :=
    ((texts.find? (fun t => decide (t.1 = value))).map (fun t => t.2.toUTF8.data.toList)).getD []

def pinText (cursor : String) : String :=
  "\x7b\"codewideThreadPatch\":\x7b\"operation\":\x7b\"kind\":\"threadPinned\"\x7d," ++
    "\"threadId\":\"t\",\"version\":1\x7d,\"method\":\"companion/thread/pin/updated\"," ++
    "\"params\":\x7b\"pinCursor\":" ++ cursor ++ ",\"pinned\":true,\"threadId\":\"t\"\x7d\x7d"

def deletionText : String :=
  "\x7b\"method\":\"thread/deleted\",\"params\":\x7b\"threadId\":\"t\"\x7d\x7d"

def pinCodec : Codec :=
  textCodec [((⟨"t", true⟩ : ThreadPinRequest).notification 1, pinText "1"),
    (.obj [("method", .str "thread/deleted"), ("params", .obj [("threadId", .str "t")])],
      deletionText)]

/-- A pinned thread is deleted behind a snapshot; the client sees the deletion twice. -/
theorem pins_converge_deleted :
    let j := exec (Journal.step pinCodec) Journal.empty [.commitPin ⟨"t", true⟩ ⟨10, 4096⟩]
    let j' := exec (Journal.step pinCodec) j [.append [deletionText.toUTF8.data.toList] ⟨10, 4096⟩]
    threadPinSnapshot j.store = ⟨1, ["t"]⟩ ∧ threadPinSnapshot j'.store = ⟨2, []⟩ ∧
      pinnedIds ([("t", ⟨false, 2⟩), ("t", ⟨false, 2⟩)].foldl (offer ThreadPin.cursor)
        (snapshotView (threadPinSnapshot j.store))) = [] := by
  intro j j'
  have hrun : Always (Journal.step pinCodec) (PinStep pinCodec) Journal.empty
      ([.commitPin ⟨"t", true⟩ ⟨10, 4096⟩] ++
        [.append [deletionText.toUTF8.data.toList] ⟨10, 4096⟩]) := by
    decide +kernel
  have hlater : threadPinSnapshot j'.store = ⟨2, []⟩ := by decide +kernel
  have hevs : pinEvents pinCodec j'.log = [("t", ⟨true, 1⟩), ("t", ⟨false, 2⟩)] := by
    decide +kernel
  have hsnap : threadPinSnapshot j.store = ⟨1, ["t"]⟩ := by decide +kernel
  obtain ⟨-, -, -, -, -, -, hseen⟩ := pins_converge pinCodec _ _ hrun
  refine ⟨hsnap, hlater, ?_⟩
  refine (hseen [("t", ⟨false, 2⟩), ("t", ⟨false, 2⟩)] (fun e => ?_)).1.trans
    (congrArg ThreadPinSnapshot.threadIds hlater)
  change _ ↔ e ∈ pinEvents pinCodec j'.log ∧ (threadPinSnapshot j.store).cursor < _
  rw [hevs, hsnap]
  simp only [mem_cons, not_mem_nil, or_false, or_self]
  constructor
  · rintro rfl
    exact ⟨.inr rfl, by decide⟩
  · rintro ⟨rfl | rfl, hlt⟩
    · exact absurd hlt (by decide)
    · rfl

lemma retirePins_of_unread {codec : Codec} {entries : List (Payload × Nat)}
    {pins : Table String ThreadPin} (h : ∀ e ∈ entries, codec.parse e.1 = none) :
    entries.foldl (retirePin codec) pins = pins := by
  induction entries with
  | nil => rfl
  | cons e rest ih =>
  have hkeep : retirePin codec pins e = pins := by
    unfold retirePin
    rw [h e mem_cons_self]
    rfl
  rw [foldl_cons, hkeep]
  exact ih (fun e he => h e (mem_cons_of_mem _ he))

lemma pinEvents_of_unread {codec : Codec} {log : List Payload}
    (h : ∀ payload ∈ log, codec.parse payload = none) : pinEvents codec log = [] := by
  refine filterMap_eq_nil_iff.mpr (fun e he => ?_)
  have hmem : e.2 ∈ log := by
    rw [← map_snd_numbered 0 log]
    exact mem_map_of_mem he
  unfold pinEvent
  rw [h e.2 hmem]
  rfl

section Exhausted

variable {codec : Codec} {payloads : List Payload}

def filled (codec : Codec) (payloads : List Payload) : Journal :=
  exec (Journal.step codec) Journal.empty [.append payloads ⟨max64, max64⟩]

lemma add64_filled (hlen : payloads.length = max64) :
    add64 (filled codec payloads).store.head 1 = max64 := by
  have hhead : (filled codec payloads).store.head = max64 :=
    (retained_exhausted codec hlen).head.trans hlen
  rw [hhead]
  exact Nat.min_eq_right (Nat.le_add_right _ _)

lemma pins_filled (hunread : ∀ payload ∈ payloads, codec.parse payload = none) :
    (filled codec payloads).store.pins = ∅ := by
  refine (pins_appendReplayBatch codec).trans (retirePins_of_unread (fun e he => ?_))
  exact hunread e.1 (of_mem_zip he).1

lemma pinEvents_filled (hlen : payloads.length = max64)
    (hunread : ∀ payload ∈ payloads, codec.parse payload = none) {request : ThreadPinRequest}
    (hread : codec.ReadsBack (request.notification max64)) (limits : ReplayLimits) :
    pinEvents codec ((filled codec payloads).step codec (.commitPin request limits)).log =
      [(request.threadId, ⟨request.pinned, max64⟩)] := by
  have hlog : ((filled codec payloads).step codec (.commitPin request limits)).log =
      payloads ++ [codec.write (request.notification
        (add64 (filled codec payloads).store.head 1))] := rfl
  rw [hlog, add64_filled hlen, pinEvents_append, pinEvents_of_unread hunread,
    pinEvent_notification request le_rfl hread]
  rfl

lemma pins_committed (hlen : payloads.length = max64)
    (hunread : ∀ payload ∈ payloads, codec.parse payload = none) {request : ThreadPinRequest}
    (limits : ReplayLimits) :
    ((filled codec payloads).step codec (.commitPin request limits)).store.pins =
      (∅ : Table String ThreadPin).insert request.threadId ⟨request.pinned, max64⟩ := by
  refine (pins_commitThreadPin codec request).trans ?_
  rw [add64_filled hlen, pins_filled hunread]

/-- Nothing journaled is behind the last cursor, but the pins have changed. -/
lemma pin_hidden_of_filled (hlen : payloads.length = max64)
    (hunread : ∀ payload ∈ payloads, codec.parse payload = none) {threadId : String}
    (hread : codec.ReadsBack ((⟨threadId, true⟩ : ThreadPinRequest).notification max64))
    (limits : ReplayLimits) {j' : Journal}
    (hj' : (filled codec payloads).step codec (.commitPin ⟨threadId, true⟩ limits) = j') :
    (∀ e, e ∈ ([] : List (String × ThreadPin)) ↔ e ∈ pinEvents codec j'.log ∧
      (threadPinSnapshot (filled codec payloads).store).cursor < e.2.cursor) ∧
    pinnedIds (([] : List (String × ThreadPin)).foldl (offer ThreadPin.cursor)
      (snapshotView (threadPinSnapshot (filled codec payloads).store))) ≠
        (threadPinSnapshot j'.store).threadIds := by
  have hevs := pinEvents_filled hlen hunread hread limits
  have hpins' := @pins_committed codec payloads hlen hunread ⟨threadId, true⟩ limits
  rw [hj'] at hevs hpins'
  constructor
  · intro e
    rw [hevs, mem_singleton]
    refine ⟨fun he => (nomatch he), ?_⟩
    rintro ⟨rfl, hlt⟩
    have hhead : (filled codec payloads).store.head = max64 :=
      (retained_exhausted codec hlen).head.trans hlen
    change (filled codec payloads).store.head < max64 at hlt
    omega
  intro heq
  have hpinned : threadId ∈ (threadPinSnapshot j'.store).threadIds := by
    refine mem_pinnedIds.mpr ?_
    rw [hpins', Table.get?_insert_self]
    rfl
  rw [← heq] at hpinned
  have hany := mem_pinnedIds.mp hpinned
  rw [foldl_nil, pinned_snapshotView, pins_filled hunread] at hany
  cases hany

end Exhausted

def lastPinCodec : Codec :=
  textCodec [((⟨"t", true⟩ : ThreadPinRequest).notification max64, pinText "18446744073709551615")]

/-- The pin behind a snapshot at the last cursor gets the same cursor and is missed. -/
theorem exhausted_cursor_hides_pin :
    (∀ e, e ∈ ([] : List (String × ThreadPin)) ↔
      e ∈ pinEvents lastPinCodec
        ((filled lastPinCodec (replicate max64 [])).step lastPinCodec
          (.commitPin ⟨"t", true⟩ ⟨max64, max64⟩)).log ∧
      (threadPinSnapshot (filled lastPinCodec (replicate max64 [])).store).cursor < e.2.cursor) ∧
    pinnedIds (([] : List (String × ThreadPin)).foldl (offer ThreadPin.cursor)
      (snapshotView (threadPinSnapshot (filled lastPinCodec (replicate max64 [])).store))) ≠
      (threadPinSnapshot
        ((filled lastPinCodec (replicate max64 [])).step lastPinCodec
          (.commitPin ⟨"t", true⟩ ⟨max64, max64⟩)).store).threadIds := by
  have hunread : ∀ payload ∈ replicate max64 ([] : Payload),
      lastPinCodec.parse payload = none := by
    intro payload hmem
    rw [eq_of_mem_replicate hmem]
    decide +kernel
  have hread : lastPinCodec.ReadsBack
      ((⟨"t", true⟩ : ThreadPinRequest).notification max64) := by
    decide +kernel
  exact pin_hidden_of_filled length_replicate hunread hread _ rfl

end CodeWide.ThreadList
