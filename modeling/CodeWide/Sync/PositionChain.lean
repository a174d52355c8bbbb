import CodeWide.Sync.Socket

/-!
# The position chain of a socket

Every run of a socket sends frames that lead from the start cursor upwards without a gap, and judges
the journal entries behind it one after the other, each once (`Stream`).
-/

namespace CodeWide.Sync

open Lib Store Saturating

namespace Handled

def entry (h : Handled) : Nat × Store.Payload := (h.cursor, h.payload)

/-- The delivery predicate accepts the entry under the threads it was judged by. -/
def accepted (codec : Codec) (h : Handled) : Bool :=
  (codec.parse h.payload).any (deliversTo h.threads)

end Handled

/-- The trace of a stream that starts behind `start` and has moved to `position`, over the
journal's log. -/
structure Stream (codec : Codec) (log : List Store.Payload) (t : Trace) (start position : Nat) :
    Prop where
  start_eq : t.start = some start
  chain : Chain start (t.frames.map StreamFrame.link) position
  covered : start + t.handled.length ≤ log.length
  handled : t.handled.map Handled.entry =
    numbered start (slice log start (start + t.handled.length))
  events : t.frames.filterMap StreamFrame.eventCursor =
    (t.handled.filter (Handled.accepted codec)).map Handled.cursor
  position_le : position ≤ start + t.handled.length
  pages : ∀ page ∈ t.pages, page.2 = page.1

namespace Stream

variable {codec : Codec} {log : List Store.Payload} {t : Trace} {start position : Nat}

lemma started (hstart : start ≤ log.length) :
    Stream codec log (Trace.empty.startedAt start) start start where
  start_eq := rfl
  chain := rfl
  covered := hstart
  handled := by
    change [] = numbered start (slice log start start)
    rw [slice_self]
    rfl
  events := rfl
  position_le := le_rfl
  pages := by
    intro page hpage
    exact absurd hpage List.not_mem_nil

lemma append (h : Stream codec log t start position) (more : List Store.Payload) :
    Stream codec (log ++ more) t start position where
  start_eq := h.start_eq
  chain := h.chain
  covered := by
    have hle := h.covered
    rw [List.length_append]
    omega
  handled := by
    rw [slice_append more h.covered]
    exact h.handled
  events := h.events
  position_le := h.position_le
  pages := h.pages

variable {payload : Store.Payload}

lemma handled_snoc (h : Stream codec log t start position)
    (hget : log[start + t.handled.length]? = some payload) (threads : Finset String)
    (frame : Option StreamFrame) :
    (t.entry (start + t.handled.length + 1, payload) threads frame).handled.map Handled.entry =
      numbered start (slice log start (start + (t.handled.length + 1))) := by
  have hslice : slice log start (start + t.handled.length + 1) =
      slice log start (start + t.handled.length) ++ [payload] :=
    slice_succ (Nat.le_add_right _ _) hget
  have hlen : (slice log start (start + t.handled.length)).length = t.handled.length := by
    rw [length_slice h.covered]
    omega
  rw [← Nat.add_assoc, hslice, numbered_append, hlen, ← h.handled]
  change (t.handled ++ [_]).map Handled.entry = _
  rw [List.map_append]
  rfl

lemma covered_succ {n : Nat} (hget : log[n]? = some payload) : n + 1 ≤ log.length :=
  (List.getElem?_eq_some_iff.mp hget).1

section

variable (h : Stream codec log t start position)
include h

variable {threads : Finset String}

lemma skip {value : Json} (hget : log[start + t.handled.length]? = some payload)
    (hparse : codec.parse payload = some value) (hrejects : deliversTo threads value = false) :
    Stream codec log (t.entry (start + t.handled.length + 1, payload) threads none)
      start position := by
  have hlen : (t.entry (start + t.handled.length + 1, payload) threads none).handled.length =
      t.handled.length + 1 := List.length_append
  refine ⟨h.start_eq, ?_, ?_, ?_, ?_, ?_, h.pages⟩
  · change Chain start ((t.frames ++ []).map StreamFrame.link) position
    rw [List.append_nil]
    exact h.chain
  · rw [hlen]
    exact covered_succ hget
  · rw [hlen]
    exact h.handled_snoc hget threads none
  · change (t.frames ++ []).filterMap _ = ((t.handled ++ [_]).filter _).map _
    rw [List.append_nil, List.filter_append, List.map_append, h.events]
    simp [Handled.accepted, hparse, hrejects]
  · have hle := h.position_le
    rw [hlen]
    omega

lemma send {value sent : Json} (hget : log[start + t.handled.length]? = some payload)
    (hparse : codec.parse payload = some value) (hacc : deliversTo threads value = true) :
    Stream codec log (t.entry (start + t.handled.length + 1, payload) threads
        (some (.event (start + t.handled.length + 1) position sent)))
      start (start + t.handled.length + 1) := by
  have hle := h.position_le
  have hlen : ∀ frame, (t.entry (start + t.handled.length + 1, payload) threads
      frame).handled.length = t.handled.length + 1 := fun _ => List.length_append
  refine ⟨h.start_eq, ?_, ?_, ?_, ?_, ?_, h.pages⟩
  · change Chain start ((t.frames ++ [_]).map StreamFrame.link) _
    rw [List.map_append]
    exact h.chain.snoc (by omega)
  · rw [hlen]
    exact covered_succ hget
  · rw [hlen]
    exact h.handled_snoc hget threads _
  · change (t.frames ++ [_]).filterMap _ = ((t.handled ++ [_]).filter _).map _
    rw [List.filterMap_append, List.filter_append, List.map_append, h.events]
    simp [Handled.accepted, hparse, hacc, StreamFrame.eventCursor]
  · rw [hlen]
    omega

lemma finish (threads : Finset String) :
    let d := ReplayDelivery.advanceFrame ⟨threads, ⟨position⟩⟩ (start + t.handled.length)
    d.2.position.cursor = start + t.handled.length ∧
      Stream codec log (t.page (start + t.handled.length) d.2.position.cursor d.1) start
        (start + t.handled.length) := by
  have hle := h.position_le
  have hpages : ∀ page ∈ t.pages ++ [(start + t.handled.length, start + t.handled.length)],
      page.2 = page.1 := by
    intro page hpage
    rcases mem_concat.mp hpage with hold | hnew
    · exact h.pages page hold
    · rw [hnew]
  intro d
  by_cases hskip : start + t.handled.length ≤ position
  · have heq : position = start + t.handled.length := by omega
    have hd : d = (none, ⟨threads, ⟨position⟩⟩) := by
      simp [d, ReplayDelivery.advanceFrame, SocketPosition.advanceTo, hskip]
    rw [hd]
    refine ⟨heq, h.start_eq, ?_, h.covered, h.handled, ?_, le_rfl, ?_⟩
    · change Chain start ((t.frames ++ []).map StreamFrame.link) _
      rw [List.append_nil, ← heq]
      exact h.chain
    · change (t.frames ++ []).filterMap _ = _
      rw [List.append_nil]
      exact h.events
    · change ∀ page ∈ t.pages ++ [(start + t.handled.length, position)], _
      rw [heq]
      exact hpages
  have hd : d = (some (.advance (start + t.handled.length) position),
      ⟨threads, ⟨start + t.handled.length⟩⟩) := by
    simp [d, ReplayDelivery.advanceFrame, SocketPosition.advanceTo, hskip]
  rw [hd]
  refine ⟨rfl, h.start_eq, ?_, h.covered, h.handled, ?_, le_rfl, hpages⟩
  · change Chain start ((t.frames ++ [_]).map StreamFrame.link) _
    rw [List.map_append]
    exact h.chain.snoc (by omega)
  · change (t.frames ++ [_]).filterMap _ = _
    rw [List.filterMap_append, h.events]
    exact List.append_nil _

lemma nodup_sent : ((t.handled.filter (Handled.accepted codec)).map Handled.cursor).Nodup := by
  have hcursors : t.handled.map Handled.cursor =
      List.range' (start + 1) (slice log start (start + t.handled.length)).length := by
    rw [← map_fst_numbered, ← h.handled, List.map_map]
    rfl
  have hall : (t.handled.map Handled.cursor).Nodup := by
    rw [hcursors]
    exact List.nodup_range'
  exact hall.sublist (List.filter_sublist.map Handled.cursor)

end

end Stream

/-- The next entry is the one behind those handled, and a page's rest is the journal up to its head.
-/
def PhaseInv (codec : Codec) (log : List Store.Payload) (t : Trace) : Phase → Prop
  | .hello => t = Trace.empty
  | .snapshot _ => t = Trace.empty
  | .page _ position page =>
    ∃ start, Stream codec log t start position ∧ position = start + t.handled.length ∧
      position ≤ page.headCursor ∧ page.headCursor ≤ log.length ∧
      page.entries = numbered position (slice log position page.headCursor)
  | .sending _ d rest head =>
    ∃ start, Stream codec log t start d.position.cursor ∧ start + t.handled.length ≤ head ∧
      head ≤ log.length ∧
      rest = numbered (start + t.handled.length) (slice log (start + t.handled.length) head)
  | .live delivered =>
    ∃ start, Stream codec log t start delivered ∧ delivered = start + t.handled.length ∧
      t.pages.getLast? = some (delivered, delivered)
  | .closed => t = Trace.empty ∨ ∃ start position, Stream codec log t start position

namespace PhaseInv

variable {codec : Codec} {log : List Store.Payload} {t : Trace} {phase : Phase}

lemma stream (h : PhaseInv codec log t phase) :
    t = Trace.empty ∨ ∃ start position, Stream codec log t start position := by
  cases phase with
  | hello | snapshot cursor => exact .inl h
  | page site position page =>
    obtain ⟨start, hstr, -⟩ := h
    exact .inr ⟨start, position, hstr⟩
  | sending site d rest head =>
    obtain ⟨start, hstr, -⟩ := h
    exact .inr ⟨start, _, hstr⟩
  | live delivered =>
    obtain ⟨start, hstr, -⟩ := h
    exact .inr ⟨start, delivered, hstr⟩
  | closed => exact h

lemma append (h : PhaseInv codec log t phase) (more : List Store.Payload) :
    PhaseInv codec (log ++ more) t phase := by
  cases phase with
  | hello | snapshot cursor => exact h
  | page site position page =>
    obtain ⟨start, hstr, hat, hle, hhead, hent⟩ := h
    refine ⟨start, hstr.append more, hat, hle, ?_, ?_⟩
    · rw [List.length_append]
      omega
    · rw [slice_append more hhead]
      exact hent
  | sending site d rest head =>
    obtain ⟨start, hstr, hle, hhead, hrest⟩ := h
    refine ⟨start, hstr.append more, hle, ?_, ?_⟩
    · rw [List.length_append]
      omega
    · rw [slice_append more hhead]
      exact hrest
  | live delivered =>
    obtain ⟨start, hstr, hat, hlast⟩ := h
    exact ⟨start, hstr.append more, hat, hlast⟩
  | closed =>
  rcases h with hempty | ⟨start, position, hstr⟩
  · exact .inl hempty
  · exact .inr ⟨start, position, hstr.append more⟩

end PhaseInv

namespace Socket

structure Inv (codec : Codec) (s : Socket) : Prop where
  journal : s.journal.Numbered
  phase : PhaseInv codec s.journal.log s.trace s.phase

variable {codec : Codec} {s : Socket}

lemma inv_initial : (Socket.initial Journal.empty).Inv codec :=
  ⟨Journal.numbered_empty, rfl⟩

namespace Inv

lemma close (h : s.Inv codec) : s.close.Inv codec :=
  ⟨h.journal, h.phase.stream⟩

lemma setInterest (h : s.Inv codec) (interest : SocketInterest) : Inv codec { s with interest } :=
  ⟨h.journal, h.phase⟩

lemma page (h : s.Inv codec) {c : Nat}
    (hpage : (replayAfter s.journal.store (some c)).snapshotRequired = false) :
    c ≤ s.journal.log.length ∧
      (replayAfter s.journal.store (some c)).headCursor = s.journal.log.length ∧
      (replayAfter s.journal.store (some c)).entries =
        numbered c (slice s.journal.log c s.journal.log.length) := by
  rw [slice_length]
  exact h.journal.page hpage

section

variable (h : s.Inv codec)
include h

lemma startPage (hempty : s.trace = Trace.empty) {c : Nat}
    (hpage : (replayAfter s.journal.store (some c)).snapshotRequired = false) :
    PhaseInv codec s.journal.log (s.trace.startedAt c)
      (.page .catchUp c (replayAfter s.journal.store (some c))) := by
  obtain ⟨hle, hhead, hent⟩ := h.page hpage
  rw [hempty]
  refine ⟨c, Stream.started hle, rfl, ?_, le_of_eq hhead, ?_⟩
  · rw [hhead]
    exact hle
  · rw [hhead]
    exact hent

lemma acceptHello (hempty : s.trace = Trace.empty) (hello : Json) :
    (s.acceptHello hello).Inv codec := by
  unfold Socket.acceptHello
  split
  · exact h.close
  split
  · dsimp only
    split
    · rename_i position hposition
      obtain ⟨hcurs, hfresh⟩ := Option.filter_eq_some_iff.mp hposition
      rw [Bool.not_eq_true'] at hfresh
      rw [hcurs] at hfresh ⊢
      exact ⟨h.journal, h.startPage hempty hfresh⟩
    · exact ⟨h.journal, hempty⟩
  · exact h.close

lemma snapshotApplied {pending : Option Nat}
    (hempty : pending ≠ none → s.trace = Trace.empty) (message : Json) :
    (s.snapshotApplied pending message).Inv codec := by
  unfold Socket.snapshotApplied
  split
  · exact h.close
  rename_i applied hcurs
  split
  · exact h.close
  rename_i hpend
  have htrace := hempty (by
    intro hnone
    rw [hnone] at hpend
    exact hpend (by simp))
  dsimp only
  split
  · exact ⟨h.journal, htrace⟩
  · rename_i hfresh
    exact ⟨h.journal, h.startPage htrace (by simpa using hfresh)⟩

lemma interestFrame (message : Json) : (s.interestFrame message).Inv codec := by
  unfold Socket.interestFrame
  split
  · exact h.close
  · rename_i interest change hok
    exact h.setInterest interest

lemma sessionMessage {pending : Option Nat}
    (hempty : pending ≠ none → s.trace = Trace.empty) (message : Json) :
    (s.sessionMessage pending message).Inv codec := by
  unfold Socket.sessionMessage
  split
  · exact h.close
  rename_i type htype
  split
  · exact h.snapshotApplied hempty message
  split
  · exact h.interestFrame message
  split
  · split
    · exact h.close
    · exact h
  · split
    · exact h
    · exact h.close

lemma receive (message : Json) : (s.receive message).Inv codec := by
  have hphase := h.phase
  unfold Socket.receive
  split
  · rename_i heq
    rw [heq] at hphase
    exact h.acceptHello hphase message
  · rename_i cursor heq
    rw [heq] at hphase
    exact h.sessionMessage (fun _ => hphase) message
  · exact h.sessionMessage (fun hne => absurd rfl hne) message
  · exact h.sessionMessage (fun hne => absurd rfl hne) message
  · exact h.sessionMessage (fun hne => absurd rfl hne) message
  · exact h

lemma readLive {delivered : Nat} (hlive : s.phase = .live delivered) :
    (s.readLive delivered).Inv codec := by
  have hphase := h.phase
  rw [hlive] at hphase
  obtain ⟨start, hstr, hat, -⟩ := hphase
  unfold Socket.readLive
  dsimp only
  split
  · exact h.close
  rename_i hfresh
  obtain ⟨hle, hhead, hent⟩ := h.page (c := delivered) (by simpa using hfresh)
  refine ⟨h.journal, start, hstr, hat, ?_, le_of_eq hhead, ?_⟩
  · rw [hhead]
    exact hle
  · rw [hhead]
    exact hent

lemma signal (sig : LiveSignal) : (s.signal sig).Inv codec := by
  unfold Socket.signal
  split
  · rename_i delivered hlive
    cases sig with
    | committed head =>
      dsimp only
      split
      · exact h
      · exact h.readLive hlive
    | lagged => exact h.readLive hlive
    | failed | closed => exact h.close
  · exact h

lemma takeInterest : s.takeInterest.Inv codec := by
  have hphase := h.phase
  unfold Socket.takeInterest
  split
  · rename_i site position page heq
    rw [heq] at hphase
    obtain ⟨start, hstr, hat, hle, hhead, hent⟩ := hphase
    refine ⟨h.journal, start, hstr, ?_, hhead, ?_⟩
    · rw [← hat]
      exact hle
    · rw [← hat]
      exact hent
  · exact h

lemma deliverEntry {site : Site} {d : ReplayDelivery} {entry : Nat × Store.Payload}
    {rest : List (Nat × Store.Payload)} {head : Nat} (hsend : s.phase = .sending site d (entry :: rest) head)
    (projected : Option Json) :
    (s.deliverEntry codec site d entry rest head projected).Inv codec := by
  have hphase := h.phase
  rw [hsend] at hphase
  obtain ⟨start, hstr, hle, hhead, hrest⟩ := hphase
  obtain ⟨hcurs, tail, hslice, htail⟩ := numbered_eq_cons hrest.symm
  obtain ⟨hlt, hget, rfl⟩ := slice_eq_cons hslice
  obtain ⟨cursor, payload⟩ := entry
  obtain rfl : cursor = start + s.trace.handled.length + 1 := hcurs
  -- Sent or skipped, what is left of the page starts behind the entry.
  have hnext : ∀ frame next, Stream codec s.journal.log
        (s.trace.entry (start + s.trace.handled.length + 1, payload) d.threads frame) start
        (ReplayDelivery.position next).cursor →
      PhaseInv codec s.journal.log
        (s.trace.entry (start + s.trace.handled.length + 1, payload) d.threads frame)
        (.sending site next rest head) := by
    intro frame next hstr'
    have hlen : (s.trace.entry (start + s.trace.handled.length + 1, payload) d.threads
        frame).handled.length = s.trace.handled.length + 1 := List.length_append
    refine ⟨start, hstr', ?_, hhead, ?_⟩
    · rw [hlen]
      exact hlt
    · rw [hlen]
      exact htail
  unfold Socket.deliverEntry
  split
  · exact h.close
  rename_i value hparse
  split
  · rename_i hacc
    split
    · exact h.close
    · rename_i sent
      exact ⟨h.journal, hnext _ _ (hstr.send hget hparse hacc)⟩
  · rename_i hrejects
    have hfalse : deliversTo d.threads value = false := Bool.eq_false_of_not_eq_true hrejects
    exact ⟨h.journal, hnext none d (hstr.skip hget hparse hfalse)⟩

end

lemma handled_all {start head : Nat} {log : List Store.Payload} {n : Nat} (hle : start + n ≤ head)
    (hhead : head ≤ log.length)
    (hrest : [] = numbered (start + n) (slice log (start + n) head)) : start + n = head := by
  have hlen := congrArg List.length hrest
  rw [List.length_nil, length_numbered, length_slice hhead] at hlen
  omega

lemma finishPage (h : s.Inv codec) {site : Site} {d : ReplayDelivery} {head : Nat}
    (hsend : s.phase = .sending site d [] head) : (s.finishPage site d head).Inv codec := by
  have hphase := h.phase
  rw [hsend] at hphase
  obtain ⟨start, hstr, hle, hhead, hrest⟩ := hphase
  obtain rfl := handled_all hle hhead hrest
  obtain ⟨hcurs, hfin⟩ := hstr.finish d.threads
  have hresume : site.resume (start + s.trace.handled.length)
      (d.advanceFrame (start + s.trace.handled.length)).2.position.cursor =
        start + s.trace.handled.length := by
    rw [hcurs, Site.resume_self]
  refine ⟨h.journal, ?_⟩
  dsimp only [Socket.finishPage]
  rw [hresume]
  refine ⟨start, hfin, rfl, ?_⟩
  change (s.trace.pages ++ [_]).getLast? = _
  rw [List.getLast?_concat, hcurs]

lemma deliver (h : s.Inv codec) (projected : Option Json) :
    (s.deliver codec projected).Inv codec := by
  unfold Socket.deliver
  split
  · rename_i hsend
    exact h.deliverEntry hsend projected
  · rename_i hsend
    exact h.finishPage hsend
  · exact h

end Inv

def HeadFits (codec : Codec) (s : Socket) : SocketInput → Prop
  | .journal op => Store.HeadFits codec s.journal op
  | _ => True

instance (codec : Codec) (s : Socket) : (input : SocketInput) → Decidable (s.HeadFits codec input)
  | .journal op => inferInstanceAs
    (Decidable (s.journal.store.head + (op.written codec s.journal.store).length < max64))
  | .receive _ => isTrue trivial
  | .signal _ => isTrue trivial
  | .takeInterest => isTrue trivial
  | .deliver _ => isTrue trivial
  | .drop => isTrue trivial

lemma Inv.step (h : s.Inv codec) {input : SocketInput} (hfits : s.HeadFits codec input) :
    (s.step codec input).Inv codec := by
  cases input with
  | journal op => exact ⟨h.journal.step hfits, h.phase.append _⟩
  | receive message => exact h.receive message
  | signal sig => exact h.signal sig
  | takeInterest => exact h.takeInterest
  | deliver projected => exact h.deliver projected
  | drop => exact h.close

lemma inv_exec {inputs : List SocketInput}
    (hrun : Always (Socket.step codec) (HeadFits codec) (Socket.initial Journal.empty) inputs) :
    (exec (Socket.step codec) (Socket.initial Journal.empty) inputs).Inv codec :=
  exec_invariant_of_always (fun _ _ h hfits => h.step hfits) inv_initial hrun

/-- The frames of every run lead upwards without a gap, and the accepted entries behind the start
come in order. -/
theorem socket_position_chain (codec : Codec) (inputs : List SocketInput)
    (hrun : Always (Socket.step codec) (HeadFits codec) (Socket.initial Journal.empty) inputs) :
    let s := exec (Socket.step codec) (Socket.initial Journal.empty) inputs
    let t := s.trace
    (t.start = none → t.frames = [] ∧ t.handled = [] ∧ t.pages = []) ∧
    ∀ start, t.start = some start → ∃ position,
      Chain start (t.frames.map StreamFrame.link) position ∧
      (t.frames.map (fun frame => frame.link.2)).Pairwise (· < ·) ∧
      (∀ page ∈ t.pages, page.2 = page.1) ∧
      (∀ delivered, s.phase = .live delivered →
        position = delivered ∧ delivered = start + t.handled.length ∧
        t.pages.getLast? = some (delivered, delivered)) ∧
      position ≤ start + t.handled.length ∧ start + t.handled.length ≤ s.journal.log.length ∧
      t.handled.map Handled.entry =
        numbered start (slice s.journal.log start (start + t.handled.length)) ∧
      t.frames.filterMap StreamFrame.eventCursor =
        (t.handled.filter (Handled.accepted codec)).map Handled.cursor := by
  intro s t
  have hinv : s.Inv codec := inv_exec hrun
  refine ⟨?_, ?_⟩
  · intro hnone
    rcases hinv.phase.stream with hempty | ⟨start, position, hstr⟩
    · have heq : t = Trace.empty := hempty
      rw [heq]
      exact ⟨rfl, rfl, rfl⟩
    · have hsome : t.start = some start := hstr.start_eq
      rw [hnone] at hsome
      exact absurd hsome (by simp)
  intro start hstart
  rcases hinv.phase.stream with hempty | ⟨start', position, hstr⟩
  · have heq : t = Trace.empty := hempty
    rw [heq] at hstart
    exact absurd hstart (by simp [Trace.empty])
  obtain rfl : start' = start := Option.some.inj (hstr.start_eq.symm.trans hstart)
  refine ⟨position, hstr.chain, ?_, hstr.pages, ?_, hstr.position_le,
    hstr.covered, hstr.handled, hstr.events⟩
  · have hpairwise := hstr.chain.pairwise
    rw [List.map_map] at hpairwise
    exact hpairwise
  intro delivered hlive
  have hphase := hinv.phase
  rw [hlive] at hphase
  obtain ⟨start'', hstr', hat, hlast⟩ := hphase
  obtain rfl : start'' = start' :=
    Option.some.inj (hstr'.start_eq.symm.trans hstr.start_eq)
  exact ⟨hstr.chain.last_unique hstr'.chain, hat, hlast⟩

/-- A page with an entry of a thread that is not followed, and a live page after it is followed. -/
theorem socket_position_chain_followed :
    let delta (thread : String) : Json := .obj [(threadPatchField, .obj [
      ("operation", .obj [("kind", .str "itemTextDelta")]), ("threadId", .str thread)])]
    let codec : Codec := ⟨fun payload => some (delta (if payload = [1] then "a" else "b")), fun _ => []⟩
    let hello : Json := .obj [("cursor", .int 0), ("interest", .arr [.str "a"]),
      ("listStream", .obj [("visible", .bool true)]), ("protocolVersion", .int 1),
      ("type", .str "hello")]
    let follow : Json := .obj [("add", .arr [.str "b"]), ("type", .str "interest")]
    let inputs : List SocketInput :=
      [.journal (.append [[1], [2]] ⟨10, 100⟩), .receive hello, .takeInterest,
        .deliver (some (delta "a")), .deliver none, .deliver none, .receive follow,
        .journal (.append [[2]] ⟨10, 100⟩), .signal (.committed 3), .takeInterest,
        .deliver (some (delta "b")), .deliver none]
    Always (Socket.step codec) (HeadFits codec) (Socket.initial Journal.empty) inputs ∧
      (∃ position, Chain 0 ((exec (Socket.step codec) (Socket.initial Journal.empty)
        inputs).trace.frames.map StreamFrame.link) position) ∧
      (exec (Socket.step codec) (Socket.initial Journal.empty) inputs).trace.frames = [.event 1 0 (delta "a"), .advance 2 1, .event 3 2 (delta "b")] := by
  intro delta codec hello follow inputs
  have hrun : Always (Socket.step codec) (HeadFits codec) (Socket.initial Journal.empty)
      inputs := by decide
  refine ⟨hrun, ?_, by decide⟩
  exact ((socket_position_chain codec inputs hrun).2 0 (by decide)).imp (fun _ => And.left)

structure AcceptedHello (hello : Json) (interest : SocketInterest) (c : Nat) : Prop where
  type : messageType hello = some "hello"
  version : (hello.get? "protocolVersion").bind Json.asU64? = some 1
  interest : SocketInterest.fromHello hello = .ok interest
  visible : ∃ visible, helloVisibility hello = .ok visible
  cursor : messageCursor hello = some c

variable {interest : SocketInterest}

lemma acceptHello_eq {hello : Json} {c : Nat} (h : AcceptedHello hello interest c)
    (hfresh : (replayAfter s.journal.store (some c)).snapshotRequired = false) :
    s.acceptHello hello = { s with
        interest
        phase := .page .catchUp c (replayAfter s.journal.store (some c))
        trace := s.trace.startedAt c } := by
  obtain ⟨visible, hvisible⟩ := h.visible
  unfold Socket.acceptHello
  rw [if_neg (by simp [h.type, h.version]), h.interest, hvisible]
  dsimp only
  rw [h.cursor, Option.filter_some, hfresh]
  rfl

lemma hello_page_frame {hello payload sent : Json}
    {c cursor : Nat} {bytes : Store.Payload} {rest : List (Nat × Store.Payload)}
    (h : AcceptedHello hello interest c) (hphase : s.phase = .hello)
    (hfresh : (replayAfter s.journal.store (some c)).snapshotRequired = false)
    (hent : (replayAfter s.journal.store (some c)).entries = (cursor, bytes) :: rest)
    (hparse : codec.parse bytes = some payload)
    (hacc : deliversTo interest.threads payload = true) :
    (exec (Socket.step codec) s [.receive hello, .takeInterest, .deliver (some sent)]).trace.frames
      = s.trace.frames ++ [.event cursor c sent] := by
  have hacce := acceptHello_eq h hfresh
  have hreceive : s.step codec (.receive hello) = s.acceptHello hello := by
    simp [Socket.step, Socket.receive, hphase]
  rw [exec_cons, hreceive, hacce, exec_cons, exec_cons, exec_nil]
  simp [Socket.step, Socket.takeInterest, Socket.deliver, hent, Socket.deliverEntry, hparse,
    ReplayDelivery.delivers, ReplayDelivery.new, hacc, ReplayDelivery.eventFrame,
    SocketPosition.nextEvent, Trace.entry, Trace.startedAt]

lemma exhausted_frames {hello payload sent : Json} {interest : SocketInterest}
    {payloads : List Store.Payload} {bytes : Store.Payload}
    (h : AcceptedHello hello interest max64)
    (hlen : payloads.length = max64)
    (hdrop : payloads.drop (max64 - 1) = [bytes])
    (hparse : codec.parse bytes = some payload)
    (hacc : deliversTo interest.threads payload = true) :
    (exec (Socket.step codec) (Socket.initial Journal.empty)
      [.journal (.append payloads ⟨max64, max64⟩), .receive hello,
        .takeInterest, .deliver (some sent)]).trace.frames =
      [.event max64 max64 sent] := by
  obtain ⟨hfresh, hent⟩ := replayAfter_exhausted (retained_exhausted codec hlen) hlen
  have hlast : max64 - 1 + 1 = max64 := by decide
  rw [hdrop, numbered, numbered, hlast] at hent
  rw [exec_cons]
  exact hello_page_frame h rfl hfresh hent hparse hacc

/-- Behind the last cursor a hello is sent the last entry again, in a frame that does not move. -/
theorem exhausted_cursor_repeats_entry : let codec : Codec :=
      ⟨fun payload => if payload = [123, 125] then some (.obj []) else none, fun _ => [123, 125]⟩
    let hello : Json := .obj [("cursor", .int max64), ("interest", .arr []),
      ("listStream", .obj [("visible", .bool true)]), ("protocolVersion", .int 1),
      ("type", .str "hello")]
    ∃ frame ∈ (exec (Socket.step codec) (Socket.initial Journal.empty)
      [.journal (.append (List.replicate max64 [123, 125])
        ⟨max64, max64⟩), .receive hello, .takeInterest,
        .deliver (some (.obj []))]).trace.frames, ¬ frame.link.1 < frame.link.2 := by
  intro codec hello
  have hdrop : (List.replicate max64 ([123, 125] : Store.Payload)).drop
      (max64 - 1) = [[123, 125]] := by
    have hone : max64 - (max64 - 1) = 1 := by decide
    rw [List.drop_replicate, hone]
    rfl
  have hhello : AcceptedHello hello SocketInterest.empty max64 :=
    ⟨by decide, by decide, by decide, ⟨true, by decide⟩, by decide⟩
  have hfrs := @exhausted_frames codec hello (.obj []) (.obj []) SocketInterest.empty _ _
    hhello List.length_replicate hdrop (by decide) (by decide)
  rw [hfrs]
  exact ⟨_, List.mem_singleton_self _, Nat.lt_irrefl _⟩

end Socket

end CodeWide.Sync
