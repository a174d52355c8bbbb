import CodeWide.Sync.PositionChain

/-!
# A socket that follows a thread

From where a socket follows a thread, every journal entry of the thread behind that head is sent, as
long as it is not removed (`Socket.Follows.step`).
-/

namespace CodeWide.Sync

open Lib Store List Socket

def patchThread (payload : Json) : Option String :=
  ((payload.get? threadPatchField).bind (·.get? "threadId")).bind Json.asStr?

lemma deliversTo_of_mem {threads : Finset String} {payload : Json} {thread : String}
    (hpatch : patchThread payload = some thread) (hmem : thread ∈ threads) :
    deliversTo threads payload = true := by
  unfold patchThread at hpatch
  unfold deliversTo
  cases hget : payload.get? threadPatchField with
  | none => rfl
  | some patch =>
  rw [hget] at hpatch
  change (patch.get? "threadId").bind Json.asStr? = some thread at hpatch
  dsimp only
  split
  · rfl
  split
  · rfl
  · rw [hpatch]
    simpa using hmem

namespace Socket

variable {codec : Codec} {s s' : Socket}

/-- The journal and the handled entries stay, and no delivery begins or moves. -/
structure Quiet (s s' : Socket) : Prop where
  journal : s'.journal = s.journal
  handled : s'.trace.handled = s.trace.handled
  sending : ∀ site d rest head, s'.phase = .sending site d rest head →
    s.phase = .sending site d rest head

namespace Quiet

lemma refl (s : Socket) : Quiet s s := ⟨rfl, rfl, fun _ _ _ _ h => h⟩

lemma close (s : Socket) : Quiet s s.close :=
  ⟨rfl, rfl, fun _ _ _ _ h => absurd h (by simp [Socket.close])⟩

lemma acceptHello (s : Socket) (hello : Json) : Quiet s (s.acceptHello hello) := by
  unfold Socket.acceptHello
  split
  · exact close s
  split
  · dsimp only
    split
    · exact ⟨rfl, rfl, fun _ _ _ _ h => absurd h (by simp)⟩
    · exact ⟨rfl, rfl, fun _ _ _ _ h => absurd h (by simp)⟩
  · exact close s

lemma snapshotApplied (s : Socket) (pending : Option Nat) (message : Json) :
    Quiet s (s.snapshotApplied pending message) := by
  unfold Socket.snapshotApplied
  split
  · exact close s
  split
  · exact close s
  dsimp only
  split
  · exact ⟨rfl, rfl, fun _ _ _ _ h => absurd h (by simp)⟩
  · exact ⟨rfl, rfl, fun _ _ _ _ h => absurd h (by simp)⟩

lemma sessionMessage (s : Socket) (pending : Option Nat) (message : Json) :
    Quiet s (s.sessionMessage pending message) := by
  unfold Socket.sessionMessage
  split
  · exact close s
  split
  · exact snapshotApplied s pending message
  split
  · unfold Socket.interestFrame
    split
    · exact close s
    · exact ⟨rfl, rfl, fun _ _ _ _ h => h⟩
  split
  · split
    · exact close s
    · exact refl s
  · split
    · exact refl s
    · exact close s

lemma receive (s : Socket) (message : Json) : Quiet s (s.receive message) := by
  unfold Socket.receive
  split
  · exact acceptHello s message
  · exact sessionMessage s _ message
  · exact sessionMessage s _ message
  · exact sessionMessage s _ message
  · exact sessionMessage s _ message
  · exact refl s

lemma readLive (s : Socket) (delivered : Nat) : Quiet s (s.readLive delivered) := by
  unfold Socket.readLive
  dsimp only
  split
  · exact close s
  · exact ⟨rfl, rfl, fun _ _ _ _ h => absurd h (by simp)⟩

lemma signal (s : Socket) (sig : LiveSignal) : Quiet s (s.signal sig) := by
  unfold Socket.signal
  split
  · cases sig with
    | committed head =>
      dsimp only
      split
      · exact refl s
      · exact readLive s _
    | lagged => exact readLive s _
    | failed | closed => exact close s
  · exact refl s

end Quiet

lemma takeInterest_cases (s : Socket) : Quiet s s.takeInterest ∨
      ∃ site position page, s.phase = .page site position page ∧ s.takeInterest = { s with
          phase := .sending site (ReplayDelivery.new s.interest position) page.entries
            page.headCursor } := by
  cases hphase : s.phase with
  | page site position page =>
    refine .inr ⟨site, position, page, rfl, ?_⟩
    simp [takeInterest, hphase]
  | _ =>
  refine .inl ?_
  have hsame : s.takeInterest = s := by simp [takeInterest, hphase]
  rw [hsame]
  exact Quiet.refl s

lemma deliver_cases (codec : Codec) (s : Socket) (projected : Option Json) :
    Quiet s (s.deliver codec projected) ∨
      ∃ site d entry rest head d' frame, s.phase = .sending site d (entry :: rest) head ∧
        d'.threads = d.threads ∧
        s.deliver codec projected = { s with
          phase := .sending site d' rest head
          trace := s.trace.entry entry d.threads frame } := by
  unfold deliver
  split
  · rename_i site d entry rest head hphase
    unfold deliverEntry
    split
    · exact .inl (Quiet.close s)
    split
    · split
      · exact .inl (Quiet.close s)
      · rename_i value
        exact .inr ⟨site, d, entry, rest, head, (d.eventFrame entry.1 value).2,
          some (d.eventFrame entry.1 value).1, hphase, rfl, rfl⟩
    · exact .inr ⟨site, d, entry, rest, head, d, none, hphase, rfl, rfl⟩
  · exact .inl ⟨rfl, rfl, fun _ _ _ _ h => absurd h (by simp [finishPage])⟩
  · exact .inl (Quiet.refl s)

variable {input : SocketInput}

lemma journal_step (hinput : ∀ op, input ≠ .journal op) :
    (s.step codec input).journal = s.journal := by
  cases input with
  | journal op => exact absurd rfl (hinput op)
  | receive message => exact (Quiet.receive s message).journal
  | signal sig => exact (Quiet.signal s sig).journal
  | takeInterest =>
    rcases takeInterest_cases s with hquiet | ⟨_, _, _, -, heq⟩
    · exact hquiet.journal
    · change s.takeInterest.journal = s.journal
      rw [heq]
  | deliver projected =>
    rcases deliver_cases codec s projected with hquiet | ⟨_, _, _, _, _, _, _, -, -, heq⟩
    · exact hquiet.journal
    · change (s.deliver codec projected).journal = s.journal
      rw [heq]
  | drop => rfl

structure Follows (codec : Codec) (thread : String) (since : Nat) (s : Socket) : Prop where
  inv : s.Inv codec
  member : thread ∈ s.interest.threads
  handled : ∀ h ∈ s.trace.handled, since < h.cursor → thread ∈ h.threads
  sending : ∀ site d rest head, s.phase = .sending site d rest head →
    thread ∈ d.threads ∨ head ≤ since

namespace Follows

variable {thread : String} {since : Nat}

/-- The entries handled when the thread is followed lie below the head, and so does the page
being sent. -/
lemma begin (h : s.Inv codec) (hmem : thread ∈ s.interest.threads) :
    Follows codec thread s.journal.log.length s := by
  refine ⟨h, hmem, ?_, ?_⟩
  · intro e he hlt
    rcases h.phase.stream with hempty | ⟨start, position, hstr⟩
    · rw [hempty] at he
      exact absurd he not_mem_nil
    have hentry : e.entry ∈ numbered start
        (slice s.journal.log start (start + s.trace.handled.length)) := by
      rw [← hstr.handled]
      exact mem_map_of_mem he
    have hbound := (numbered_le hentry).2
    have hcov := hstr.covered
    rw [length_slice hcov] at hbound
    have hcurs : e.entry.1 = e.cursor := rfl
    omega
  intro site d rest head hphase
  have hsent := h.phase
  rw [hphase] at hsent
  obtain ⟨_, _, _, hhead, _⟩ := hsent
  exact .inr hhead

lemma quiet (h : Follows codec thread since s) (hquiet : Quiet s s') (hinv : s'.Inv codec)
    (hmem : thread ∈ s'.interest.threads) : Follows codec thread since s' := by
  refine ⟨hinv, hmem, ?_, ?_⟩
  · rw [hquiet.handled]
    exact h.handled
  · intro site d rest head hphase
    exact h.sending site d rest head (hquiet.sending site d rest head hphase)

lemma step (h : Follows codec thread since s) {input : SocketInput} (hfits : s.HeadFits codec input)
    (hmem : thread ∈ (s.step codec input).interest.threads) :
    Follows codec thread since (s.step codec input) := by
  have hinv := h.inv.step hfits
  cases input with
  | journal op => exact ⟨hinv, hmem, h.handled, h.sending⟩
  | receive message => exact h.quiet (Quiet.receive s message) hinv hmem
  | signal sig => exact h.quiet (Quiet.signal s sig) hinv hmem
  | drop => exact h.quiet (Quiet.close s) hinv hmem
  | takeInterest =>
    rcases takeInterest_cases s with hquiet | ⟨site, position, page, hphase, heq⟩
    · exact h.quiet hquiet hinv hmem
    change Follows codec thread since s.takeInterest
    change s.takeInterest.Inv codec at hinv
    rw [heq] at hinv ⊢
    refine ⟨hinv, h.member, h.handled, ?_⟩
    intro site' d rest head hsent
    cases hsent
    exact .inl h.member
  | deliver projected =>
  rcases deliver_cases codec s projected with
    hquiet | ⟨site, d, entry, rest, head, d', frame, hphase, hthrs, heq⟩
  · exact h.quiet hquiet hinv hmem
  -- The entry lies in a page, so its cursor is not above the page's head.
  have hcurs : entry.1 ≤ head := by
    have hsent := h.inv.phase
    rw [hphase] at hsent
    obtain ⟨start, _, hle, hhead, hrest⟩ := hsent
    have hentry := (numbered_le (hrest ▸ mem_cons_self)).2
    rw [length_slice hhead] at hentry
    omega
  change Follows codec thread since (s.deliver codec projected)
  change (s.deliver codec projected).Inv codec at hinv
  rw [heq] at hinv ⊢
  refine ⟨hinv, h.member, ?_, ?_⟩
  · intro e he hlt
    rcases mem_append.mp he with hold | hnew
    · exact h.handled e hold hlt
    rw [mem_singleton.mp hnew] at hlt ⊢
    rcases h.sending site d _ head hphase with hthr | hbelow
    · exact hthr
    · change since < entry.1 at hlt
      omega
  intro site' d₁ rest' head' hsent
  cases hsent
  rw [hthrs]
  exact h.sending site d _ head hphase

/-- An entry of the thread behind the point where it was followed is sent exactly once. -/
lemma sent (h : Follows codec thread since s) {start k : Nat} {bytes : Store.Payload} {value : Json}
    (hstart : s.trace.start = some start) (hsince : since < k) (hafter : start < k)
    (hhandled : k ≤ start + s.trace.handled.length) (hget : s.journal.log[k - 1]? = some bytes)
    (hparse : codec.parse bytes = some value) (hpatch : patchThread value = some thread) :
    (s.trace.frames.filterMap StreamFrame.eventCursor).count k = 1 := by
  rcases h.inv.phase.stream with hempty | ⟨start', position, hstr⟩
  · rw [hempty] at hstart
    exact absurd hstart (by simp [Trace.empty])
  obtain rfl : start' = start := Option.some.inj (hstr.start_eq.symm.trans hstart)
  have hentry : (k, bytes) ∈ s.trace.handled.map Handled.entry := by
    rw [hstr.handled, mem_numbered]
    refine ⟨hafter, ?_⟩
    have hindex : start' + (k - start' - 1) = k - 1 := by omega
    rw [getElem?_slice (by omega), hindex]
    exact hget
  obtain ⟨e, he, heq⟩ := mem_map.mp hentry
  obtain ⟨rfl, rfl⟩ := Prod.mk.inj heq
  have hacc : e.accepted codec = true := by
    unfold Handled.accepted
    rw [hparse]
    exact deliversTo_of_mem hpatch (h.handled e he hsince)
  rw [hstr.events]
  refine count_eq_one_of_mem hstr.nodup_sent ?_
  exact mem_map_of_mem (mem_filter.mpr ⟨he, hacc⟩)

end Follows

lemma trace_sessionMessage_none (s : Socket) (message : Json) :
    (s.sessionMessage none message).trace = s.trace := by
  unfold sessionMessage
  split
  · rfl
  split
  · unfold snapshotApplied
    split
    · rfl
    · rw [if_pos (by simp)]
      rfl
  split
  · unfold interestFrame
    split <;> rfl
  · split
    · split <;> rfl
    · split <;> rfl

lemma start_step (h : s.Inv codec) {start : Nat} (hstart : s.trace.start = some start)
    (input : SocketInput) : (s.step codec input).trace.start = some start := by
  have hphase := h.phase
  have hne : s.trace ≠ Trace.empty := by
    intro hempty
    rw [hempty] at hstart
    exact absurd hstart (by simp [Trace.empty])
  cases input with
  | journal op | drop => exact hstart
  | receive message =>
    change (s.receive message).trace.start = some start
    unfold receive
    split
    · rename_i heq
      rw [heq] at hphase
      exact absurd hphase hne
    · rename_i cursor heq
      rw [heq] at hphase
      exact absurd hphase hne
    · rw [trace_sessionMessage_none]
      exact hstart
    · rw [trace_sessionMessage_none]
      exact hstart
    · rw [trace_sessionMessage_none]
      exact hstart
    · exact hstart
  | signal sig =>
    have htrace : (s.signal sig).trace = s.trace := by
      unfold signal readLive
      cases sig <;> dsimp only <;> split <;> (try split) <;> (try split) <;> rfl
    change (s.signal sig).trace.start = some start
    rw [htrace]
    exact hstart
  | takeInterest =>
    change s.takeInterest.trace.start = some start
    unfold takeInterest
    split
    · exact hstart
    · exact hstart
  | deliver projected =>
  change (s.deliver codec projected).trace.start = some start
  unfold deliver
  split
  · unfold deliverEntry
    split
    · exact hstart
    split
    · split
      · exact hstart
      · exact hstart
    · exact hstart
  · exact hstart
  · exact hstart

def OfLiveTask : SocketInput → Prop
  | .signal _ => True
  | .takeInterest => True
  | .deliver _ => True
  | _ => False

/-- A wake-up at a head, the interest of the page, and the replay projector's answers. -/
def liveTurn (head : Nat) (values : List Json) : List SocketInput :=
  .signal (.committed head) :: .takeInterest :: values.map (fun value => .deliver (some value))

lemma ofLiveTask_liveTurn (head : Nat) (values : List Json) :
    ∀ input ∈ liveTurn head values, OfLiveTask input := by
  intro input hinput
  rcases mem_cons.mp hinput with rfl | hinput
  · trivial
  rcases mem_cons.mp hinput with rfl | hinput
  · trivial
  · obtain ⟨value, -, rfl⟩ := mem_map.mp hinput
    trivial

lemma headFits_of_liveTask (hinput : OfLiveTask input) : s.HeadFits codec input := by
  cases input with
  | journal op => exact absurd hinput (by simp [OfLiveTask])
  | _ => trivial

lemma interest_step_of_liveTask (hinput : OfLiveTask input) :
    (s.step codec input).interest = s.interest := by
  cases input with
  | journal op | drop => rfl
  | receive message => exact absurd hinput (by simp [OfLiveTask])
  | signal sig =>
    change (s.signal sig).interest = s.interest
    unfold signal readLive
    cases sig <;> dsimp only <;> split <;> (try split) <;> (try split) <;> rfl
  | takeInterest =>
    change s.takeInterest.interest = s.interest
    unfold takeInterest
    split <;> rfl
  | deliver projected =>
  change (s.deliver codec projected).interest = s.interest
  unfold deliver deliverEntry finishPage
  split <;> (try split) <;> (try split) <;> (try split) <;> rfl

variable {inputs : List SocketInput}

lemma start_liveTask (h : s.Inv codec) {start : Nat} (hstart : s.trace.start = some start)
    (hinputs : ∀ input ∈ inputs, OfLiveTask input) :
    (exec (Socket.step codec) s inputs).trace.start = some start := by
  induction inputs generalizing s with
  | nil => exact hstart
  | cons input rest ih =>
  have hinput := hinputs input mem_cons_self
  exact ih (h.step (headFits_of_liveTask hinput)) (start_step h hstart input)
    (fun input' hmem => hinputs input' (mem_cons_of_mem _ hmem))

lemma Follows.liveTask {thread : String} {since : Nat} (h : Follows codec thread since s)
    (hinputs : ∀ input ∈ inputs, OfLiveTask input) :
    Follows codec thread since (exec (Socket.step codec) s inputs) ∧
      (exec (Socket.step codec) s inputs).journal = s.journal := by
  induction inputs generalizing s with
  | nil => exact ⟨h, rfl⟩
  | cons input rest ih =>
  have hinput := hinputs input mem_cons_self
  have hmem : thread ∈ (s.step codec input).interest.threads := by
    rw [interest_step_of_liveTask hinput]
    exact h.member
  have hjnl : (s.step codec input).journal = s.journal := by
    apply journal_step
    intro op heq
    rw [heq] at hinput
    exact hinput
  obtain ⟨hfol, hsame⟩ := ih (h.step (headFits_of_liveTask hinput) hmem)
    (fun input' hmem' => hinputs input' (mem_cons_of_mem _ hmem'))
  exact ⟨hfol, hsame.trans hjnl⟩

variable {rest : List (Nat × Store.Payload)}

lemma deliver_entry {site : Site} {d : ReplayDelivery} {entry : Nat × Store.Payload}
    {head : Nat} (hphase : s.phase = .sending site d (entry :: rest) head)
    (hdec : (codec.parse entry.2).isSome) (value : Json) :
    ∃ d', (s.deliver codec (some value)).phase = .sending site d' rest head := by
  obtain ⟨payload, hparse⟩ := Option.isSome_iff_exists.mp hdec
  unfold deliver
  rw [hphase]
  dsimp only
  unfold deliverEntry
  rw [hparse]
  dsimp only
  split
  · exact ⟨_, rfl⟩
  · exact ⟨_, rfl⟩

lemma deliver_page {site : Site} {d : ReplayDelivery} {head : Nat}
    {values : List Json} (h : s.Inv codec) (hphase : s.phase = .sending site d rest head)
    (hdec : ∀ entry ∈ rest, (codec.parse entry.2).isSome)
    (hvals : values.length = rest.length + 1) :
    (exec (Socket.step codec) s (values.map (fun value => .deliver (some value)))).phase =
      .live head := by
  induction rest generalizing s d values with
  | nil =>
    obtain ⟨value, rfl⟩ := length_eq_one_iff.mp hvals
    have hsent := h.phase
    rw [hphase] at hsent
    obtain ⟨start, hstr, hle, hhead, hrest⟩ := hsent
    obtain rfl := Inv.handled_all hle hhead hrest
    obtain ⟨hcurs, -⟩ := hstr.finish d.threads
    change (s.deliver codec (some value)).phase = _
    unfold deliver
    rw [hphase]
    change Phase.live (site.resume _ (d.advanceFrame _).2.position.cursor) = _
    rw [hcurs, Site.resume_self]
  | cons entry rest ih =>
  cases values with
  | nil => exact absurd hvals (by simp)
  | cons value values =>
  obtain ⟨d', hnext⟩ := deliver_entry hphase (hdec entry mem_cons_self) value
  have hlen : values.length = rest.length + 1 := by
    rw [length_cons, length_cons] at hvals
    omega
  change (exec (step codec) (s.deliver codec (some value))
    (values.map (fun value => .deliver (some value)))).phase = _
  exact ih (h.deliver (some value)) hnext (fun e he => hdec e (mem_cons_of_mem _ he)) hlen

lemma live_turn {delivered : Nat} {values : List Json} (h : s.Inv codec)
    (hlive : s.phase = .live delivered) (hbehind : delivered < s.journal.store.head)
    (hfresh : (replayAfter s.journal.store (some delivered)).snapshotRequired = false)
    (hdec : ∀ bytes ∈ s.journal.log, (codec.parse bytes).isSome)
    (hvals : values.length = s.journal.store.head - delivered + 1) :
    (exec (Socket.step codec) s (liveTurn s.journal.store.head values)).phase =
      .live s.journal.store.head := by
  obtain ⟨hle, hhead, hent⟩ := h.page hfresh
  have hlog := h.journal.head
  have hread : s.signal (.committed s.journal.store.head) =
      { s with phase := .page .live delivered (replayAfter s.journal.store (some delivered)) } := by
    unfold signal
    rw [hlive]
    dsimp only
    rw [if_neg (by omega)]
    unfold readLive
    dsimp only
    rw [hfresh]
    rfl
  have htaken := (h.signal (.committed s.journal.store.head)).takeInterest
  change (exec (step codec) (s.signal (.committed s.journal.store.head)).takeInterest
    (values.map (fun value => .deliver (some value)))).phase = _
  rw [hread] at htaken ⊢
  refine deliver_page htaken rfl ?_ ?_
  · intro entry hentry
    apply hdec
    change entry ∈ (replayAfter s.journal.store (some delivered)).entries at hentry
    rw [hent] at hentry
    have hbytes : entry.2 ∈ (numbered delivered
        (slice s.journal.log delivered s.journal.log.length)).map Prod.snd :=
      mem_map_of_mem hentry
    rw [map_snd_numbered, slice_length] at hbytes
    exact mem_of_mem_drop hbytes
  · rw [hent, length_numbered, length_slice le_rfl]
    omega

end Socket

end CodeWide.Sync
