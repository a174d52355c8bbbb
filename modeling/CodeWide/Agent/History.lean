import CodeWide.Lib.Run
import Mathlib.Data.List.Nodup
import Mathlib.Data.String.Basic
import Mathlib.Logic.Function.Basic

/-!
# Provider-owned history of a thread

The finished turns of a thread as a client comes to hold them, from syncs and from older pages.
-/

namespace CodeWide.Agent.History

open List

inductive TurnStatus where
  | inProgress
  | completed
  | interrupted
  | failed
  deriving DecidableEq

structure AgentTurn (α : Type) where
  turnId : String
  status : TurnStatus
  content : α

variable {α : Type}

def isImmutable (turn : AgentTurn α) : Bool := decide (turn.status ≠ .inProgress)

def maxTurnsPage : Nat := 200

def pageStart (ordered : List (AgentTurn α)) : Option String → Option Nat
  | none => some 0
  | some cursor => (ordered.findIdx? (fun turn => decide (turn.turnId = cursor))).map (· + 1)

/-- The turns behind the cursor and the cursor of the next page; none for an unknown cursor. -/
def pageTurns (turns : List (AgentTurn α)) (cursor : Option String) (limit : Nat)
    (descending : Bool) : Option (List (AgentTurn α) × Option String) := do
  let ordered := if descending then turns.reverse else turns
  let start ← pageStart ordered cursor
  let size := max 1 (min limit maxTurnsPage)
  let page := (ordered.drop start).take size
  some (page, if start + size < ordered.length then page.getLast?.map (·.turnId) else none)

def maxPageSize : Nat := 100

def page (turns : List (AgentTurn α)) (anchorTurn : String) (limit : Nat) (before : Bool) :
    Option (List (AgentTurn α) × Bool) := do
  guard (anchorTurn ≠ "" ∧ 1 ≤ limit ∧ limit ≤ maxPageSize)
  let result ← pageTurns turns (some anchorTurn) (limit + 1) before
  let found := (result.1.filter isImmutable).take (limit + 1)
  let kept := found.take limit
  some (if before then kept.reverse else kept,
    decide (limit < found.length) || decide (found.length = limit) && result.2.isSome)

structure Latest (α : Type) where
  turns : List (AgentTurn α)
  headTurnId : Option String
  olderCursor : Option String

def latest (turns : List (AgentTurn α)) (limit : Nat) : Option (Latest α) := do
  let result ← pageTurns turns none (limit + 1) true
  let found := result.1.filter isImmutable
  let head := found.head?.map (·.turnId)
  if limit < found.length ∨ result.2.isSome then
    some ⟨(found.take limit).reverse, head, (found.take limit).getLast?.map (·.turnId)⟩
  else some ⟨found.reverse, head, none⟩

def sourceWitness : String := "codewide-agent-history-v4"

inductive HistoryKind where
  | reset
  | current
  | delta

/-- The `history` object of a sync answer; its `hasMore` is always false. -/
structure SyncHistory (α : Type) where
  kind : HistoryKind
  headTurnId : Option String
  turns : List (AgentTurn α)
  olderCursor : Option String
  sourceWitness : String

section Sync

-- the digest of the newest finished turn, or of nothing
variable (digest : Option (AgentTurn α) → String)

def turnWitness (turn : Option (AgentTurn α)) : String := sourceWitness ++ ":" ++ digest turn

def currentProjection (witness : Option String) : Bool :=
  match witness with
  | none => true
  | some witness =>
    let rest := witness.toList.drop sourceWitness.length
    decide (sourceWitness.toList <+: witness.toList) && (rest.isEmpty || rest.head? == some ':')

def syncHistory (latest : Latest α) (afterTurnId witness : Option String) : SyncHistory α :=
  let turns := latest.turns
  let own := turnWitness digest turns.getLast?
  let anchor := afterTurnId.bind
    fun after => turns.findIdx? (fun turn => decide (turn.turnId = after))
  match anchor.filter (fun _ => currentProjection witness) with
  | none => ⟨.reset, latest.headTurnId, turns, latest.olderCursor, own⟩
  | some anchor =>
    let unchanged := witness = some (turnWitness digest turns[anchor]?)
    let changed := turns.drop (if unchanged then anchor + 1 else anchor)
    ⟨if changed.isEmpty then .current else .delta, latest.headTurnId, changed, none, own⟩

/-- What a client holds of a thread: finished turns, where older ones are, and its last witness. -/
structure Client (α : Type) where
  turns : List (AgentTurn α)
  olderCursor : Option String
  sourceWitness : Option String

def Client.empty : Client α := ⟨[], none, none⟩

def putTurn (turns : List (AgentTurn α)) (turn : AgentTurn α) : List (AgentTurn α) :=
  if turns.any (fun held => decide (held.turnId = turn.turnId)) then
    turns.map (fun held => if held.turnId = turn.turnId then turn else held)
  else turns ++ [turn]

def Client.apply (client : Client α) (answer : SyncHistory α) : Client α :=
  match answer.kind with
  | .reset => ⟨answer.turns, answer.olderCursor, some answer.sourceWitness⟩
  | _ => ⟨answer.turns.foldl putTurn client.turns, client.olderCursor, some answer.sourceWitness⟩

/-- `companion/thread/sync` of a client whose anchor is the newest turn it holds. -/
def Client.sync (client : Client α) (turns : List (AgentTurn α)) (limit : Nat) :
    Option (Client α) := do
  let latest ← latest turns (max 1 (min limit 100))
  some (client.apply (syncHistory digest latest
    (client.turns.getLast?.map (·.turnId)) client.sourceWitness))

end Sync

def readOlder (turns : List (AgentTurn α)) (limit : Nat) : Nat → Option String →
    Option (List (AgentTurn α))
  | _, none => some []
  | 0, some _ => none
  | fuel + 1, some cursor => do
    let (data, hasMore) ← page turns cursor limit true
    let older ← readOlder turns limit fuel (if hasMore then data.head?.map (·.turnId) else none)
    some (older ++ data)

/-- The turns of a thread: only the newest can be active. -/
structure TurnHistory (α : Type) where
  finished : List (AgentTurn α)
  active : Option (AgentTurn α)
  immutable : ∀ turn ∈ finished, isImmutable turn = true
  running : ∀ turn ∈ active, isImmutable turn = false
  ids : ((finished ++ active.toList).map (·.turnId)).Nodup
  named : ∀ turn ∈ finished, turn.turnId ≠ ""

def TurnHistory.turns (h : TurnHistory α) : List (AgentTurn α) := h.finished ++ h.active.toList

/-- Turns are appended, and only the one that was the newest finished may change. -/
def Follows (old new : TurnHistory α) : Prop :=
  old.finished = [] ∨ ∃ kept last last' later, old.finished = kept ++ [last] ∧
    new.finished = kept ++ last' :: later ∧ last'.turnId = last.turnId

/-! ## The pages of a history -/

def TurnHistory.newest (h : TurnHistory α) (limit : Nat) : List (AgentTurn α) :=
  h.finished.drop (h.finished.length - limit)

def TurnHistory.cursor (h : TurnHistory α) (limit : Nat) : Option String :=
  if limit < h.finished.length then (h.newest limit).head?.map (·.turnId) else none

variable {h old new : TurnHistory α} {limit : Nat} {turn last last' : AgentTurn α}
  {front back older newer later turns : List (AgentTurn α)}

/-- There is a next page exactly if turns are left behind the page. -/
lemma pageTurns_eq (turns : List (AgentTurn α)) {cursor : Option String} {start : Nat}
    (hstart : pageStart turns.reverse cursor = some start) (hlimit : limit ≤ 100) :
    ∃ next, pageTurns turns cursor (limit + 1) true =
        some ((turns.reverse.drop start).take (limit + 1), next) ∧
      (next.isSome = true ↔ start + (limit + 1) < turns.length) := by
  have hsize : max 1 (min (limit + 1) maxTurnsPage) = limit + 1 := by
    unfold maxTurnsPage
    omega
  refine ⟨if start + (limit + 1) < turns.length then
    ((turns.reverse.drop start).take (limit + 1)).getLast?.map (·.turnId) else none, ?_, ?_⟩
  · unfold pageTurns
    rw [hsize]
    simp only [if_true, hstart, Option.bind_eq_bind, Option.bind_some, length_reverse]
  split
  · next hlt =>
    have hne : (turns.reverse.drop start).take (limit + 1) ≠ [] := by
      intro hnil
      have := congrArg length hnil
      rw [length_take, length_drop, length_reverse, length_nil] at this
      omega
    rw [getLast?_eq_some_getLast hne]
    exact iff_of_true rfl hlt
  · next hge => exact iff_of_false Bool.false_ne_true hge

lemma latest_spec (h : TurnHistory α) (hpos : 1 ≤ limit) (hlimit : limit ≤ 100) :
    ∃ head, latest h.turns limit = some ⟨h.newest limit, head, h.cursor limit⟩ := by
  obtain ⟨next, hpage, hnext⟩ := pageTurns_eq h.turns (rfl : pageStart _ none = some 0) hlimit
  have hone : h.active.toList.length ≤ 1 := by cases h.active <;> simp
  have hfound : (h.turns.reverse.take (limit + 1)).filter isImmutable =
      h.finished.reverse.take (limit + 1 - h.active.toList.length) := by
    have hall : ∀ n, (h.finished.reverse.take n).filter isImmutable = h.finished.reverse.take n :=
      fun n => filter_eq_self.mpr
        (fun turn hmem => h.immutable turn (mem_reverse.mp (mem_of_mem_take hmem)))
    unfold TurnHistory.turns
    cases hact : h.active with
    | none => simpa using hall (limit + 1)
    | some turn => simpa [h.running turn hact] using hall limit
  have hkept : (h.finished.reverse.take (limit + 1 - h.active.toList.length)).take limit =
      h.finished.reverse.take limit := by
    rw [take_take, Nat.min_eq_left (by omega)]
  have hdrop : (h.finished.reverse.take limit).reverse = h.newest limit := by
    rw [reverse_take, reverse_reverse, length_reverse]
    rfl
  have hlen : h.turns.length = h.finished.length + h.active.toList.length := length_append
  unfold latest TurnHistory.cursor
  simp only [hpage, Option.bind_eq_bind, Option.bind_some, drop_zero, Nat.zero_add, hfound, hkept,
    hdrop, length_take, length_reverse, hnext, hlen]
  by_cases hover : limit < h.finished.length
  · rw [if_pos (by omega), if_pos hover, ← hdrop, head?_reverse]
    exact ⟨_, rfl⟩
  · rw [if_neg (by omega), if_neg hover, take_of_length_le (by rw [length_reverse]; omega),
      reverse_reverse, TurnHistory.newest, show h.finished.length - limit = 0 by omega, drop_zero]
    exact ⟨_, rfl⟩

lemma findIdx?_split
    (hsplit : turns = front ++ turn :: back) (hids : (turns.map (·.turnId)).Nodup) :
    turns.findIdx? (fun other => decide (other.turnId = turn.turnId)) = some front.length := by
  subst hsplit
  rw [map_append, map_cons, nodup_middle, nodup_cons, ← map_append] at hids
  rw [findIdx?_append, findIdx?_eq_none_iff.mpr, findIdx?_cons]
  · simp
  · intro other hmem
    refine decide_eq_false (fun heq => hids.1 (heq ▸ ?_))
    exact mem_map_of_mem (mem_append_left _ hmem)

/-- An older page is the turns in front of the cursor, as many as fit. -/
lemma page_spec
    (hsplit : h.finished = older ++ turn :: newer) (hpos : 1 ≤ limit) (hlimit : limit ≤ 100) :
    page h.turns turn.turnId limit true =
      some (older.drop (older.length - limit), decide (limit < older.length)) := by
  have hturns : h.turns.reverse = (newer ++ h.active.toList).reverse ++ turn :: older.reverse := by
    rw [TurnHistory.turns, hsplit]
    simp
  have hids : (h.turns.reverse.map (·.turnId)).Nodup := by
    rw [map_reverse, nodup_reverse]
    exact h.ids
  have hstart : pageStart h.turns.reverse (some turn.turnId) =
      some ((newer ++ h.active.toList).reverse.length + 1) :=
    congrArg (Option.map (· + 1)) (findIdx?_split hturns hids)
  obtain ⟨next, hpage, hnext⟩ := pageTurns_eq h.turns hstart hlimit
  have hrest : h.turns.reverse.drop ((newer ++ h.active.toList).reverse.length + 1) =
      older.reverse := by
    rw [hturns, drop_append]
    simp
  have hlen : h.turns.length = older.length + 1 + (newer ++ h.active.toList).reverse.length := by
    have := congrArg length hturns
    simp only [length_reverse, length_append, length_cons] at this ⊢
    omega
  have hfound : (older.reverse.take (limit + 1)).filter isImmutable =
      older.reverse.take (limit + 1) := by
    refine filter_eq_self.mpr (fun other hmem => h.immutable other ?_)
    rw [hsplit]
    exact mem_append_left _ (mem_reverse.mp (mem_of_mem_take hmem))
  have hnamed : turn.turnId ≠ "" :=
    h.named turn (hsplit ▸ mem_append_right _ mem_cons_self)
  unfold page
  rw [hpage, hrest]
  rw [guard, if_pos ⟨hnamed, hpos, hlimit⟩]
  simp only [Option.pure_def, Option.bind_eq_bind, Option.bind_some, hfound, take_take, length_take,
    length_reverse, if_true]
  rw [show min (min limit (limit + 1)) (limit + 1) = limit by omega, reverse_take, reverse_reverse,
    length_reverse]
  by_cases hover : limit < older.length
  · rw [decide_eq_true (by omega), decide_eq_true hover]
    rfl
  · have hlast : next.isSome = false :=
      Bool.eq_false_iff.mpr (fun hsome => by have := hnext.mp hsome; omega)
    rw [hlast, Bool.and_false, decide_eq_false (by omega), decide_eq_false hover]
    rfl

/-- The pages behind the cursor give what is older, each turn once. -/
lemma readOlder_spec (hpos : 1 ≤ limit) (hlimit : limit ≤ 100) {fuel : Nat}
    (hsplit : h.finished = older ++ turn :: newer) (hfuel : older.length ≤ fuel) :
    readOlder h.turns limit fuel (if 0 < older.length then some turn.turnId else none) =
      some older := by
  induction fuel generalizing older newer turn with
  | zero =>
    rw [length_eq_zero_iff.mp (Nat.le_zero.mp hfuel)]
    rfl
  | succ fuel ih =>
  by_cases hlen : 0 < older.length
  · rw [if_pos hlen, readOlder, page_spec hsplit hpos hlimit]
    obtain ⟨first, rest, hdata⟩ := exists_cons_of_length_pos
      (show 0 < (older.drop (older.length - limit)).length by rw [length_drop]; omega)
    have hstep := @ih first (older.take (older.length - limit)) (rest ++ turn :: newer)
      (by rw [hsplit, ← cons_append, ← append_assoc, ← hdata, take_append_drop])
      (by rw [length_take]; omega)
    have hmore : 0 < (older.take (older.length - limit)).length ↔ limit < older.length := by
      rw [length_take]
      omega
    simp only [hmore] at hstep
    simp only [Option.bind_eq_bind, Option.bind_some, decide_eq_true_eq, hdata, head?_cons,
      Option.map_some, hstep]
    rw [← hdata, take_append_drop]
  · rw [if_neg hlen, length_eq_zero_iff.mp (Nat.le_zero.mp (Nat.not_lt.mp hlen))]
    rfl

/-! ## What a client holds -/

variable {digest : Option (AgentTurn α) → String} {client : Client α}

/-- The client holds the newest finished turns, and its cursor and witness are theirs. -/
structure Holds (digest : Option (AgentTurn α) → String) (h : TurnHistory α)
    (client : Client α) : Prop where
  newest : client.turns <:+ h.finished
  cursor : client.olderCursor =
    if client.turns.length < h.finished.length then client.turns.head?.map (·.turnId) else none
  witness : ∀ turn, client.turns.getLast? = some turn →
    client.sourceWitness = some (turnWitness digest (some turn))

lemma Holds.empty : Holds digest h Client.empty where
  newest := nil_suffix
  cursor := by split <;> rfl
  witness := fun turn hlast => by cases hlast

lemma currentProjection_turnWitness (turn : Option (AgentTurn α)) :
    currentProjection (some (turnWitness digest turn)) = true := by
  unfold currentProjection turnWitness
  simp [String.toList_append, String.length]

lemma turnWitness_inj {own other : Option (AgentTurn α)}
    (heq : turnWitness digest own = turnWitness digest other) : digest own = digest other := by
  have := congrArg String.toList heq
  simp only [turnWitness, String.toList_append] at this
  exact String.toList_inj.mp (append_cancel_left this)

lemma putTurn_new
    (hnew : ∀ held ∈ turns, held.turnId ≠ turn.turnId) : putTurn turns turn = turns ++ [turn] := by
  unfold putTurn
  rw [if_neg (by simpa using hnew)]

lemma foldl_putTurn_new (hids : ((turns ++ later).map (·.turnId)).Nodup) :
    later.foldl putTurn turns = turns ++ later := by
  induction later generalizing turns with
  | nil => rw [append_nil, foldl_nil]
  | cons turn rest ih =>
  have hnew : ∀ held ∈ turns, held.turnId ≠ turn.turnId := by
    intro held hmem heq
    rw [map_append, map_cons, nodup_middle, nodup_cons, ← map_append] at hids
    exact hids.1 (heq ▸ mem_map_of_mem (mem_append_left _ hmem))
  rw [foldl_cons, putTurn_new hnew, ih (by rwa [append_assoc]), append_assoc]
  rfl

lemma putTurn_last
    (hid : turn.turnId = last.turnId) (hnew : ∀ held ∈ front, held.turnId ≠ last.turnId) :
    putTurn (front ++ [last]) turn = front ++ [turn] := by
  unfold putTurn
  rw [if_pos (by simp [hid]), map_append, map_congr_left (g := id)]
  · simp [hid]
  · intro held hmem
    rw [hid, if_neg (hnew held hmem)]
    rfl

lemma split_unique {front' back' : List (AgentTurn α)} {turn' : AgentTurn α}
    (hids : ((front ++ turn :: back).map (·.turnId)).Nodup) (hid : turn'.turnId = turn.turnId)
    (heq : front ++ turn :: back = front' ++ turn' :: back') :
    front = front' ∧ turn = turn' ∧ back = back' := by
  rw [map_append, map_cons, nodup_middle, nodup_cons, mem_append] at hids
  refine (append_cons_inj_of_notMem ?_ ?_).mp heq
  · exact fun hmem => hids.1 (.inl (hid ▸ mem_map_of_mem hmem))
  · exact fun hmem => hids.1 (.inr (hid ▸ mem_map_of_mem hmem))

lemma holds_reset (digest : Option (AgentTurn α) → String) (h : TurnHistory α) (hpos : 1 ≤ limit) :
    Holds digest h ⟨h.newest limit, h.cursor limit,
      some (turnWitness digest (h.newest limit).getLast?)⟩ ∧
    (h.finished ≠ [] → h.newest limit ≠ []) := by
  have hlen : (h.newest limit).length = _ := length_drop
  refine ⟨⟨drop_suffix .., ?_, fun turn hlast => by rw [hlast]⟩, fun hne hnil => ?_⟩
  · have hmore : (h.newest limit).length < h.finished.length ↔ limit < h.finished.length := by
      omega
    simp only [TurnHistory.cursor, hmore]
  · have := length_pos_of_ne_nil hne
    rw [hnil, length_nil] at hlen
    omega

/-- What is sent behind the anchor, with it if it has changed, brings the client up to date. -/
lemma holds_delta {pre changed : List (AgentTurn α)} (hold : Holds digest old client)
    (hcli : client.turns = pre ++ [last]) (hold' : old.finished = (front ++ pre) ++ [last])
    (hnew : new.finished = (front ++ pre) ++ last' :: later) (hid : last'.turnId = last.turnId)
    (hchg : changed = last' :: later ∨ changed = later ∧ last = last') :
    Holds digest new ⟨changed.foldl putTurn client.turns, client.olderCursor,
      some (turnWitness digest (last' :: later).getLast?)⟩ ∧
    changed.foldl putTurn client.turns ≠ [] := by
  have hids : (((pre ++ [last']) ++ later).map (·.turnId)).Nodup := by
    have := (map_append .. ▸ new.ids).of_append_left
    rw [hnew, append_assoc, map_append] at this
    rw [append_assoc]
    exact this.of_append_right
  have hturns : changed.foldl putTurn client.turns = pre ++ last' :: later := by
    have hlater := foldl_putTurn_new hids
    rw [append_assoc] at hlater
    rcases hchg with rfl | ⟨rfl, rfl⟩
    · rw [hcli, foldl_cons, putTurn_last hid, hlater]
      · rfl
      · intro held hmem heq
        rw [append_assoc, map_append] at hids
        exact disjoint_of_nodup_append hids (mem_map_of_mem hmem) (heq ▸ hid ▸ mem_cons_self)
    · rw [hcli, hlater]
      rfl
  rw [hturns]
  refine ⟨⟨⟨front, by rw [hnew, append_assoc]⟩, ?_, fun turn hlast => ?_⟩, by simp⟩
  · rw [hold.cursor, hcli, hold', hnew]
    simp only [length_append, length_cons, length_nil]
    have hmore : pre.length + (0 + 1) < front.length + pre.length + (0 + 1) ↔
      pre.length + (later.length + 1) < front.length + pre.length + (later.length + 1) := by omega
    simp only [hmore]
    cases pre <;> simp [hid]
  · rw [getLast?_append_of_ne_nil _ (cons_ne_nil _ _)] at hlast
    rw [hlast]

lemma apply_changed (client : Client α) (empty : Bool) (head : Option String)
    (changed : List (AgentTurn α)) (own : String) :
    client.apply ⟨if empty = true then .current else .delta, head, changed, none, own⟩ =
      ⟨changed.foldl putTurn client.turns, client.olderCursor, some own⟩ := by
  cases empty <;> rfl

lemma sync_spec (hinj : Function.Injective digest)
    (hfol : Follows old new) (hold : Holds digest old client) (window : Nat) :
    ∃ client', client.sync digest new.turns window = some client' ∧ Holds digest new client' ∧
      (new.finished ≠ [] → client'.turns ≠ []) := by
  obtain ⟨limit, hlimit⟩ : ∃ limit, limit = max 1 (min window 100) := ⟨_, rfl⟩
  obtain ⟨head, hlat⟩ := latest_spec new (show 1 ≤ limit by omega) (by omega)
  have hreset := holds_reset digest new (show 1 ≤ limit by omega)
  unfold Client.sync
  rw [← hlimit, hlat]
  simp only [Option.bind_eq_bind, Option.bind_some]
  refine ⟨_, rfl, ?_⟩
  rcases eq_nil_or_concat client.turns with hnil | ⟨pre, last, hcli⟩
  · rw [hnil]
    exact hreset
  obtain ⟨front, hfront⟩ := hold.newest
  rcases hfol with hempty | ⟨kept, last₀, last', later, hold', hnew, hid⟩
  · rw [hempty, hcli] at hfront
    simp at hfront
  rw [concat_eq_append] at hcli
  rw [hcli, hold', ← append_assoc] at hfront
  obtain ⟨rfl, hlast⟩ := append_inj' hfront rfl
  cases hlast
  have hwitness := hold.witness last (by rw [hcli, getLast?_concat])
  unfold syncHistory
  rw [hcli, getLast?_concat, hwitness]
  simp only [Option.map_some, Option.bind_some, currentProjection_turnWitness]
  cases hanchor : (new.newest limit).findIdx? (fun turn => decide (turn.turnId = last.turnId)) with
  | none => exact hreset
  | some i =>
  obtain ⟨hi, hat, -⟩ := findIdx?_eq_some_iff_getElem.mp hanchor
  have hids := (map_append .. ▸ new.ids).of_append_left
  rw [hnew] at hids
  have hsplit : (front ++ pre) ++ last' :: later =
      (new.finished.take (new.finished.length - limit) ++ (new.newest limit).take i) ++
        (new.newest limit)[i] :: (new.newest limit).drop (i + 1) := by
    rw [append_assoc (take ..), ← drop_eq_getElem_cons hi, take_append_drop,
      TurnHistory.newest, take_append_drop, hnew]
  obtain ⟨-, hturn, hlater⟩ :=
    split_unique hids ((of_decide_eq_true hat).trans hid.symm) hsplit
  have hdrop : (new.newest limit).drop i = last' :: later := by
    rw [drop_eq_getElem_cons hi, ← hturn, ← hlater]
  have hlast : (new.newest limit).getLast? = (last' :: later).getLast? := by
    have := getLast?_append_of_ne_nil ((new.newest limit).take i) (cons_ne_nil last' later)
    rwa [← hdrop, take_append_drop, hdrop] at this
  simp only [Option.filter_some, if_true, getElem?_eq_getElem hi, ← hturn, hlast]
  rw [apply_changed]
  refine (holds_delta hold hcli hold' hnew hid ?_).imp_right (fun h _ => h)
  split
  · next hsame =>
    refine .inr ⟨hlater.symm, ?_⟩
    exact Option.some.inj (hinj (turnWitness_inj (Option.some.inj hsame)))
  · exact .inl hdrop

def syncAll (digest : Option (AgentTurn α) → String) (client : Client α) :
    List (TurnHistory α × Nat) → Option (Client α)
  | [] => some client
  | (h, window) :: rest => (client.sync digest h.turns window).bind (syncAll digest · rest)

lemma Follows.refl (h : TurnHistory α) : Follows h h := by
  rcases eq_nil_or_concat h.finished with hnil | ⟨kept, last, heq⟩
  · exact .inl hnil
  · rw [concat_eq_append] at heq
    exact .inr ⟨kept, last, last, [], heq, heq, rfl⟩

lemma syncAll_spec (hinj : Function.Injective digest) {visits : List (TurnHistory α × Nat)}
    {seen : TurnHistory α × Nat}
    (hsteps : (seen :: visits).IsChain (fun a b => Follows a.1 b.1))
    (hold : Holds digest old client) (hfirst : Follows old seen.1) :
    ∃ client', syncAll digest client (seen :: visits) = some client' ∧
      ∀ last, (seen :: visits).getLast? = some last → Holds digest last.1 client' ∧
        (last.1.finished ≠ [] → client'.turns ≠ []) := by
  obtain ⟨client', hsync, hholds, hsome⟩ := sync_spec hinj hfirst hold seen.2
  rw [syncAll, hsync, Option.bind_some]
  induction visits generalizing old seen client client' with
  | nil =>
    refine ⟨client', rfl, fun last hlast => ?_⟩
    cases hlast
    exact ⟨hholds, hsome⟩
  | cons next rest ih =>
  obtain ⟨hfol, hrest⟩ := isChain_cons_cons.mp hsteps
  obtain ⟨later, hsync', hholds', hsome'⟩ := sync_spec hinj hfol hholds next.2
  rw [syncAll, hsync', Option.bind_some]
  obtain ⟨final, hrun, hfinal⟩ := ih hrest hholds hfol later hsync' hholds' hsome'
  exact ⟨final, hrun, fun last hlast => hfinal last (by rwa [getLast?_cons_cons] at hlast)⟩

/-- A client holds the newest finished turns, and its cursor leads to all older ones, each once. -/
theorem history_sync_converges (digest : Option (AgentTurn α) → String)
    (hinj : Function.Injective digest) (visits : List (TurnHistory α × Nat))
    (hsteps : visits.IsChain (fun a b => Follows a.1 b.1)) (last : TurnHistory α × Nat)
    (hlast : visits.getLast? = some last) :
    ∃ client older, syncAll digest Client.empty visits = some client ∧
      older ++ client.turns = last.1.finished ∧ (last.1.finished ≠ [] → client.turns ≠ []) ∧
      (∀ turn ∈ client.turns, turn.status ≠ .inProgress) ∧
      ∀ limit, 1 ≤ limit → limit ≤ 100 →
        readOlder last.1.turns limit older.length client.olderCursor = some older := by
  cases visits with
  | nil => cases hlast
  | cons seen rest =>
  obtain ⟨client, hrun, hfinal⟩ := syncAll_spec hinj hsteps Holds.empty (Follows.refl seen.1)
  obtain ⟨hholds, hsome⟩ := hfinal last hlast
  obtain ⟨older, hsplit⟩ := hholds.newest
  refine ⟨client, older, hrun, hsplit, hsome, fun turn hmem => ?_, fun limit hpos hlimit => ?_⟩
  · exact of_decide_eq_true (last.1.immutable turn (hsplit ▸ mem_append_right _ hmem))
  have hcurs := hholds.cursor
  rw [← hsplit, length_append] at hcurs
  cases hturns : client.turns with
  | nil =>
    have hnil : last.1.finished = [] := by_contra (fun hne => hsome hne hturns)
    rw [hturns, append_nil, hnil] at hsplit
    rw [hcurs, hturns, hsplit]
    rfl
  | cons turn newer =>
  rw [hturns] at hsplit hcurs
  rw [hcurs, ← readOlder_spec hpos hlimit hsplit.symm (le_refl _)]
  have hmore : (turn :: newer).length < older.length + (turn :: newer).length ↔
    0 < older.length := by omega
  simp only [hmore, head?_cons, Option.map_some]

def statusMark : TurnStatus → Char
  | .inProgress => 'r'
  | .completed => 'c'
  | .interrupted => 'i'
  | .failed => 'f'

def plainDigest (turn : Option (AgentTurn Unit)) : String :=
  String.ofList (turn.elim [] fun turn => statusMark turn.status :: turn.turnId.toList)

lemma plainDigest_injective : Function.Injective plainDigest := by
  intro turn other heq
  have hchars := String.ofList_inj.mp heq
  rcases turn with _ | ⟨id, status, _⟩ <;> rcases other with _ | ⟨id', status', _⟩
  · rfl
  · cases hchars
  · cases hchars
  · obtain ⟨hmark, hid⟩ := cons.inj hchars
    obtain rfl := String.toList_inj.mp hid
    have hmarks : ∀ status status', statusMark status = statusMark status' → status = status' := by
      intro status status'
      cases status <;> cases status' <;> decide
    obtain rfl : status = status' := hmarks _ _ hmark
    rfl

def oneTurn : TurnHistory Unit :=
  ⟨[⟨"a", .completed, ()⟩], none, by decide, by decide, by decide, by decide⟩

def twoTurns : TurnHistory Unit :=
  ⟨[⟨"a", .completed, ()⟩, ⟨"b", .failed, ()⟩], none, by decide, by decide, by decide, by decide⟩

theorem history_sync_converges_appended :
    ∃ client older, syncAll plainDigest Client.empty [(oneTurn, 1), (twoTurns, 1)] = some client ∧
      older ++ client.turns = twoTurns.finished :=
  have hfol : Follows oneTurn twoTurns := .inr ⟨[], _, _, _, rfl, rfl, rfl⟩
  let ⟨client, older, hrun, hsplit, _⟩ := history_sync_converges plainDigest
    plainDigest_injective [(oneTurn, 1), (twoTurns, 1)] (.cons_cons hfol (.singleton _)) _ rfl
  ⟨client, older, hrun, hsplit⟩

end CodeWide.Agent.History
