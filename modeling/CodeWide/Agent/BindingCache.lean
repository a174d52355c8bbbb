import CodeWide.Agent.Bindings
import CodeWide.Lib.Run
import Mathlib.Data.List.Induction

/-!
# The read cache of the bindings

A call reads or writes a record, and later puts its provider into the cache.
-/

namespace CodeWide.Agent

open Lib Table Option List

structure Shared where
  tables : BindingTables
  cache : Table AppThreadId ProviderId
  continuations : List String

/-- What a question is answered by: whether its transaction fails, the clock, and the
provider. -/
structure Surroundings where
  fails : Bool
  nowMs : Nat
  owns : Option Bool

namespace Shared

def remember (s : Shared) (id : AppThreadId) (provider : ProviderId) : Shared :=
  let cache := if s.cache.size ≥ maxCachedBindings then ∅ else s.cache
  { s with cache := cache.insert id provider }

def respond (s : Shared) (around : Surroundings) : (q : Query) → Shared × Answer q
  | .nowMs => (s, around.nowMs)
  | .isContinuation native => (s, decide (native ∈ s.continuations))
  | .cached id => (s, s.cache.get? id)
  | .remember id provider => (s.remember id provider, ())
  | .extendContinuations natives => ({ s with continuations := s.continuations ++ natives }, ())
  | .agentBinding id =>
    (s, if around.fails then none else some (s.tables.agentThreadBindings.get? id))
  | .agentBindingsInsertAbsent records =>
    if around.fails then (s, none)
    else
      let (tables, writes) := s.tables.agentBindingsInsertAbsent records
      ({ s with tables }, some writes)
  | .agentBindingReplace id record natives =>
    if around.fails then (s, none)
    else ({ s with tables := s.tables.agentBindingReplace id record natives }, some ())
  | .threadOwns _ _ => (s, around.owns)

def openStore (tables : BindingTables) (failures : BindingTables.OpenFailures) : Shared :=
  let tables := tables.upgradeRecords failures
  let continuations :=
    if failures.continuations then [] else tables.agentContinuations.entries.map Prod.fst
  ⟨tables, ∅, continuations⟩

end Shared

inductive Reply where
  | provider (result : Except BindingError (Option ProviderId))
  | outcome (result : Except BindingError BindOutcome)
  | outcomes (result : Except BindingError (List BindOutcome))
  | route (result : Except BindingError ThreadRoute)
  | replaced (result : Except BindingError Unit)
  | observed

inductive Request where
  | providerOf (id : AppThreadId)
  | bind (id : AppThreadId) (provider : ProviderId) (origin : BindingOrigin)
  | bindMany (provider : ProviderId) (ids : List AppThreadId) (origin : BindingOrigin)
  | route (registry : List ProviderId) (id : AppThreadId)
  | observeThreads (provider : ProviderId) (ids : List String)
  | replaceSegments (id : AppThreadId) (segments : List BindingSegment) (origin : BindingOrigin)

def Request.program : Request → Call Reply
  | .providerOf id => (Agent.providerOf id).bind (fun r => .pure (.provider r))
  | .bind id provider origin => (Agent.bind id provider origin).bind (fun r => .pure (.outcome r))
  | .bindMany provider ids origin =>
    (Agent.bindMany provider ids origin).bind (fun r => .pure (.outcomes r))
  | .route registry id => (Agent.route registry id).bind (fun r => .pure (.route r))
  | .observeThreads provider ids =>
    (Agent.observeThreads provider ids).bind (fun _ => .pure .observed)
  | .replaceSegments id segments origin =>
    (Agent.replaceSegments id segments origin).bind (fun r => .pure (.replaced r))

abbrev Due := Option (AppThreadId × ProviderId)

/-- A replacement is due in the cache until the call puts it there. -/
def due (s : Due) : (q : Query) → Answer q → Due
  | .agentBindingReplace id record _, some () => some (id, record.active)
  | .remember _ _, _ => none
  | _, _ => s

structure Running where
  program : Call Reply
  owing : Due

structure System where
  shared : Shared
  calls : Table Nat Running
  nextCall : Nat
  replies : List (Nat × Reply)

inductive Input where
  | call (request : Request)
  | advance (call : Nat) (around : Surroundings)
  | reopen (failures : BindingTables.OpenFailures)

namespace System

def initial (tables : BindingTables) (failures : BindingTables.OpenFailures) : System :=
  ⟨.openStore tables failures, ∅, 0, []⟩

def place (s : System) (call : Nat) (running : Running) : System :=
  match running.program with
  | .pure reply => { s with calls := s.calls.erase call, replies := s.replies ++ [(call, reply)] }
  | .ask _ _ => { s with calls := s.calls.insert call running }

def advance (s : System) (call : Nat) (around : Surroundings) : System :=
  match s.calls.get? call with
  | none => s
  | some running =>
    match running.program with
    | .pure _ => s
    | .ask q k =>
      let (shared, answer) := s.shared.respond around q
      ({ s with shared }).place call ⟨k answer, due running.owing q answer⟩

def step (s : System) : Input → System
  | .call request =>
    ({ s with nextCall := s.nextCall + 1 }).place s.nextCall ⟨request.program, none⟩
  | .advance call around => s.advance call around
  | .reopen failures => { s with shared := .openStore s.shared.tables failures, calls := ∅ }

def bound (s : System) (id : AppThreadId) : Option ProviderId := s.shared.tables.activeProvider id

def asks (s : System) : Input → Option Query
  | .advance call around =>
    match s.calls.get? call with
    | some ⟨.ask q _, _⟩ => if around.fails then none else some q
    | _ => none
  | _ => none

/-- A bound thread keeps its provider in every step but a replacement of its segments. -/
def Stable (s : System) : Prop :=
  ∀ input id provider, s.bound id = some provider →
    (s.step input).bound id = some provider ∨
      ∃ record natives, s.asks input = some (.agentBindingReplace id record natives)

/-- With no call in progress the cache agrees with the durable store. -/
def Agrees (s : System) : Prop :=
  s.calls.entries = [] → ∀ id provider, s.shared.cache.get? id = some provider →
    s.bound id = some provider

/-- The call bound the thread to its provider and has still to put it into the cache. -/
def Settles (s : System) (call : Nat) (id : AppThreadId) : Prop :=
  ∃ running provider, s.calls.get? call = some running ∧ running.owing = some (id, provider) ∧
    s.bound id = some provider

/-- A call puts a provider into the cache only when the thread is, or will again be, bound to it. -/
def Meets (s : System) (input : Input) : Prop :=
  match input with
  | .advance call _ => ∀ id provider k owing,
    s.calls.get? call = some ⟨.ask (.remember id provider) k, owing⟩ →
      s.bound id = some provider ∨ ∃ other ≠ call, s.Settles other id
  | _ => True

end System

lemma BindingRecord.current_upgraded (record : BindingRecord) : record.upgraded.current = true := by
  unfold upgraded
  split
  · assumption
  · rfl

lemma BindingRecord.decode_of_current {record : BindingRecord} (h : record.current = true) :
    record.decode = record :=
  if_pos h

namespace BindingTables

variable (tables : BindingTables)

variable {provider : ProviderId}

lemma activeProvider_insertAbsent (record : AppThreadId × BindingRecord)
    {id : AppThreadId} (h : tables.activeProvider id = some provider) :
    (tables.insertAbsent record).1.activeProvider id = some provider := by
  unfold insertAbsent
  cases hget : tables.agentThreadBindings.get? record.1 with
  | some stored => exact h
  | none =>
  have hne : id ≠ record.1 := by
    rintro rfl
    rw [activeProvider, hget] at h
    cases h
  change ((tables.agentThreadBindings.insert record.1 record.2).get? id).map _ = some provider
  rw [get?_insert_of_ne _ _ hne]
  exact h

lemma activeProvider_insertAbsents {records : List (AppThreadId × BindingRecord)}
    {tables : BindingTables} {id : AppThreadId}
    (h : tables.activeProvider id = some provider) :
    (tables.agentBindingsInsertAbsent records).1.activeProvider id = some provider := by
  induction records generalizing tables with
  | nil => exact h
  | cons record rest ih => exact ih (tables.activeProvider_insertAbsent record h)

lemma activeProvider_replace (appThreadId id : AppThreadId)
    (record : BindingRecord) (natives : List String) :
    (tables.agentBindingReplace appThreadId record natives).activeProvider id =
      if id = appThreadId then some record.decode.active else tables.activeProvider id := by
  unfold activeProvider agentBindingReplace
  dsimp only
  rw [get?_insert]
  split <;> rfl

lemma activeProvider_foldl_insert {tables : BindingTables}
    {updates : List (AppThreadId × BindingRecord)}
    (h : ∀ update ∈ updates, tables.activeProvider update.1 = some update.2.decode.active)
    (id : AppThreadId) :
    ((updates.foldl (fun table update => table.insert update.1 update.2)
      tables.agentThreadBindings).get? id).map (fun stored => stored.decode.active) =
        tables.activeProvider id := by
  induction updates using reverseRecOn with
  | nil => rfl
  | append_singleton updates update ih =>
  rw [foldl_append, foldl_cons, foldl_nil, get?_insert]
  split
  · rename_i hid
    rw [hid]
    exact (h update (mem_append_right _ mem_cons_self)).symm
  · exact ih (fun u hu => h u (mem_append_left _ hu))

lemma activeProvider_upgradeRecords (failures : OpenFailures)
    (id : AppThreadId) : (tables.upgradeRecords failures).activeProvider id =
      tables.activeProvider id := by
  have hupgrade : (tables.agentBindingsUpgrade (fun record =>
      if record.current then none else some record.upgraded)).activeProvider id =
        tables.activeProvider id := by
    refine activeProvider_foldl_insert (fun update hupdate => ?_) id
    obtain ⟨entry, hentry, hsome⟩ := mem_filterMap.mp hupdate
    obtain ⟨next, hnext, rfl⟩ := map_eq_some_iff.mp hsome
    dsimp only at hnext
    split at hnext
    · cases hnext
    cases hnext
    unfold activeProvider
    rw [mem_entries_iff.mp (show (entry.1, entry.2) ∈ _ from hentry), map_some,
      BindingRecord.decode_of_current entry.2.current_upgraded]
    rfl
  unfold upgradeRecords
  split
  · rfl
  dsimp only
  split
  · exact hupgrade
  · exact hupgrade

end BindingTables

/-- After a replacement a call only extends the continuations and then puts the provider
into the cache. -/
def duties : Protocol Query Answer Due where
  allowed s q := match s, q with
    | none, .agentBindingReplace _ record _ => record.current = true
    | none, _ => True
    | some _, .extendContinuations _ => True
    | some (id, provider), .remember id' provider' => id' = id ∧ provider' = provider
    | some _, _ => False
  possible _ _ := True
  next := due

abbrev Dutiful {α : Type} (s : Due) (p : Call α) : Prop :=
  Prog.Follows duties (fun s _ => s = none) s p

namespace Dutiful

lemma pure {α : Type} (a : α) : Dutiful none (.pure a : Call α) := rfl

lemma bind {α β : Type} {s : Due} {p : Call α} {f : α → Call β} (hp : Dutiful s p)
    (hf : ∀ a, Dutiful none (f a)) : Dutiful s (p.bind f) :=
  Prog.Follows.bind hp (fun s a hs => by rw [hs]; exact hf a)

variable (id : AppThreadId)

lemma providerOf : Dutiful none (providerOf id) := by
  refine ⟨trivial, fun found _ => ?_⟩
  cases found with
  | some provider => rfl
  | none =>
  refine ⟨trivial, fun stored _ => ?_⟩
  rcases stored with _ | _ | stored
  · rfl
  · rfl
  · exact ⟨trivial, fun _ _ => rfl⟩

variable (provider : ProviderId)

variable (ids : List AppThreadId)

lemma checkIds : Dutiful none (checkIds provider ids) := by
  induction ids with
  | nil => rfl
  | cons id rest ih =>
  refine ⟨trivial, fun continues _ => ?_⟩
  cases continues with
  | true => exact ih.bind (fun _ => pure _)
  | false => exact ⟨trivial, fun _ _ => ih.bind (fun _ => pure _)⟩

variable (origin : BindingOrigin)

lemma newRecords (ids : List AppThreadId) : Dutiful none (newRecords provider origin ids) := by
  induction ids with
  | nil => rfl
  | cons id rest ih => exact ⟨trivial, fun _ _ => ih.bind (fun _ => pure _)⟩

lemma settle (writes : List (AppThreadId × BindingWrite)) :
    Dutiful none (settle provider writes) := by
  induction writes with
  | nil => rfl
  | cons write rest ih =>
  obtain ⟨id, write⟩ := write
  cases write with
  | inserted | existing stored => exact ⟨trivial, fun _ _ => ih.bind (fun _ => pure _)⟩

lemma bindMany : Dutiful none (bindMany provider ids origin) := by
  refine (checkIds provider ids).bind (fun checked => ?_)
  dsimp only
  split
  · exact pure _
  refine (newRecords provider origin _).bind (fun records => ⟨trivial, fun writes _ => ?_⟩)
  cases writes with
  | none => rfl
  | some writes => exact (settle provider _).bind (fun _ => pure _)

lemma bindOne (provider : ProviderId) (origin : BindingOrigin) :
    Dutiful none (Agent.bind id provider origin) := by
  refine (bindMany provider [id] origin).bind (fun result => ?_)
  cases result <;> exact pure _

lemma replaceSegments (segments : List BindingSegment)
    (origin : BindingOrigin) : Dutiful none (replaceSegments id segments origin) := by
  unfold Agent.replaceSegments
  split
  · exact pure _
  rename_i hfirst
  refine ⟨trivial, fun nowMs _ => ⟨?_, fun written _ => ?_⟩⟩
  · -- The list has a first segment, so the record is one of the current version.
    cases segments with
    | nil => exact absurd (by simp) hfirst
    | cons segment rest => rfl
  · cases written with
    | none => rfl
    | some _ => exact ⟨trivial, fun _ _ => ⟨⟨rfl, rfl⟩, fun _ _ => rfl⟩⟩

lemma discover (providers : List ProviderId) : Dutiful none (discover id providers) := by
  induction providers with
  | nil => rfl
  | cons provider rest ih =>
  refine ⟨trivial, fun owns _ => ?_⟩
  rcases owns with _ | owns
  · exact ih
  cases owns with
  | false => exact ih
  | true =>
    refine (bindOne id provider .discovered).bind (fun result => ?_)
    cases result <;> exact pure _

lemma route (registry : List ProviderId) (id : AppThreadId) : Dutiful none (route registry id) := by
  refine (providerOf id).bind (fun result => ?_)
  rcases result with error | found
  · exact pure _
  cases found with
  | some provider => exact pure _
  | none =>
  refine ⟨trivial, fun continues _ => ?_⟩
  cases continues with
  | true => rfl
  | false =>
  rcases registry with _ | ⟨only, _ | ⟨second, rest⟩⟩
  · rfl
  · rfl
  · exact discover id _

lemma observeThreads (ids : List String) : Dutiful none (observeThreads provider ids) := by
  unfold Agent.observeThreads
  dsimp only
  split
  · exact pure _
  · exact (bindMany provider _ .discovered).bind (fun _ => pure _)

lemma request (request : Request) : Dutiful none request.program := by
  cases request with
  | providerOf id => exact (providerOf id).bind (fun _ => pure _)
  | bind id provider origin => exact (bindOne id provider origin).bind (fun _ => pure _)
  | bindMany provider ids origin => exact (bindMany provider ids origin).bind (fun _ => pure _)
  | route registry id => exact (route registry id).bind (fun _ => pure _)
  | observeThreads provider ids => exact (observeThreads provider ids).bind (fun _ => pure _)
  | replaceSegments id segments origin =>
    exact (replaceSegments id segments origin).bind (fun _ => pure _)

end Dutiful

namespace System

/-- Every call does its duty, and a cached provider is the current one or about to be
replaced by it. -/
structure Inv (s : System) : Prop where
  calls : ∀ call running, s.calls.get? call = some running → Dutiful running.owing running.program
  fresh : ∀ call, s.nextCall ≤ call → s.calls.get? call = none
  cache : ∀ id provider, s.shared.cache.get? id = some provider →
    s.bound id = some provider ∨ ∃ call, s.Settles call id

lemma shared_place (s : System) (call : Nat) (running : Running) :
    (s.place call running).shared = s.shared := by
  unfold place
  cases running.program <;> rfl

lemma nextCall_place (s : System) (call : Nat) (running : Running) :
    (s.place call running).nextCall = s.nextCall := by
  unfold place
  cases running.program <;> rfl

lemma bound_place (s : System) (call : Nat) (running : Running) (id : AppThreadId) :
    (s.place call running).bound id = s.bound id := by
  unfold bound
  rw [shared_place]

lemma get?_place_of_ne (s : System) {call other : Nat} (running : Running) (h : other ≠ call) :
    (s.place call running).calls.get? other = s.calls.get? other := by
  unfold place
  cases running.program with
  | pure reply => exact get?_erase_of_ne _ h
  | ask q k => exact get?_insert_of_ne _ _ h

lemma get?_place_self {s : System} {call : Nat} {running found : Running}
    (h : (s.place call running).calls.get? call = some found) : found = running := by
  unfold place at h
  cases hprogram : running.program with
  | pure reply =>
    rw [hprogram] at h
    change (s.calls.erase call).get? call = some found at h
    rw [get?_erase, if_pos rfl] at h
    cases h
  | ask q k =>
  rw [hprogram] at h
  change (s.calls.insert call running).get? call = some found at h
  rw [get?_insert_self] at h
  exact (some.inj h).symm

lemma settles_place {s : System} {call : Nat} {running : Running}
    (hduty : Dutiful running.owing running.program) {id : AppThreadId} {provider : ProviderId}
    (howing : running.owing = some (id, provider)) (hbound : s.bound id = some provider) :
    (s.place call running).Settles call id := by
  refine ⟨running, provider, ?_, howing, by rw [bound_place]; exact hbound⟩
  unfold place
  cases hprogram : running.program with
  | pure reply =>
    rw [hprogram, howing] at hduty
    cases hduty
  | ask q k => exact get?_insert_self _ _ _

lemma settles_place_of_ne {s : System} {call other : Nat} (running : Running) (h : other ≠ call)
    {id : AppThreadId} (hset : s.Settles other id) :
    (s.place call running).Settles other id := by
  obtain ⟨found, provider, hget, howing, hbound⟩ := hset
  exact ⟨found, provider, by rw [get?_place_of_ne s running h]; exact hget, howing,
    by rw [bound_place]; exact hbound⟩

namespace Inv

variable {s : System}

lemma initial (tables : BindingTables) (failures : BindingTables.OpenFailures) :
    Inv (initial tables failures) where
  calls _ _ h := nomatch h
  fresh _ _ := rfl
  cache _ _ h := nomatch h

lemma place {call : Nat} {running : Running}
    (hduty : Dutiful running.owing running.program) (hcall : call < s.nextCall)
    (hcalls : ∀ other found, other ≠ call → s.calls.get? other = some found →
      Dutiful found.owing found.program)
    (hfresh : ∀ other, s.nextCall ≤ other → s.calls.get? other = none)
    (hcache : ∀ id provider, s.shared.cache.get? id = some provider →
      s.bound id = some provider ∨ (∃ other ≠ call, s.Settles other id) ∨
        ∃ due, running.owing = some (id, due) ∧ s.bound id = some due) :
    Inv (s.place call running) := by
  refine ⟨fun other found hget => ?_, fun other hother => ?_, fun id provider hget => ?_⟩
  · by_cases heq : other = call
    · subst heq
      rw [get?_place_self hget]
      exact hduty
    · rw [get?_place_of_ne s running heq] at hget
      exact hcalls other found heq hget
  · rw [nextCall_place] at hother
    rw [get?_place_of_ne s running (by omega)]
    exact hfresh other hother
  rw [shared_place] at hget
  rw [bound_place]
  rcases hcache id provider hget with hbound | ⟨other, hne, hset⟩ | ⟨due, howing, hbound⟩
  · exact .inl hbound
  · exact .inr ⟨other, settles_place_of_ne running hne hset⟩
  · exact .inr ⟨call, settles_place hduty howing hbound⟩

lemma lt_nextCall (h : Inv s) {call : Nat} {running : Running}
    (hget : s.calls.get? call = some running) : call < s.nextCall := by
  refine Nat.lt_of_not_le (fun hle => ?_)
  rw [h.fresh call hle] at hget
  cases hget

lemma call (h : Inv s) (request : Request) : Inv (s.step (.call request)) := by
  refine place (Dutiful.request request) (Nat.lt_succ_self _) (fun other found _ => h.calls other found)
    (fun other hother => h.fresh other (Nat.le_of_succ_le hother)) (fun id provider hget => ?_)
  rcases h.cache id provider hget with hbound | ⟨other, hset⟩
  · exact .inl hbound
  · refine .inr (.inl ⟨other, ?_, hset⟩)
    obtain ⟨running, due, hrun, -⟩ := hset
    exact Nat.ne_of_lt (h.lt_nextCall hrun)

lemma cache_cases (h : Inv s) {call : Nat} {running : Running}
    (hget : s.calls.get? call = some running) {id : AppThreadId} {provider : ProviderId}
    (hcach : s.shared.cache.get? id = some provider) :
    s.bound id = some provider ∨ (∃ other ≠ call, s.Settles other id) ∨
      ∃ due, running.owing = some (id, due) ∧ s.bound id = some due := by
  rcases h.cache id provider hcach with hbound | ⟨other, hset⟩
  · exact .inl hbound
  by_cases heq : other = call
  · subst heq
    obtain ⟨found, due, hfound, howing, hbound⟩ := hset
    obtain rfl : running = found := some.inj (hget.symm.trans hfound)
    exact .inr (.inr ⟨due, howing, hbound⟩)
  · exact .inr (.inl ⟨other, heq, hset⟩)

lemma get?_remember {s : Shared} {id id' : AppThreadId} {provider provider' : ProviderId}
    (h : (s.remember id provider).cache.get? id' = some provider') :
    (id' = id ∧ provider' = provider) ∨ (id' ≠ id ∧ s.cache.get? id' = some provider') := by
  unfold Shared.remember at h
  dsimp only at h
  rcases of_get?_insert h with ⟨hid, h⟩ | ⟨hid, h⟩
  · exact .inl ⟨hid, h.symm⟩
  split at h
  · cases h
  · exact .inr ⟨hid, h⟩

variable {around : Surroundings}

lemma respond (h : Inv s) {call : Nat} {q : Query} {k : Answer q → Call Reply} {owing : Due}
    (hget : s.calls.get? call = some ⟨.ask q k, owing⟩)
    (hmeets : s.Meets (.advance call around)) {id : AppThreadId} {provider : ProviderId}
    (hcach : (s.shared.respond around q).1.cache.get? id = some provider) :
    let next : System := { s with shared := (s.shared.respond around q).1 }
    next.bound id = some provider ∨ (∃ other ≠ call, next.Settles other id) ∨
      ∃ d, due owing q (s.shared.respond around q).2 = some (id, d) ∧ next.bound id = some d := by
  have hduty := (h.calls call _ hget).1
  have hsame := fun hcach => @cache_cases s h call _ hget id provider hcach
  cases q with
  | nowMs | isContinuation native | cached id' | extendContinuations natives
  | threadOwns provider' id' | agentBinding id' => exact hsame hcach
  | remember id' provider' =>
    rcases get?_remember hcach with ⟨rfl, rfl⟩ | ⟨hne, hold⟩
    · exact (hmeets id provider k owing hget).imp (fun hbound => hbound) .inl
    -- The debt of the call is for `id'`, so it does not settle this thread.
    rcases hsame hold with hbound | hother | ⟨d, howing, -⟩
    · exact .inl hbound
    · exact .inr (.inl hother)
    · dsimp only at howing
      rw [howing] at hduty
      exact absurd hduty.1.symm hne
  | agentBindingsInsertAbsent records =>
    dsimp only [Shared.respond] at hcach ⊢
    by_cases hfails : around.fails = true
    · rw [if_pos hfails] at hcach ⊢
      exact hsame hcach
    rw [if_neg hfails] at hcach ⊢
    have hkeep : ∀ {id provider}, s.bound id = some provider →
        (s.shared.tables.agentBindingsInsertAbsent records).1.activeProvider id =
          some provider := fun hb => BindingTables.activeProvider_insertAbsents hb
    rcases hsame hcach with hbound | ⟨other, hne, found, d, hfound, howing, hbound⟩ |
      ⟨d, howing, hbound⟩
    · exact .inl (hkeep hbound)
    · exact .inr (.inl ⟨other, hne, found, d, hfound, howing, hkeep hbound⟩)
    · exact .inr (.inr ⟨d, howing, hkeep hbound⟩)
  | agentBindingReplace id' record natives =>
  dsimp only [Shared.respond] at hcach ⊢
  by_cases hfails : around.fails = true
  · rw [if_pos hfails] at hcach ⊢
    exact hsame hcach
  rw [if_neg hfails] at hcach ⊢
  have hbinds : ∀ id, (s.shared.tables.agentBindingReplace id' record natives).activeProvider
      id = if id = id' then some record.active else s.bound id := by
    cases owing with
    | some owed => exact absurd hduty (by simp [duties])
    | none =>
    intro id
    rw [BindingTables.activeProvider_replace, BindingRecord.decode_of_current hduty]
    rfl
  by_cases hid : id = id'
  · refine .inr (.inr ⟨record.active, by rw [hid]; rfl, ?_⟩)
    exact (hbinds id).trans (if_pos hid)
  have hkeep : ∀ {provider}, s.bound id = some provider →
      (s.shared.tables.agentBindingReplace id' record natives).activeProvider id =
        some provider := fun hb => (hbinds id).trans ((if_neg hid).trans hb)
  rcases hsame hcach with hbound | ⟨other, hne, found, d, hfound, howing, hbound⟩ |
    ⟨d, howing, hbound⟩
  · exact .inl (hkeep hbound)
  · exact .inr (.inl ⟨other, hne, found, d, hfound, howing, hkeep hbound⟩)
  · dsimp only at howing
    rw [howing] at hduty
    exact absurd hduty (by simp [duties])

lemma advance (h : Inv s) {call : Nat}
    (hmeets : s.Meets (.advance call around)) : Inv (s.step (.advance call around)) := by
  change Inv (s.advance call around)
  unfold System.advance
  cases hget : s.calls.get? call with
  | none => exact h
  | some running =>
  obtain ⟨program, owing⟩ := running
  cases program with
  | pure reply => exact h
  | ask q k =>
  dsimp only
  refine @place { s with shared := (s.shared.respond around q).1 } call
    ⟨k (s.shared.respond around q).2, due owing q (s.shared.respond around q).2⟩
    ((h.calls call _ hget).2 _ trivial) (h.lt_nextCall hget)
    (fun other found _ => h.calls other found) h.fresh (fun id provider hcach => ?_)
  exact h.respond hget hmeets hcach

lemma step (h : Inv s) {input : Input} (hmeets : s.Meets input) : Inv (s.step input) := by
  cases input with
  | call request => exact h.call request
  | advance call around => exact h.advance hmeets
  | reopen failures =>
    exact ⟨fun _ _ hget => (nomatch hget), fun _ _ => rfl, fun _ _ hget => (nomatch hget)⟩

end Inv

lemma Inv.agrees {s : System} (h : Inv s) : Agrees s := by
  intro hidle id provider hget
  refine (h.cache id provider hget).resolve_right ?_
  rintro ⟨call, running, d, hrun, -⟩
  have hmem := mem_entries_iff.mpr hrun
  rw [hidle] at hmem
  cases hmem

lemma stable (s : System) : Stable s := by
  intro input id provider hbound
  cases input with
  | call request =>
    left
    change (place _ _ _).bound id = some provider
    rw [bound_place]
    exact hbound
  | reopen failures =>
    left
    exact (BindingTables.activeProvider_upgradeRecords _ failures id).trans hbound
  | advance call around =>
  change (s.advance call around).bound id = some provider ∨ _
  unfold advance asks
  cases hget : s.calls.get? call with
  | none => exact .inl hbound
  | some running =>
  obtain ⟨program, owing⟩ := running
  cases program with
  | pure reply => exact .inl hbound
  | ask q k =>
  dsimp only
  rw [bound_place]
  cases q with
  | agentBindingReplace id' record natives =>
    by_cases hfails : around.fails = true
    · left
      dsimp only [Shared.respond]
      rw [if_pos hfails]
      exact hbound
    by_cases hid : id = id'
    · right
      subst hid
      refine ⟨record, natives, ?_⟩
      rw [hget]
      exact if_neg hfails
    left
    dsimp only [Shared.respond]
    rw [if_neg hfails]
    exact (BindingTables.activeProvider_replace _ _ _ _ _).trans ((if_neg hid).trans hbound)
  | agentBindingsInsertAbsent records =>
    left
    dsimp only [Shared.respond]
    by_cases hfails : around.fails = true
    · rw [if_pos hfails]
      exact hbound
    · rw [if_neg hfails]
      exact BindingTables.activeProvider_insertAbsents hbound
  | nowMs => exact .inl hbound
  | isContinuation native => exact .inl hbound
  | cached id' | remember id' provider' | extendContinuations natives
  | agentBinding id' | threadOwns provider' id' => exact .inl hbound

end System

/-- In every run in which no call puts a provider into the cache that is out of date. -/
theorem bindings_agree (tables : BindingTables) (failures : BindingTables.OpenFailures)
    (inputs : List Input)
    (hmeets : Always System.step System.Meets (System.initial tables failures) inputs) :
    System.Stable (exec System.step (System.initial tables failures) inputs) ∧
      System.Agrees (exec System.step (System.initial tables failures) inputs) := by
  have hinv : System.Inv (exec System.step (System.initial tables failures) inputs) :=
    @exec_invariant_of_always System Input System.step System.Inv System.Meets
      (fun _ _ h hmeets => System.Inv.step h hmeets) _ (System.Inv.initial tables failures) _ hmeets
  exact ⟨System.stable _, System.Inv.agrees hinv⟩

def noFailures : BindingTables.OpenFailures := ⟨false, false, false⟩

def boundTables : BindingTables where
  agentThreadBindings := (∅ : Table AppThreadId BindingRecord).insert "t"
    (BindingRecord.new "t" "codex" .created 1)
  agentContinuations := ∅
  segmentsUpgraded := true

def answers (call : Nat) : Input := .advance call ⟨false, 2, none⟩

def switch : Request :=
  .replaceSegments "t" [⟨"codex", "t", 0, some 2, []⟩, ⟨"claude", "n", 3, none, []⟩] .created

/-- A read that overlaps the switch fills the cache. -/
def orderedRun : List Input :=
  [.call (.providerOf "t"), answers 0, answers 0, answers 0, .call switch, .call (.providerOf "t"),
    answers 1, answers 1, answers 2, answers 1, answers 1]

/-- The provider a call is about to put into the cache is the one the thread is bound to. -/
def System.current (s : System) : Input → Bool
  | .advance call _ =>
    match s.calls.get? call with
    | some ⟨.ask (.remember id provider) _, _⟩ => decide (s.bound id = some provider)
    | _ => true
  | _ => true

lemma System.meets_of_current {s : System} {input : Input} (h : s.current input = true) :
    s.Meets input := by
  cases input with
  | call request | reopen failures => trivial
  | advance call around =>
  intro id provider k owing hget
  left
  unfold current at h
  dsimp only at h
  rw [hget] at h
  exact of_decide_eq_true h

theorem bindings_agree_ordered :
    System.Stable (exec System.step (System.initial boundTables noFailures) orderedRun) ∧
      System.Agrees (exec System.step (System.initial boundTables noFailures) orderedRun) := by
  refine bindings_agree boundTables noFailures orderedRun ?_
  have hcur : Always System.step (fun s input => s.current input = true)
      (System.initial boundTables noFailures) orderedRun := by decide
  exact hcur.imp (fun _ _ h => System.meets_of_current h)

/-- A read starts before the switch and fills the cache after it. -/
def racingRun : List Input :=
  [.call (.providerOf "t"), answers 0, answers 0, .call switch, answers 1, answers 1, answers 1,
    answers 1, answers 0]

theorem read_restores_old_provider :
    (exec System.step (System.initial boundTables noFailures) racingRun).calls.entries.length = 0 ∧
      (exec System.step (System.initial boundTables noFailures) racingRun).shared.cache.get? "t" =
        some "codex" ∧
      (exec System.step (System.initial boundTables noFailures) racingRun).bound "t" =
        some "claude" ∧
      ¬ System.Agrees (exec System.step (System.initial boundTables noFailures) racingRun) := by
  have hidle : (exec System.step (System.initial boundTables noFailures)
    racingRun).calls.entries.length = 0 := by decide
  have hcach : (exec System.step (System.initial boundTables noFailures)
    racingRun).shared.cache.get? "t" = some "codex" := by decide
  have hbound : (exec System.step (System.initial boundTables noFailures) racingRun).bound "t" =
    some "claude" := by decide
  refine ⟨hidle, hcach, hbound, fun h => ?_⟩
  have hagr := h (length_eq_zero_iff.mp hidle) "t" "codex" hcach
  rw [hbound] at hagr
  exact absurd hagr (by decide)

end CodeWide.Agent
