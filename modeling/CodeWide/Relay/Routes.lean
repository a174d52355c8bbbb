import CodeWide.Lib.Run
import CodeWide.Lib.Table
import CodeWide.Lib.Text
import CodeWide.Lib.Utf16

/-!
# The route registry

Routes and invitations are files of two directories.
-/

namespace CodeWide.Relay.Routes

open Lib List Table

def invitationTtlSeconds : Int := 5 * 60

def isControl (c : Char) : Bool := decide (c.toNat < 0x20 ∨ 0x7f ≤ c.toNat ∧ c.toNat ≤ 0x9f)

def validateLabel (label : String) : Bool :=
  decide (Text.trim label ≠ "") && decide (Utf16.units label ≤ 80) &&
    label.toList.all (fun c => !isControl c &&
      !decide (0x2028 ≤ c.toNat ∧ c.toNat ≤ 0x202e ∨ 0x2066 ≤ c.toNat ∧ c.toNat ≤ 0x2069))

/-- A file that is written in place has been opened, or has all of its content. -/
inductive File (α : Type)
  | cut
  | whole (value : α)

structure InvitationRecord where
  routeId : Nat
  expiresAt : Int

structure RouteRecord where
  token : Nat
  generation : Nat
  label : Option String

inductive Writer
  | inviting (token : Nat) (record : InvitationRecord)
  | pairing (routeId invitation : Nat) (file : File InvitationRecord)
  | replacing (routeId : Nat) (record : RouteRecord) (written : Bool) (invitation : Option Nat)
  | registering (routeId : Nat) (record : RouteRecord)

structure Issue where
  routeId : Nat
  generation : Nat
  token : Nat

structure RouteSummary where
  routeId : Nat
  label : Option String

/-- A list of routes that was asked for, and what the caller got. -/
structure Listing where
  issued : List Issue
  revoked : List Nat
  result : Option (List Nat)

structure Reader where
  issued : List Issue
  revoked : List Nat
  done : List RouteSummary
  pending : List Nat

structure Registry where
  routes : Table Nat (File RouteRecord)
  temporaries : Nat
  invitations : Table Nat (File InvitationRecord)
  writer : Option Writer
  next : Nat
  readers : List Reader
  issued : List Issue
  exchanged : List Nat
  revoked : List Nat
  listings : List Listing

def Registry.empty : Registry := ⟨∅, 0, ∅, none, 0, [], [], [], [], []⟩

inductive Event
  | createInvitation (routeId : Option Nat) (now : Int)
  | pair (routeId invitation : Nat)
  | register (label : String)
  | rename (routeId : Nat) (label : String)
  | revoke (routeId : Nat)
  | advance (now : Int)
  | crash
  | routes
  | summaries
  | summary (reader : Nat)

/-! ## Reading -/

def Registry.authorize (s : Registry) (routeId token : Nat) : Option Nat :=
  match s.routes.get? routeId with
  | some (.whole record) => if record.token = token then some record.generation else none
  | _ => none

def Registry.isCurrent (s : Registry) (routeId token generation : Nat) : Bool :=
  decide (s.authorize routeId token = some generation)

/-- `routes`: a temporary file has no name of a route, and fails the call. -/
def Registry.list (s : Registry) : Option (List Nat) :=
  if s.temporaries = 0 then some (s.routes.entries.map Prod.fst) else none

def Registry.listed (s : Registry) (issued : List Issue) (revoked : List Nat)
    (result : Option (List Nat)) : Registry :=
  { s with listings := s.listings ++ [⟨issued, revoked, result⟩] }

def Registry.summary (s : Registry) (i : Nat) : Registry :=
  match s.readers[i]? with
  | none => s
  | some ⟨issued, revoked, done, []⟩ =>
    ({ s with readers := s.readers.eraseIdx i }).listed issued revoked
      (some (done.map RouteSummary.routeId))
  | some ⟨issued, revoked, done, routeId :: pending⟩ =>
    match s.routes.get? routeId with
    | some (.whole record) =>
      if record.label.all validateLabel then
        { s with
          readers :=
            s.readers.set i ⟨issued, revoked, done ++ [⟨routeId, record.label⟩], pending⟩ }
      else ({ s with readers := s.readers.eraseIdx i }).listed issued revoked none
    | _ => ({ s with readers := s.readers.eraseIdx i }).listed issued revoked none

/-! ## Writing -/

def Registry.invite (s : Registry) (routeId token : Nat) (now : Int) : Registry :=
  { s with
    invitations := s.invitations.insert token .cut
    writer := some (.inviting token ⟨routeId, now + invitationTtlSeconds⟩)
    next := token + 1 }

def Registry.createInvitation (s : Registry) (routeId : Option Nat) (now : Int) : Registry :=
  match routeId with
  | some routeId => if (s.routes.get? routeId).isSome then s.invite routeId s.next now else s
  | none => s.invite s.next (s.next + 1) now

def Registry.replace (s : Registry) (routeId : Nat) (record : RouteRecord)
    (invitation : Option Nat) : Registry :=
  { s with
    temporaries := s.temporaries + 1
    writer := some (.replacing routeId record false invitation) }

def nextRecord (token : Nat) : Option (File RouteRecord) → Option RouteRecord
  | none => some ⟨token, 1, none⟩
  | some .cut => none
  | some (.whole record) =>
    if record.generation + 1 < 2 ^ 64 then some ⟨token, record.generation + 1, record.label⟩
    else none

def Registry.issue (s : Registry) (routeId : Nat) (record : RouteRecord) : Registry :=
  { s with
    routes := s.routes.insert routeId (.whole record)
    issued := ⟨routeId, record.generation, record.token⟩ :: s.issued }

def Registry.advance (s : Registry) (now : Int) : Registry :=
  let left := { s with writer := none }
  match s.writer with
  | none => s
  | some (.inviting token record) =>
    { left with invitations := s.invitations.insert token (.whole record) }
  | some (.pairing _ _ .cut) => left
  | some (.pairing routeId invitation (.whole record)) =>
    if record.routeId ≠ routeId ∨ record.expiresAt < now then left
    else
      match nextRecord s.next (s.routes.get? routeId) with
      | none => left
      | some record => ({ s with next := s.next + 1 }).replace routeId record (some invitation)
  | some (.replacing routeId record false invitation) =>
    { s with writer := some (.replacing routeId record true invitation) }
  | some (.replacing routeId record true none) =>
    { left with
      routes := s.routes.insert routeId (.whole record)
      temporaries := s.temporaries - 1 }
  | some (.replacing routeId record true (some invitation)) =>
    { left.issue routeId record with
      temporaries := s.temporaries - 1
      exchanged := invitation :: s.exchanged }
  | some (.registering routeId record) => left.issue routeId record

/-- A call that finds the lock held waits: it does nothing yet. -/
def Registry.step (s : Registry) : Event → Registry
  | .createInvitation routeId now => if s.writer.isNone then s.createInvitation routeId now else s
  | .pair routeId invitation =>
    match s.writer, s.invitations.get? invitation with
    | none, some file =>
      { s with
        invitations := s.invitations.erase invitation
        writer := some (.pairing routeId invitation file) }
    | _, _ => s
  | .register label =>
    if s.writer.isNone ∧ validateLabel label = true then
      { s with
        routes := s.routes.insert s.next .cut
        writer := some (.registering s.next ⟨s.next + 1, 1, some label⟩)
        next := s.next + 2 }
    else s
  | .rename routeId label =>
    match s.writer, s.routes.get? routeId with
    | none, some (.whole record) =>
      if validateLabel label = true then s.replace routeId { record with label := some label } none
      else s
    | _, _ => s
  | .revoke routeId =>
    if s.writer.isNone then
      { s with
        routes := s.routes.erase routeId
        -- An id that is still to be generated cannot be named.
        revoked := if routeId < s.next then routeId :: s.revoked else s.revoked }
    else s
  | .advance now => s.advance now
  | .crash => { s with writer := none }
  | .routes => s.listed s.issued s.revoked s.list
  | .summaries =>
    match s.list with
    | some ids => { s with readers := s.readers ++ [⟨s.issued, s.revoked, [], ids⟩] }
    | none => s.listed s.issued s.revoked none
  | .summary i => s.summary i

/-! ## What is to hold -/

def current (issued : List Issue) (routeId : Nat) : Option Issue :=
  issued.find? (fun issue => decide (issue.routeId = routeId))

def Paired (issued : List Issue) (revoked : List Nat) (routeId : Nat) : Prop :=
  (∃ issue ∈ issued, issue.routeId = routeId) ∧ routeId ∉ revoked

structure Sound (s : Registry) : Prop where
  exchanged : s.exchanged.Nodup
  /-- What authorizes is the last token issued, until the route is revoked. -/
  authorized : ∀ routeId token generation, s.authorize routeId token = some generation ↔
    current s.issued routeId = some ⟨routeId, generation, token⟩ ∧ routeId ∉ s.revoked
  generations : s.issued.Pairwise
    (fun later earlier => later.routeId = earlier.routeId → earlier.generation < later.generation)
  listings : ∀ listing ∈ s.listings, ∃ ids, listing.result = some ids ∧
    ∀ routeId, routeId ∈ ids ↔ Paired listing.issued listing.revoked routeId

/-- The writer has put a file into the directory of routes that is not a record yet. -/
def Registry.writing (s : Registry) : Bool :=
  match s.writer with
  | some (.replacing ..) => true
  | some (.registering ..) => true
  | _ => false

/-- No revoked route is paired, and nothing reads a route's file half made. -/
def Meets (s : Registry) : Event → Prop
  | .advance now => ∀ routeId invitation record,
      s.writer = some (.pairing routeId invitation (.whole record)) → record.routeId = routeId →
        now ≤ record.expiresAt → routeId ∉ s.revoked
  | .crash => s.writing = false
  | .routes => s.writing = false
  | .summaries => s.writing = false
  | .summary i => ∀ issued revoked done routeId pending,
      s.readers[i]? = some ⟨issued, revoked, done, routeId :: pending⟩ → routeId ∉ s.revoked
  | _ => True

/-! ## The invariant -/

def Fresh (s : Registry) (invitation : Nat) : Prop :=
  invitation < s.next ∧ invitation ∉ s.exchanged

def WriterOk (s : Registry) : Writer → Prop
  | .inviting token record => Fresh s token ∧ record.routeId < s.next
  | .pairing _ invitation file => Fresh s invitation ∧ s.invitations.get? invitation = none ∧
      ∀ record, file = .whole record → record.routeId < s.next
  | .replacing routeId record _ none => record.label.all validateLabel = true ∧
      routeId ∉ s.revoked ∧ routeId < s.next ∧
        current s.issued routeId = some ⟨routeId, record.generation, record.token⟩
  | .replacing routeId record _ (some invitation) => record.label.all validateLabel = true ∧
      routeId ∉ s.revoked ∧ routeId < s.next ∧ Fresh s invitation ∧
        s.invitations.get? invitation = none ∧
          ∀ issue ∈ s.issued, issue.routeId = routeId → issue.generation < record.generation
  | .registering routeId record => record.label.all validateLabel = true ∧
      routeId ∉ s.revoked ∧ routeId < s.next ∧ s.routes.get? routeId = some .cut ∧
        ∀ issue ∈ s.issued, issue.routeId ≠ routeId

def temporariesOf : Option Writer → Nat
  | some (.replacing ..) => 1
  | _ => 0

structure Inv (s : Registry) : Prop where
  temporaries : s.temporaries = temporariesOf s.writer
  cut : ∀ routeId, s.routes.get? routeId = some .cut →
    ∃ record, s.writer = some (.registering routeId record)
  whole : ∀ routeId record, s.routes.get? routeId = some (.whole record) →
    routeId ∉ s.revoked ∧ record.label.all validateLabel = true ∧
      current s.issued routeId = some ⟨routeId, record.generation, record.token⟩
  paired : ∀ issue ∈ s.issued, issue.routeId ∉ s.revoked →
    ∃ record, s.routes.get? issue.routeId = some (.whole record)
  generations : s.issued.Pairwise
    (fun later earlier => later.routeId = earlier.routeId → earlier.generation < later.generation)
  writer : ∀ writer, s.writer = some writer → WriterOk s writer
  routeIds : ∀ routeId file, s.routes.get? routeId = some file → routeId < s.next
  issuedIds : ∀ issue ∈ s.issued, issue.routeId < s.next
  revokedIds : ∀ routeId ∈ s.revoked, routeId < s.next
  invitations : ∀ token file, s.invitations.get? token = some file → Fresh s token ∧
    ∀ record, file = .whole record → record.routeId < s.next
  exchangedIds : ∀ token ∈ s.exchanged, token < s.next
  exchanged : s.exchanged.Nodup
  readers : ∀ reader ∈ s.readers, (∀ routeId ∈ reader.pending,
      ∃ issue ∈ s.issued, issue.routeId = routeId) ∧
    ∀ routeId, routeId ∈ reader.done.map RouteSummary.routeId ++ reader.pending ↔
      Paired reader.issued reader.revoked routeId
  listings : ∀ listing ∈ s.listings, ∃ ids, listing.result = some ids ∧
    ∀ routeId, routeId ∈ ids ↔ Paired listing.issued listing.revoked routeId

variable {s : Registry}

lemma Inv.noCut (h : Inv s)
    (hwr : ∀ routeId record, s.writer ≠ some (.registering routeId record)) (routeId : Nat) :
    s.routes.get? routeId ≠ some .cut := by
  intro hcut
  obtain ⟨record, hrec⟩ := h.cut routeId hcut
  exact hwr routeId record hrec

lemma Fresh.mono {s next : Registry} {invitation : Nat} (h : Fresh s invitation)
    (hnext : s.next ≤ next.next) (hexch : next.exchanged = s.exchanged) :
    Fresh next invitation := by
  refine ⟨Nat.lt_of_lt_of_le h.1 hnext, ?_⟩
  rw [hexch]
  exact h.2

lemma Inv.frame {s next : Registry} (h : Inv s) (hroutes : next.routes = s.routes)
    (hissued : next.issued = s.issued) (hrevoked : next.revoked = s.revoked)
    (hexch : next.exchanged = s.exchanged) (hreaders : next.readers = s.readers)
    (hlistings : next.listings = s.listings) (hnext : s.next ≤ next.next)
    (htemp : next.temporaries = temporariesOf next.writer)
    (hcut : ∀ routeId, s.routes.get? routeId ≠ some .cut)
    (hwr : ∀ writer, next.writer = some writer → WriterOk next writer)
    (hinvitations : ∀ token file, next.invitations.get? token = some file → Fresh next token ∧
      ∀ record, file = .whole record → record.routeId < next.next) : Inv next := by
  obtain ⟨routes, temporaries, invitations, writer, id, readers, issued, exchanged, revoked,
    listings⟩ := next
  subst hroutes hissued hrevoked hexch hreaders hlistings
  have hlater : ∀ {old : Nat}, old < s.next → old < id := fun hold => Nat.lt_of_lt_of_le hold hnext
  exact {
    temporaries := htemp
    cut := fun routeId hget => absurd hget (hcut routeId)
    whole := h.whole
    paired := h.paired
    generations := h.generations
    writer := hwr
    routeIds := fun routeId file hget => hlater (h.routeIds routeId file hget)
    issuedIds := fun issue hissue => hlater (h.issuedIds issue hissue)
    revokedIds := fun routeId hmem => hlater (h.revokedIds routeId hmem)
    invitations := hinvitations
    exchangedIds := fun token hmem => hlater (h.exchangedIds token hmem)
    exchanged := h.exchanged
    readers := h.readers
    listings := h.listings }

lemma Inv.invitations_mono {s next : Registry} (h : Inv s) (hnext : s.next ≤ next.next)
    (hexch : next.exchanged = s.exchanged)
    (hkept : ∀ token file, next.invitations.get? token = some file →
      s.invitations.get? token = some file) :
    ∀ token file, next.invitations.get? token = some file → Fresh next token ∧
      ∀ record, file = .whole record → record.routeId < next.next := by
  intro token file hget
  obtain ⟨hfresh, hrec⟩ := h.invitations token file (hkept token file hget)
  exact ⟨hfresh.mono hnext hexch, fun record hfile => Nat.lt_of_lt_of_le (hrec record hfile) hnext⟩

lemma current_cons_self (issue : Issue) (issued : List Issue) :
    current (issue :: issued) issue.routeId = some issue := by
  unfold current
  exact find?_cons_of_pos (by simp)

variable {routeId : Nat}

lemma current_cons_of_ne {issue : Issue} (h : issue.routeId ≠ routeId)
    (issued : List Issue) : current (issue :: issued) routeId = current issued routeId := by
  unfold current
  rw [find?_cons_of_neg]
  simpa using h

lemma Inv.commit {s next : Registry} (h : Inv s) {record : RouteRecord}
    (hroutes : next.routes = s.routes.insert routeId (.whole record))
    (hissued : next.issued = s.issued ∧
        current s.issued routeId = some ⟨routeId, record.generation, record.token⟩ ∨
      next.issued = ⟨routeId, record.generation, record.token⟩ :: s.issued ∧
        ∀ issue ∈ s.issued, issue.routeId = routeId → issue.generation < record.generation)
    (hlabel : record.label.all validateLabel = true) (hkept : routeId ∉ s.revoked)
    (hlt : routeId < s.next)
    (hcut : ∀ other, other ≠ routeId → s.routes.get? other ≠ some .cut)
    (hwr : next.writer = none) (htemp : next.temporaries = 0)
    (hrevoked : next.revoked = s.revoked) (hreaders : next.readers = s.readers)
    (hlistings : next.listings = s.listings) (hnext : next.next = s.next)
    (hinvitations : next.invitations = s.invitations)
    (hexch : next.exchanged = s.exchanged ∨ ∃ invitation,
      next.exchanged = invitation :: s.exchanged ∧ Fresh s invitation ∧
        s.invitations.get? invitation = none) : Inv next := by
  obtain ⟨routes, temporaries, invitations, writer, id, readers, issued, exchanged, revoked,
    listings⟩ := next
  dsimp only at hissued hexch
  subst hroutes hwr htemp hrevoked hreaders hlistings hnext hinvitations
  have hmem : ∀ issue ∈ s.issued, issue ∈ issued := by
    intro issue hissue
    rcases hissued with ⟨rfl, -⟩ | ⟨rfl, -⟩
    · exact hissue
    · exact mem_cons_of_mem _ hissue
  have hnew : ∀ issue ∈ issued, issue ∈ s.issued ∨ issue.routeId = routeId := by
    intro issue hissue
    rcases hissued with ⟨rfl, -⟩ | ⟨rfl, -⟩
    · exact .inl hissue
    · rcases mem_cons.mp hissue with rfl | hold
      · exact .inr rfl
      · exact .inl hold
  have hold : ∀ token ∈ exchanged, token ∈ s.exchanged ∨
      Fresh s token ∧ s.invitations.get? token = none := by
    intro token htoken
    rcases hexch with rfl | ⟨invitation, rfl, hfresh⟩
    · exact .inl htoken
    · rcases mem_cons.mp htoken with rfl | hin
      · exact .inr hfresh
      · exact .inl hin
  refine ⟨rfl, ?_, ?_, ?_, ?_, fun _ hnone => (by cases hnone), ?_, ?_, h.revokedIds, ?_, ?_, ?_,
    fun reader hrd => ⟨fun other hother => ?_, (h.readers reader hrd).2⟩, h.listings⟩
  · intro other hget
    rw [get?_insert] at hget
    split at hget
    · cases hget
    · rename_i hne
      exact absurd hget (hcut other hne)
  · intro other found hget
    rw [get?_insert] at hget
    split at hget
    · rename_i heq
      cases hget
      subst heq
      refine ⟨hkept, hlabel, ?_⟩
      rcases hissued with ⟨rfl, hcur⟩ | ⟨rfl, -⟩
      · exact hcur
      · exact current_cons_self ⟨_, _, _⟩ s.issued
    rename_i hne
    obtain ⟨hnot, hok, hcur⟩ := h.whole other found hget
    refine ⟨hnot, hok, ?_⟩
    rcases hissued with ⟨rfl, -⟩ | ⟨rfl, -⟩
    · exact hcur
    · rw [current_cons_of_ne (Ne.symm hne)]
      exact hcur
  · intro issue hissue hnot
    rw [get?_insert]
    split
    · exact ⟨record, rfl⟩
    · rename_i hne
      exact h.paired issue ((hnew issue hissue).resolve_right hne) hnot
  · rcases hissued with ⟨rfl, -⟩ | ⟨rfl, hless⟩
    · exact h.generations
    · exact pairwise_cons.mpr
        ⟨fun earlier hearlier hsame => hless earlier hearlier hsame.symm, h.generations⟩
  · intro other file hget
    rcases of_get?_insert hget with ⟨heq, -⟩ | ⟨-, hget⟩
    · rw [heq]
      exact hlt
    · exact h.routeIds other file hget
  · intro issue hissue
    rcases hnew issue hissue with hissued | heq
    · exact h.issuedIds issue hissued
    · rw [heq]
      exact hlt
  · intro token file hget
    obtain ⟨hfresh, hrec⟩ := h.invitations token file hget
    refine ⟨⟨hfresh.1, fun hin => ?_⟩, hrec⟩
    rcases hold token hin with hin | ⟨-, hnone⟩
    · exact hfresh.2 hin
    · cases hget.symm.trans hnone
  · intro token htoken
    rcases hold token htoken with hin | ⟨hfresh, -⟩
    · exact h.exchangedIds token hin
    · exact hfresh.1
  · rcases hexch with rfl | ⟨invitation, rfl, hfresh, -⟩
    · exact h.exchanged
    · exact nodup_cons.mpr ⟨hfresh.2, h.exchanged⟩
  · obtain ⟨issue, hissue, heq⟩ := (h.readers reader hrd).1 other hother
    exact ⟨issue, hmem issue hissue, heq⟩

/-! ## The steps -/

section

variable (h : Inv s)
include h

lemma Inv.idle (hidle : s.writer = none) (routeId : Nat) : s.routes.get? routeId ≠ some .cut := by
  refine h.noCut ?_ routeId
  intro other record hwr
  rw [hidle] at hwr
  cases hwr

lemma Inv.invite (hidle : s.writer = none) {routeId token : Nat}
    (now : Int) (hroute : routeId < token + 1) (hnext : s.next ≤ token) :
    Inv (s.invite routeId token now) := by
  have hfresh : Fresh (s.invite routeId token now) token := by
    refine ⟨Nat.lt_succ_self token, ?_⟩
    intro hmem
    exact absurd (h.exchangedIds token hmem) (Nat.not_lt_of_le hnext)
  have hle : s.next ≤ (s.invite routeId token now).next := Nat.le_succ_of_le hnext
  refine h.frame rfl rfl rfl rfl rfl rfl hle ?_ (h.idle hidle) ?_ ?_
  · have htemp := h.temporaries
    rw [hidle] at htemp
    exact htemp
  · intro writer hwr
    cases hwr
    exact ⟨hfresh, hroute⟩
  intro other file hget
  simp only [Registry.invite, get?_insert] at hget
  split at hget
  · rename_i heq
    cases hget
    rw [heq]
    exact ⟨hfresh, fun record hfile => by cases hfile⟩
  · obtain ⟨hold, hrec⟩ := h.invitations other file hget
    exact ⟨hold.mono hle rfl, fun record hfile => Nat.lt_of_lt_of_le (hrec record hfile) hle⟩

lemma Inv.createInvitation (hidle : s.writer = none)
    (routeId : Option Nat) (now : Int) : Inv (s.createInvitation routeId now) := by
  unfold Registry.createInvitation
  split
  · rename_i routeId
    split
    · rename_i hsome
      obtain ⟨file, hfile⟩ := Option.isSome_iff_exists.mp hsome
      exact h.invite hidle now (Nat.lt_succ_of_lt (h.routeIds routeId file hfile)) le_rfl
    · exact h
  · exact h.invite hidle now (Nat.lt_succ_of_lt (Nat.lt_succ_self _)) (Nat.le_succ _)

lemma Inv.setWriter {writer : Option Writer} (htemp : s.temporaries = temporariesOf writer)
    (hcut : ∀ routeId, s.routes.get? routeId ≠ some .cut)
    (hwr : ∀ w, writer = some w → WriterOk s w) : Inv { s with writer := writer } := by
  refine h.frame rfl rfl rfl rfl rfl rfl le_rfl htemp hcut ?_ h.invitations
  intro w hw
  have hok := hwr w hw
  cases w with
  | replacing routeId record written invitation => cases invitation <;> exact hok
  | _ => exact hok

lemma Inv.pair (hidle : s.writer = none) {routeId invitation : Nat}
    {file : File InvitationRecord} (hget : s.invitations.get? invitation = some file) :
    Inv { s with
      invitations := s.invitations.erase invitation
      writer := some (.pairing routeId invitation file) } := by
  refine h.frame rfl rfl rfl rfl rfl rfl le_rfl ?_ (h.idle hidle) ?_ ?_
  · have htemp := h.temporaries
    rw [hidle] at htemp
    exact htemp
  · intro writer hwr
    cases hwr
    obtain ⟨hfresh, hrec⟩ := h.invitations invitation file hget
    exact ⟨hfresh, get?_erase_self _ _, hrec⟩
  refine h.invitations_mono le_rfl rfl ?_
  intro token other hother
  exact (of_get?_erase hother).2

lemma Inv.register (hidle : s.writer = none) {label : String}
    (hlabel : validateLabel label = true) :
    Inv { s with
      routes := s.routes.insert s.next .cut
      writer := some (.registering s.next ⟨s.next + 1, 1, some label⟩)
      next := s.next + 2 } := by
  have hle : s.next ≤ s.next + 2 := Nat.le_add_right _ _
  have hnew : ∀ routeId file, s.routes.get? routeId = some file → routeId ≠ s.next :=
    fun routeId file hget => Nat.ne_of_lt (h.routeIds routeId file hget)
  refine ⟨?_, ?_, ?_, ?_, h.generations, ?_, ?_, ?_, ?_, ?_, ?_, h.exchanged, h.readers, h.listings⟩
  · have htemp := h.temporaries
    rw [hidle] at htemp
    exact htemp
  · intro routeId hget
    rcases of_get?_insert hget with ⟨heq, -⟩ | ⟨-, hget⟩
    · rw [heq]
      exact ⟨_, rfl⟩
    · exact absurd hget (h.idle hidle routeId)
  · intro routeId record hget
    simp only [get?_insert] at hget
    split at hget
    · cases hget
    · exact h.whole routeId record hget
  · intro issue hissue hnot
    obtain ⟨record, hget⟩ := h.paired issue hissue hnot
    refine ⟨record, ?_⟩
    simp only [get?_insert]
    rw [if_neg (hnew _ _ hget)]
    exact hget
  · intro writer hwr
    cases hwr
    refine ⟨hlabel, ?_, ?_, get?_insert_self _ _ _, ?_⟩
    · intro hmem
      exact Nat.lt_irrefl _ (h.revokedIds _ hmem)
    · exact Nat.lt_add_of_pos_right (Nat.succ_pos 1)
    · intro issue hissue heq
      exact Nat.ne_of_lt (h.issuedIds issue hissue) heq
  · intro routeId file hget
    rcases of_get?_insert hget with ⟨heq, -⟩ | ⟨-, hget⟩
    · rw [heq]
      exact Nat.lt_add_of_pos_right (Nat.succ_pos 1)
    · exact Nat.lt_of_lt_of_le (h.routeIds routeId file hget) hle
  · intro issue hissue
    exact Nat.lt_of_lt_of_le (h.issuedIds issue hissue) hle
  · intro routeId hmem
    exact Nat.lt_of_lt_of_le (h.revokedIds routeId hmem) hle
  · exact h.invitations_mono hle rfl (fun _ _ hget => hget)
  · intro token hmem
    exact Nat.lt_of_lt_of_le (h.exchangedIds token hmem) hle

lemma Inv.revoke (hidle : s.writer = none) (routeId : Nat) : Inv { s with
      routes := s.routes.erase routeId
      revoked := if routeId < s.next then routeId :: s.revoked else s.revoked } := by
  have hkept : ∀ other file, (s.routes.erase routeId).get? other = some file →
      other ≠ routeId ∧ s.routes.get? other = some file := by
    intro other file hget
    obtain ⟨hne, hget⟩ := of_get?_erase hget
    exact ⟨hne, hget⟩
  have hrevoked : ∀ other, other ∈ (if routeId < s.next then routeId :: s.revoked else s.revoked) →
      other = routeId ∧ routeId < s.next ∨ other ∈ s.revoked := by
    intro other hmem
    split at hmem
    · rename_i hlt
      rcases mem_cons.mp hmem with heq | hold
      · exact .inl ⟨heq, hlt⟩
      · exact .inr hold
    · exact .inr hmem
  refine ⟨h.temporaries, ?_, ?_, ?_, h.generations, ?_, ?_, h.issuedIds, ?_, h.invitations,
    h.exchangedIds, h.exchanged, h.readers, h.listings⟩
  · intro other hget
    exact absurd (hkept other _ hget).2 (h.idle hidle other)
  · intro other record hget
    obtain ⟨hne, hold⟩ := hkept other _ hget
    obtain ⟨hnot, hok⟩ := h.whole other record hold
    refine ⟨?_, hok⟩
    intro hmem
    rcases hrevoked other hmem with ⟨heq, -⟩ | hmem
    · exact hne heq
    · exact hnot hmem
  · intro issue hissue hnot
    have hlt := h.issuedIds issue hissue
    have hne : issue.routeId ≠ routeId := by
      rintro rfl
      apply hnot
      simp only [if_pos hlt]
      exact mem_cons_self
    have hold : issue.routeId ∉ s.revoked := by
      intro hmem
      apply hnot
      simp only
      split
      · exact mem_cons_of_mem _ hmem
      · exact hmem
    obtain ⟨record, hget⟩ := h.paired issue hissue hold
    refine ⟨record, ?_⟩
    simp only [get?_erase]
    rw [if_neg hne]
    exact hget
  · intro writer hwr
    rw [hidle] at hwr
    cases hwr
  · intro other file hget
    exact h.routeIds other file (hkept other file hget).2
  intro other hmem
  rcases hrevoked other hmem with ⟨heq, hlt⟩ | hmem
  · rw [heq]
    exact hlt
  · exact h.revokedIds other hmem

end

lemma current_max {issued : List Issue}
    (h : issued.Pairwise (fun later earlier => later.routeId = earlier.routeId →
      earlier.generation < later.generation)) {last : Issue}
    (hcur : current issued routeId = some last) :
    ∀ issue ∈ issued, issue.routeId = routeId → issue.generation ≤ last.generation := by
  induction issued with
  | nil => cases hcur
  | cons first rest ih =>
  obtain ⟨hfirst, hrest⟩ := pairwise_cons.mp h
  by_cases heq : first.routeId = routeId
  · subst heq
    rw [current_cons_self] at hcur
    cases hcur
    intro issue hissue hsame
    rcases mem_cons.mp hissue with rfl | hold
    · exact le_rfl
    · exact Nat.le_of_lt (hfirst issue hold hsame.symm)
  rw [current_cons_of_ne heq] at hcur
  intro issue hissue hsame
  rcases mem_cons.mp hissue with rfl | hold
  · exact absurd hsame heq
  · exact ih hrest hcur issue hold hsame

lemma Inv.nextRecord (h : Inv s) {record : RouteRecord} (hkept : routeId ∉ s.revoked)
    (hrec : nextRecord s.next (s.routes.get? routeId) = some record) :
    record.label.all validateLabel = true ∧
      ∀ issue ∈ s.issued, issue.routeId = routeId → issue.generation < record.generation := by
  cases hget : s.routes.get? routeId with
  | none =>
    rw [hget] at hrec
    cases hrec
    refine ⟨rfl, ?_⟩
    rintro issue hissue rfl
    obtain ⟨old, hold⟩ := h.paired issue hissue hkept
    rw [hget] at hold
    cases hold
  | some file =>
  cases file with
  | cut =>
    rw [hget] at hrec
    cases hrec
  | whole old =>
  rw [hget] at hrec
  unfold Routes.nextRecord at hrec
  simp only at hrec
  split at hrec
  · cases hrec
    obtain ⟨-, hlabel, hcur⟩ := h.whole routeId old hget
    refine ⟨hlabel, ?_⟩
    intro issue hissue heq
    exact Nat.lt_succ_of_le (current_max h.generations hcur issue hissue heq)
  · cases hrec

lemma Inv.advance (h : Inv s) (now : Int) (hmeets : Meets s (.advance now)) :
    Inv (s.advance now) := by
  have htemp := h.temporaries
  unfold Registry.advance
  simp only
  split
  · exact h
  · rename_i token record hwr
    obtain ⟨hfresh, hroute⟩ := h.writer _ hwr
    rw [hwr] at htemp
    have hcut := h.noCut (fun routeId record heq => by rw [hwr] at heq; cases heq)
    refine h.frame rfl rfl rfl rfl rfl rfl le_rfl htemp hcut (fun writer hnone => by cases hnone) ?_
    intro other file hget
    rcases of_get?_insert hget with ⟨heq, rfl⟩ | ⟨-, hget⟩
    · rw [heq]
      exact ⟨hfresh, fun found hfile => by cases hfile; exact hroute⟩
    · exact h.invitations other file hget
  · rename_i routeId invitation hwr
    rw [hwr] at htemp
    have hcut := h.noCut (fun routeId record heq => by rw [hwr] at heq; cases heq)
    exact h.setWriter htemp hcut (fun writer hnone => by cases hnone)
  · rename_i routeId invitation record hwr
    obtain ⟨hfresh, hnone, hrec⟩ := h.writer _ hwr
    rw [hwr] at htemp
    have hcut := h.noCut (fun routeId record heq => by rw [hwr] at heq; cases heq)
    have hleft : Inv { s with writer := none } :=
      h.setWriter htemp hcut (fun writer hnone => by cases hnone)
    split
    · exact hleft
    rename_i hvalid
    rw [not_or, Decidable.not_not, Int.not_lt] at hvalid
    split
    · exact hleft
    rename_i found hfound
    have hkept := hmeets routeId invitation record hwr hvalid.1 hvalid.2
    obtain ⟨hlabel, hless⟩ := h.nextRecord hkept hfound
    have hlt : routeId < s.next := hvalid.1 ▸ hrec record rfl
    refine h.frame rfl rfl rfl rfl rfl rfl (Nat.le_succ _) ?_ hcut ?_
      (h.invitations_mono (Nat.le_succ _) rfl (fun _ _ hget => hget))
    · simp only [Registry.replace, htemp]
      rfl
    · intro writer hsome
      cases hsome
      exact ⟨hlabel, hkept, Nat.lt_succ_of_lt hlt, hfresh.mono (Nat.le_succ _) rfl, hnone, hless⟩
  · rename_i routeId record invitation hwr
    have hok := h.writer _ hwr
    rw [hwr] at htemp
    have hcut := h.noCut (fun routeId record heq => by rw [hwr] at heq; cases heq)
    refine h.setWriter htemp hcut ?_
    intro writer hsome
    cases hsome
    cases invitation <;> exact hok
  · rename_i routeId record hwr
    obtain ⟨hlabel, hkept, hlt, hcur⟩ := h.writer _ hwr
    rw [hwr] at htemp
    have hcut := h.noCut (fun routeId record heq => by rw [hwr] at heq; cases heq)
    exact h.commit rfl (.inl ⟨rfl, hcur⟩) hlabel hkept hlt (fun other _ => hcut other) rfl
      (by rw [htemp]; rfl) rfl rfl rfl rfl rfl (.inl rfl)
  · rename_i routeId record invitation hwr
    obtain ⟨hlabel, hkept, hlt, hfresh, hnone, hless⟩ := h.writer _ hwr
    rw [hwr] at htemp
    have hcut := h.noCut (fun routeId record heq => by rw [hwr] at heq; cases heq)
    exact h.commit rfl (.inr ⟨rfl, hless⟩) hlabel hkept hlt (fun other _ => hcut other) rfl
      (by rw [htemp]; rfl) rfl rfl rfl rfl rfl (.inr ⟨invitation, rfl, hfresh, hnone⟩)
  rename_i routeId record hwr
  obtain ⟨hlabel, hkept, hlt, -, hnew⟩ := h.writer _ hwr
  rw [hwr] at htemp
  refine h.commit rfl (.inr ⟨rfl, ?_⟩) hlabel hkept hlt ?_ rfl htemp rfl rfl rfl rfl rfl (.inl rfl)
  · intro issue hissue heq
    exact absurd heq (hnew issue hissue)
  intro other hne hget
  obtain ⟨found, hfound⟩ := h.cut other hget
  rw [hwr] at hfound
  cases hfound
  exact hne rfl

lemma Inv.crash (h : Inv s) (hmeets : s.writing = false) : Inv { s with writer := none } := by
  have hidle : temporariesOf s.writer = 0 ∧
      ∀ routeId record, s.writer ≠ some (.registering routeId record) := by
    unfold Registry.writing at hmeets
    cases hwr : s.writer with
    | none => exact ⟨rfl, fun _ _ heq => by cases heq⟩
    | some writer =>
    rw [hwr] at hmeets
    cases writer with
    | inviting token record => exact ⟨rfl, fun _ _ heq => by cases heq⟩
    | pairing routeId invitation file => exact ⟨rfl, fun _ _ heq => by cases heq⟩
    | _ => cases hmeets
  exact h.setWriter (h.temporaries.trans hidle.1) (h.noCut hidle.2) (fun writer hnone => by cases hnone)

lemma Inv.list (h : Inv s) (hmeets : s.writing = false) :
    ∃ ids, s.list = some ids ∧ ∀ routeId, routeId ∈ ids ↔ Paired s.issued s.revoked routeId := by
  have hidle := h.crash hmeets
  have hzero : s.temporaries = 0 := hidle.temporaries
  refine ⟨s.routes.entries.map Prod.fst, ?_, ?_⟩
  · unfold Registry.list
    rw [if_pos hzero]
  intro routeId
  constructor
  · intro hmem
    obtain ⟨⟨_, file⟩, hentry, rfl⟩ := mem_map.mp hmem
    have hget := mem_entries_iff.mp hentry
    cases file with
    | cut => exact absurd hget (hidle.idle rfl _)
    | whole record =>
      obtain ⟨hkept, -, hcur⟩ := h.whole _ record hget
      exact ⟨⟨_, mem_of_find?_eq_some hcur, rfl⟩, hkept⟩
  · rintro ⟨⟨issue, hissue, rfl⟩, hkept⟩
    obtain ⟨record, hget⟩ := h.paired issue hissue hkept
    exact mem_map.mpr ⟨(_, _), mem_entries_iff.mpr hget, rfl⟩

lemma Inv.setReaders (h : Inv s) {readers : List Reader} {listings : List Listing}
    (hreaders : ∀ reader ∈ readers, (∀ routeId ∈ reader.pending,
        ∃ issue ∈ s.issued, issue.routeId = routeId) ∧
      ∀ routeId, routeId ∈ reader.done.map RouteSummary.routeId ++ reader.pending ↔
        Paired reader.issued reader.revoked routeId)
    (hlistings : ∀ listing ∈ listings, ∃ ids, listing.result = some ids ∧
      ∀ routeId, routeId ∈ ids ↔ Paired listing.issued listing.revoked routeId) :
    Inv { s with readers := readers, listings := listings } := by
  refine ⟨h.temporaries, h.cut, h.whole, h.paired, h.generations, ?_, h.routeIds, h.issuedIds,
    h.revokedIds, h.invitations, h.exchangedIds, h.exchanged, hreaders, hlistings⟩
  intro writer hwr
  have hok := h.writer writer hwr
  cases writer with
  | replacing routeId record written invitation => cases invitation <;> exact hok
  | _ => exact hok

lemma Inv.append_listing (h : Inv s) {listing : Listing}
    (hlisting : ∃ ids, listing.result = some ids ∧
      ∀ routeId, routeId ∈ ids ↔ Paired listing.issued listing.revoked routeId) :
    ∀ other ∈ s.listings ++ [listing], ∃ ids, other.result = some ids ∧
      ∀ routeId, routeId ∈ ids ↔ Paired other.issued other.revoked routeId := by
  intro other hother
  rcases mem_concat.mp hother with hold | hnew
  · exact h.listings other hold
  · rw [hnew]
    exact hlisting

lemma Inv.summary (h : Inv s) (i : Nat) (hmeets : Meets s (.summary i)) : Inv (s.summary i) := by
  unfold Registry.summary
  split
  · exact h
  · rename_i issued revoked done hrd
    obtain ⟨-, hlist⟩ := h.readers _ (mem_of_getElem? hrd)
    refine h.setReaders (fun reader hmem => h.readers reader (mem_of_mem_eraseIdx hmem))
      (h.append_listing ⟨_, rfl, ?_⟩)
    intro routeId
    rw [← hlist routeId, append_nil]
  rename_i issued revoked done routeId pending hrd
  obtain ⟨hpend, hlist⟩ := h.readers _ (mem_of_getElem? hrd)
  have hkept := hmeets issued revoked done routeId pending hrd
  obtain ⟨issue, hissue, rfl⟩ := hpend routeId mem_cons_self
  obtain ⟨record, hget⟩ := h.paired issue hissue hkept
  simp only [hget, (h.whole _ record hget).2.1, if_true]
  refine h.setReaders ?_ h.listings
  intro reader hmem
  rcases mem_or_eq_of_mem_set hmem with hold | rfl
  · exact h.readers reader hold
  refine ⟨fun other hother => hpend other (mem_cons_of_mem _ hother), ?_⟩
  intro other
  rw [← hlist other]
  simp only [map_append, map_cons, map_nil, append_assoc, singleton_append]

lemma Inv.step {s : Registry} (h : Inv s) (event : Event) (hmeets : Meets s event) :
    Inv (s.step event) := by
  cases event with
  | createInvitation routeId now =>
    rw [Registry.step]
    split
    · rename_i hidle
      exact h.createInvitation (Option.isNone_iff_eq_none.mp hidle) routeId now
    · exact h
  | pair routeId invitation =>
    rw [Registry.step]
    split
    · rename_i file hidle hget
      exact h.pair hidle hget
    · exact h
  | register label =>
    rw [Registry.step]
    split
    · rename_i hready
      exact h.register (Option.isNone_iff_eq_none.mp hready.1) hready.2
    · exact h
  | rename routeId label =>
    rw [Registry.step]
    split
    · rename_i record hidle hget
      split
      · rename_i hlabel
        obtain ⟨hkept, -, hcur⟩ := h.whole routeId record hget
        refine h.frame rfl rfl rfl rfl rfl rfl le_rfl ?_ (h.idle hidle) ?_ h.invitations
        · have htemp := h.temporaries
          rw [hidle] at htemp
          simp only [Registry.replace, htemp]
          rfl
        · intro writer hwr
          cases hwr
          exact ⟨hlabel, hkept, h.routeIds routeId _ hget, hcur⟩
      · exact h
    · exact h
  | revoke routeId =>
    rw [Registry.step]
    split
    · rename_i hidle
      exact h.revoke (Option.isNone_iff_eq_none.mp hidle) routeId
    · exact h
  | advance now => exact h.advance now hmeets
  | crash => exact h.crash hmeets
  | routes =>
    obtain ⟨ids, hids, hlist⟩ := h.list hmeets
    exact h.setReaders h.readers (h.append_listing ⟨ids, hids, hlist⟩)
  | summaries =>
    obtain ⟨ids, hids, hlist⟩ := h.list hmeets
    rw [Registry.step, hids]
    refine h.setReaders ?_ h.listings
    intro reader hmem
    rcases mem_concat.mp hmem with hold | hnew
    · exact h.readers reader hold
    · rw [hnew]
      exact ⟨fun routeId hpend => ((hlist routeId).mp hpend).1, hlist⟩
  | summary i => exact h.summary i hmeets

lemma Inv.sound (h : Inv s) : Sound s := by
  refine ⟨h.exchanged, ?_, h.generations, h.listings⟩
  intro routeId token generation
  unfold Registry.authorize
  constructor
  · intro hauth
    split at hauth
    · rename_i record hget
      obtain ⟨hkept, -, hcur⟩ := h.whole routeId record hget
      split at hauth
      · rename_i htoken
        cases hauth
        subst htoken
        exact ⟨hcur, hkept⟩
      · cases hauth
    · cases hauth
  rintro ⟨hcur, hkept⟩
  obtain ⟨record, hget⟩ := h.paired _ (mem_of_find?_eq_some hcur) hkept
  have hlast := (h.whole _ record hget).2.2
  rw [hcur] at hlast
  cases hlast
  simp only [hget, if_true]

lemma Inv.empty : Inv Registry.empty := by
  refine ⟨rfl, ?_, ?_, ?_, List.Pairwise.nil, ?_, ?_, ?_, ?_, ?_, ?_, nodup_nil, ?_, ?_⟩
  · intro routeId hget
    cases hget
  · intro routeId record hget
    cases hget
  · intro issue hissue
    cases hissue
  · intro writer hwr
    cases hwr
  · intro routeId file hget
    cases hget
  · intro issue hissue
    cases hissue
  · intro routeId hmem
    cases hmem
  · intro token file hget
    cases hget
  all_goals
    intro x hx
    cases hx

/-- In every run that meets the conditions, invitations, credentials and lists are right. -/
theorem route_registry_sound (events : List Event)
    (hmeets : Always Registry.step Meets Registry.empty events) :
    Sound (exec Registry.step Registry.empty events) :=
  (exec_invariant_of_always (P := Inv) (fun _ event h => h.step event) Inv.empty hmeets).sound

/-- A computer is invited, paired, listed and revoked. -/
theorem route_registry_sound_of_revoked :
    Sound (exec Registry.step Registry.empty
      [.createInvitation none 0, .advance 0, .pair 0 1, .advance 1, .advance 1, .advance 1, .routes,
        .summaries, .summary 0, .summary 0, .revoke 0, .routes]) :=
  route_registry_sound _
    ⟨trivial, fun _ _ _ h => (by cases h), trivial, fun _ _ _ _ _ _ h => (by cases h),
      fun _ _ _ h => (by cases h), fun _ _ _ h => (by cases h), rfl, rfl,
      fun _ _ _ _ _ _ h => (by cases h), fun _ _ _ _ _ _ h => (by cases h), trivial, rfl, trivial⟩

/-- An invitation that outlives the revocation of its route pairs it again. -/
theorem revoked_route_paired_again :
    ¬ ∀ events : List Event, Sound (exec Registry.step Registry.empty events) := by
  intro h
  have hsound := h [.createInvitation none 0, .advance 0, .pair 0 1, .advance 1, .advance 1,
    .advance 1, .createInvitation (some 0) 2, .advance 2, .revoke 0, .pair 0 3, .advance 3,
    .advance 3, .advance 3]
  have hnot := ((hsound.authorized 0 4 1).mp rfl).2
  exact hnot (by decide)

end CodeWide.Relay.Routes
