import CodeWide.Device.CommandStore
import Mathlib.Data.List.Pairwise

/-!
# Command lanes

While the clock never runs backwards a connection sends one command at a time, a lane in its order,
and a command leaves the table only when it is done.
-/

namespace CodeWide.Device

open Lib List Table CommandState
open Bool (eq_false_iff)
open NativeCommandStore

/-! ## The order of the rows -/

section Order

lemma le_or_le (a b : CommandRow) : a.le b ∨ b.le a := by
  rcases lt_trichotomy a.createdAt b.createdAt with h | h | h
  · exact .inl (.inl h)
  · rcases le_total a.commandId b.commandId with hle | hle
    · exact .inl (.inr ⟨h, hle⟩)
    · exact .inr (.inr ⟨h.symm, hle⟩)
  · exact .inr (.inl h)

lemma le_of_le_of_le {a b c : CommandRow} (hab : a.le b) (hbc : b.le c) : a.le c := by
  rcases hab with hab | ⟨hab, hid⟩ <;> rcases hbc with hbc | ⟨hbc, hid'⟩
  · exact .inl (hab.trans hbc)
  · exact .inl (hbc ▸ hab)
  · exact .inl (hab ▸ hbc)
  · exact .inr ⟨hab.trans hbc, hid.trans hid'⟩

lemma commandId_eq_of_le {a b : CommandRow} (hab : a.le b) (hba : b.le a) :
    a.commandId = b.commandId := by
  rcases hab with hab | ⟨hab, hid⟩ <;> rcases hba with hba | ⟨hba, hid'⟩
  · omega
  · omega
  · omega
  · exact le_antisymm hid hid'

lemma pairwise_le (rows : List CommandRow) :
    (rows.insertionSort CommandRow.le).Pairwise CommandRow.le := by
  have htotal : Std.Total CommandRow.le := ⟨le_or_le⟩
  have htrans : IsTrans CommandRow CommandRow.le := ⟨fun _ _ _ => le_of_le_of_le⟩
  exact pairwise_insertionSort _ rows

end Order

/-! ## Lane heads -/

section Heads

variable {org : OrgJson}

lemma laneHeads_sublist (lanes : List String) (rows : List CommandRow) :
    (laneHeads org lanes rows).Sublist rows := by
  induction rows generalizing lanes with
  | nil => exact List.Sublist.refl _
  | cons candidate rest ih =>
  rw [laneHeads]
  split
  · exact (ih lanes).cons candidate
  · exact (ih _).cons_cons candidate

variable {lanes : List String}

lemma laneKey_notMem_of_mem_laneHeads {rows : List CommandRow}
    {head : CommandRow} (h : head ∈ laneHeads org lanes rows) :
    laneKey org head.toNativeCommand ∉ lanes := by
  induction rows generalizing lanes with
  | nil => exact absurd h not_mem_nil
  | cons candidate rest ih =>
  rw [laneHeads] at h
  split at h
  · exact ih h
  rename_i hnew
  rcases mem_cons.mp h with rfl | h
  · exact hnew
  · exact fun hmem => ih h (mem_cons_of_mem _ hmem)

lemma le_of_mem_laneHeads {rows : List CommandRow}
    (hsorted : rows.Pairwise CommandRow.le) {head row : CommandRow}
    (h : head ∈ laneHeads org lanes rows) (hrow : row ∈ rows)
    (hlane : laneKey org row.toNativeCommand = laneKey org head.toNativeCommand) :
    head = row ∨ head.le row := by
  induction rows generalizing lanes with
  | nil => exact absurd hrow not_mem_nil
  | cons candidate rest ih =>
  obtain ⟨hfirst, hrest⟩ := pairwise_cons.mp hsorted
  rw [laneHeads] at h
  split at h
  · rename_i hseen
    rcases mem_cons.mp hrow with rfl | hrow
    · exact absurd (hlane ▸ hseen) (laneKey_notMem_of_mem_laneHeads h)
    · exact ih hrest h hrow
  rcases mem_cons.mp h with rfl | h
  · rcases mem_cons.mp hrow with rfl | hrow
    · exact .inl rfl
    · exact .inr (hfirst row hrow)
  · rcases mem_cons.mp hrow with rfl | hrow
    · exact absurd (hlane ▸ mem_cons_self) (laneKey_notMem_of_mem_laneHeads h)
    · exact ih hrest h hrow

variable {rows : List CommandRow} {connectionId : String} {head row : CommandRow}

lemma mem_pendingRows :
    row ∈ (rows.filter fun row => decide (row.connectionId = connectionId) && row.pending).insertionSort
      CommandRow.le ↔ row ∈ rows ∧ row.connectionId = connectionId ∧ row.pending = true := by
  rw [mem_insertionSort, mem_filter, Bool.and_eq_true, decide_eq_true_eq]

lemma of_mem_pendingLaneHeads (h : head ∈ pendingLaneHeads org rows connectionId) :
    head ∈ rows ∧ head.connectionId = connectionId ∧ head.pending = true :=
  mem_pendingRows.mp ((laneHeads_sublist _ _).subset h)

lemma le_of_mem_pendingLaneHeads (h : head ∈ pendingLaneHeads org rows connectionId)
    (hrow : row ∈ rows) (hconn : row.connectionId = connectionId)
    (hpend : row.pending = true)
    (hlane : laneKey org row.toNativeCommand = laneKey org head.toNativeCommand) :
    head = row ∨ head.le row :=
  le_of_mem_laneHeads (pairwise_le _) h (mem_pendingRows.mpr ⟨hrow, hconn, hpend⟩) hlane

lemma mem_of_nextReady {now : Nat} (h : nextReady org now rows connectionId = some head) :
    head ∈ pendingLaneHeads org rows connectionId :=
  mem_of_find?_eq_some h

end Heads

/-! ## Pruned receipts -/

section Prune

variable {now : Nat} {rows : List CommandRow} {row : CommandRow}

lemma pruneReceipts_sublist : (pruneReceipts now rows).Sublist rows :=
  filter_sublist.trans filter_sublist

lemma mem_pruneReceipts (hrow : row ∈ rows) (hdlv : row.state ≠ .delivered)
    (hexpired : row.state = .failed → expired now row = false) : row ∈ pruneReceipts now rows := by
  have hkept : expired now row = false := by
    by_contra h
    have h : expired now row = true := by simpa using h
    rcases (of_decide_eq_true h).1 with hstate | hstate
    · exact absurd h (eq_false_iff.mp (hexpired hstate))
    · exact hdlv hstate
  rw [pruneReceipts, mem_filter, mem_filter, hkept, decide_eq_false hdlv]
  exact ⟨⟨hrow, rfl⟩, rfl⟩

end Prune

/-! ## The invariant -/

namespace CommandRow

/-- Two rows of one lane. -/
def SameLane (x y : CommandRow) : Prop := x.connectionId = y.connectionId ∧ x.lane = y.lane

instance (x y : CommandRow) : Decidable (x.SameLane y) :=
  inferInstanceAs (Decidable (x.connectionId = y.connectionId ∧ x.lane = y.lane))

/-- What a rewrite of a row leaves as it is. -/
structure Keeps (x x' : CommandRow) : Prop where
  connectionId : x'.connectionId = x.connectionId
  commandId : x'.commandId = x.commandId
  createdAt : x'.createdAt = x.createdAt
  lane : x'.lane = x.lane
  settled : x.settled = true → x'.settled = true

lemma Keeps.refl (x : CommandRow) : Keeps x x := ⟨rfl, rfl, rfl, rfl, id⟩

lemma named_iff {connectionId commandId : String} {row : CommandRow} :
    row.named connectionId commandId = true ↔
      row.connectionId = connectionId ∧ row.commandId = commandId := decide_eq_true_iff

lemma pending_iff {row : CommandRow} :
    row.pending = true ↔ row.state = .queued ∨ row.state = .uncertain := decide_eq_true_iff

end CommandRow

namespace Drain

def command : Drain → NativeCommand
  | reconciling command _ | sending command _ => command

def rowState : Drain → CommandState
  | reconciling _ _ => .uncertain
  | sending _ _ => .sending

end Drain

namespace CommandQueue

open CommandRow

def Holds (draining : Table String Drain) (row : CommandRow) : Prop :=
  ∃ d, draining.get? row.connectionId = some d ∧ d.command.commandId = row.commandId

structure RowOk (org : OrgJson) (draining : Table String Drain) (clock : Nat)
    (row : CommandRow) : Prop where
  created : row.createdAt ≤ clock
  lane : row.state ≠ .delivered → laneKey org row.toNativeCommand = row.lane
  settled : row.state = .failed ∨ row.state = .delivered → row.settled = true
  sending : row.state = .sending → Holds draining row
  held : ∀ d, draining.get? row.connectionId = some d → d.command.commandId = row.commandId →
    row.state = d.rowState

structure InLane (draining : Table String Drain) (x y : CommandRow) : Prop where
  before : x.settled = false →
    x.createdAt < y.createdAt ∨ x.createdAt = y.createdAt ∧ x.commandId < y.commandId
  first : 0 < y.attempts ∨ Holds draining y → x.settled = true

structure Inv (org : OrgJson) (s : CommandQueue) : Prop where
  keys : s.rows.Pairwise fun x y => x.connectionId = y.connectionId → x.commandId ≠ y.commandId
  rows : ∀ row ∈ s.rows, RowOk org s.draining s.clock row
  lanes : s.rows.Pairwise fun x y => x.SameLane y → InLane s.draining x y
  ready : ∀ x ∈ s.rows, ∀ y ∈ s.rows, x.SameLane y → x.le y → x.commandId ≠ y.commandId →
    Holds s.draining y → x.pending = true → x.nextAttemptAt = 0
  mine : ∀ id d, s.draining.get? id = some d → d.command.connectionId = id
  kept : ∀ id d, s.draining.get? id = some d →
    ∃ row ∈ s.rows, row.named id d.command.commandId = true

namespace Inv

variable {org : OrgJson} {s : CommandQueue}

lemma eq_of_named (h : Inv org s) {x y : CommandRow} (hx : x ∈ s.rows) (hy : y ∈ s.rows)
    (hconn : x.connectionId = y.connectionId) (hcmd : x.commandId = y.commandId) :
    x = y := by
  have hsymm : Std.Symm fun x y : CommandRow =>
      x.connectionId = y.connectionId → x.commandId ≠ y.commandId :=
    ⟨fun _ _ hne heq => (hne heq.symm).symm⟩
  by_contra hne
  exact h.keys.forall hx hy hne hconn hcmd

lemma laneKey_eq (h : Inv org s) {row : CommandRow} (hrow : row ∈ s.rows)
    (hpend : row.pending = true) : laneKey org row.toNativeCommand = row.lane := by
  refine (h.rows row hrow).lane fun hdlv => ?_
  rcases pending_iff.mp hpend with hstate | hstate <;> rw [hstate] at hdlv <;> cases hdlv

variable {rows' : List CommandRow}

/-- The invariant over a rewrite of the rows, some of which may be dropped, and a change of what
the drains hold. -/
lemma of_change (h : Inv org s) {f : CommandRow → CommandRow}
    {draining' : Table String Drain} (hsub : rows'.Sublist (s.rows.map f))
    (hkeeps : ∀ row ∈ s.rows, row.Keeps (f row))
    (hrows : ∀ row ∈ s.rows, f row ∈ rows' → RowOk org draining' s.clock (f row))
    (hfirst : ∀ x ∈ s.rows, ∀ y ∈ s.rows, x.SameLane y → InLane s.draining x y → f y ∈ rows' →
      0 < (f y).attempts ∨ Holds draining' y → x.settled = true)
    (hready : ∀ x ∈ s.rows, ∀ y ∈ s.rows, x.SameLane y → x.le y → x.commandId ≠ y.commandId →
      f y ∈ rows' → Holds draining' y → (f x).pending = true → (f x).nextAttemptAt = 0)
    (hmine : ∀ id d, draining'.get? id = some d → d.command.connectionId = id)
    (hkept : ∀ id d, draining'.get? id = some d →
      ∃ row ∈ rows', row.named id d.command.commandId = true) :
    Inv org { s with rows := rows', draining := draining' } := by
  have hmem : ∀ row' ∈ rows', ∃ row ∈ s.rows, f row = row' := fun row' hrow' =>
    mem_map.mp (hsub.subset hrow')
  have hpair : ∀ {x' y' : CommandRow}, [x', y'].Sublist rows' →
      ∃ x y, [x, y].Sublist s.rows ∧ f x = x' ∧ f y = y' := by
    intro x' y' hxy
    obtain ⟨l, hl, hmap⟩ := sublist_map_iff.mp (hxy.trans hsub)
    match l, hmap with
    | [x, y], hmap =>
      simp only [map_cons, map_nil, cons.injEq, and_true] at hmap
      exact ⟨x, y, hl, hmap.1.symm, hmap.2.symm⟩
  have hholds : ∀ y ∈ s.rows, Holds draining' (f y) → Holds draining' y := by
    rintro y hy ⟨d, hd, hcmd⟩
    rw [(hkeeps y hy).connectionId] at hd
    exact ⟨d, hd, hcmd.trans (hkeeps y hy).commandId⟩
  refine ⟨?_, ?_, ?_, ?_, hmine, hkept⟩
  · refine pairwise_of_forall_sublist fun hxy => ?_
    obtain ⟨x, y, hsubxy, rfl, rfl⟩ := hpair hxy
    have hx := hkeeps x (hsubxy.subset mem_cons_self)
    have hy := hkeeps y (hsubxy.subset (by simp))
    rw [hx.connectionId, hy.connectionId, hx.commandId, hy.commandId]
    exact h.keys.forall_sublist hsubxy
  · intro row' hrow'
    obtain ⟨row, hrow, rfl⟩ := hmem row' hrow'
    exact hrows row hrow hrow'
  · refine pairwise_of_forall_sublist fun hxy => ?_
    have hy' := hxy.subset (mem_cons_of_mem _ mem_cons_self)
    obtain ⟨x, y, hsubxy, rfl, rfl⟩ := hpair hxy
    have hxmem : x ∈ s.rows := hsubxy.subset mem_cons_self
    have hymem : y ∈ s.rows := hsubxy.subset (by simp)
    have hx := hkeeps x hxmem
    have hy := hkeeps y hymem
    rintro ⟨hconn, hlane⟩
    have hsame : x.SameLane y :=
      ⟨hx.connectionId.symm.trans (hconn.trans hy.connectionId),
        hx.lane.symm.trans (hlane.trans hy.lane)⟩
    have hold := h.lanes.forall_sublist hsubxy hsame
    refine ⟨fun hunset => ?_, fun hsent => hx.settled ?_⟩
    · rw [hx.createdAt, hy.createdAt, hx.commandId, hy.commandId]
      refine hold.before (eq_false_iff.mpr fun hsett => ?_)
      exact absurd (hx.settled hsett) (eq_false_iff.mp hunset)
    · exact hfirst x hxmem y hymem hsame hold hy' (hsent.imp_right (hholds y hymem))
  intro x' hx' y' hy' hsame hle hne hheld hpend
  obtain ⟨x, hxmem, rfl⟩ := hmem x' hx'
  obtain ⟨y, hymem, rfl⟩ := hmem y' hy'
  have hx := hkeeps x hxmem
  have hy := hkeeps y hymem
  rw [CommandRow.SameLane, hx.connectionId, hy.connectionId, hx.lane, hy.lane] at hsame
  rw [CommandRow.le, hx.createdAt, hy.createdAt, hx.commandId, hy.commandId] at hle
  rw [hx.commandId, hy.commandId] at hne
  exact hready x hxmem y hymem hsame hle hne hy' (hholds y hymem hheld) hpend

lemma of_sublist (h : Inv org s) (hsub : rows'.Sublist s.rows)
    (hrest : ∀ row ∈ s.rows, row.state ≠ .failed → row.state ≠ .delivered → row ∈ rows') :
    Inv org { s with rows := rows' } := by
  refine h.of_change (f := id) (by rwa [map_id]) (fun row _ => .refl row)
    (fun row hrow _ => h.rows row hrow) (fun x _ y _ _ hold _ => hold.first) ?_ h.mine ?_
  · exact fun x hx y hy hsame hle hne _ => h.ready x hx y hy hsame hle hne
  intro id d hd
  obtain ⟨row, hrow, hnamed⟩ := h.kept id d hd
  obtain ⟨rfl, hcmd⟩ := named_iff.mp hnamed
  have hstate := (h.rows row hrow).held d hd hcmd.symm
  refine ⟨row, hrest row hrow ?_ ?_, hnamed⟩ <;>
  · rw [hstate]
    cases d <;> exact noConfusion

lemma tick (h : Inv org s) (elapsed : Nat) : Inv org (s.tick elapsed) := by
  refine ⟨h.keys, fun row hrow => ?_, h.lanes, h.ready, h.mine, h.kept⟩
  have hrow := h.rows row hrow
  exact ⟨hrow.created.trans (Nat.le_add_right _ _), hrow.lane, hrow.settled, hrow.sending,
    hrow.held⟩

lemma empty : Inv org {} where
  keys := List.Pairwise.nil
  rows _ h := absurd h not_mem_nil
  lanes := List.Pairwise.nil
  ready _ h := absurd h not_mem_nil
  mine _ _ h := absurd h (by simp)
  kept _ _ h := absurd h (by simp)

end Inv

/-! ## What a drain may act on -/

/-- The command that a drain of the connection may act on. -/
structure Chosen (s : CommandQueue) (id commandId : String) : Prop where
  present : ∃ row ∈ s.rows, row.named id commandId = true
  free : ∀ d, s.draining.get? id = some d → d.command.commandId = commandId
  alive : ∀ row ∈ s.rows, row.named id commandId = true → row.state ≠ .delivered
  first : ∀ x ∈ s.rows, ∀ y ∈ s.rows, y.named id commandId = true → x.SameLane y →
    InLane s.draining x y → x.settled = true
  ready : ∀ x ∈ s.rows, ∀ y ∈ s.rows, y.named id commandId = true → x.SameLane y → x.le y →
    x.commandId ≠ commandId → x.pending = true → x.nextAttemptAt = 0

section Chosen

variable {org : OrgJson} {s : CommandQueue} {id : String}

lemma Inv.chosen_of_draining (h : Inv org s) {d : Drain} (hd : s.draining.get? id = some d) :
    Chosen s id d.command.commandId := by
  have hholds : ∀ y, CommandRow.named id d.command.commandId y = true → Holds s.draining y := by
    intro y hy
    obtain ⟨rfl, hcmd⟩ := named_iff.mp hy
    exact ⟨d, hd, hcmd.symm⟩
  refine ⟨h.kept id d hd, fun d' hd' => ?_, fun row hrow hnamed => ?_,
    fun x _ y _ hy _ hlane => ?_, ?_⟩
  · rw [Option.some.inj (hd.symm.trans hd')]
  · obtain ⟨rfl, hcmd⟩ := named_iff.mp hnamed
    rw [(h.rows row hrow).held d hd hcmd.symm]
    cases d <;> exact noConfusion
  · exact hlane.first (.inr (hholds y hy))
  · intro x hx y hy hnamed hsame hle hne hpend
    refine h.ready x hx y hy hsame hle ?_ (hholds y hnamed) hpend
    exact fun heq => hne (heq.trans (named_iff.mp hnamed).2)

lemma Inv.chosen_of_head (h : Inv org s) (hidle : s.draining.get? id = none) {head : CommandRow}
    (hhead : head ∈ pendingLaneHeads org s.rows id) : Chosen s id head.commandId := by
  obtain ⟨hmem, hconn, hpend⟩ := of_mem_pendingLaneHeads hhead
  have heq : ∀ y ∈ s.rows, y.named id head.commandId = true → y = head := by
    intro y hy hnamed
    obtain ⟨hy', hcmd⟩ := named_iff.mp hnamed
    exact h.eq_of_named hy hmem (hy'.trans hconn.symm) hcmd
  -- nothing pending stands before a head in its lane
  have hahead : ∀ x ∈ s.rows, x.SameLane head → x.le head → x.commandId ≠ head.commandId →
      x.pending = false := by
    intro x hx hsame hle hne
    by_contra hx'
    have hx' : x.pending = true := by simpa using hx'
    have hlane : laneKey org x.toNativeCommand = laneKey org head.toNativeCommand := by
      rw [h.laneKey_eq hx hx', h.laneKey_eq hmem hpend, hsame.2]
    rcases le_of_mem_pendingLaneHeads hhead hx (hsame.1.trans hconn) hx' hlane with rfl | hge
    · exact hne rfl
    · exact hne (commandId_eq_of_le hle hge)
  refine ⟨⟨head, hmem, named_iff.mpr ⟨hconn, rfl⟩⟩, fun d hd => ?_, fun row hrow hnamed => ?_,
    fun x hx y hy hnamed hsame hlane => ?_, ?_⟩
  · rw [hidle] at hd
    cases hd
  · rw [heq row hrow hnamed]
    rcases pending_iff.mp hpend with hstate | hstate <;> rw [hstate] <;> exact noConfusion
  · obtain rfl := heq y hy hnamed
    by_contra hunset
    have hunset : x.settled = false := by simpa using hunset
    have hbef := hlane.before hunset
    have hle : x.le y := hbef.imp_right fun ⟨hcreated, hlt⟩ => ⟨hcreated, hlt.le⟩
    have hne : x.commandId ≠ y.commandId := by
      intro heq'
      obtain rfl := h.eq_of_named hx hy hsame.1 heq'
      rcases hbef with hlt | ⟨-, hlt⟩ <;> exact absurd hlt (lt_irrefl _)
    have hnot := hahead x hx hsame hle hne
    have hx' := h.rows x hx
    cases hstate : x.state with
    | queued => exact absurd (pending_iff.mpr (.inl hstate)) (eq_false_iff.mp hnot)
    | uncertain => exact absurd (pending_iff.mpr (.inr hstate)) (eq_false_iff.mp hnot)
    | sending =>
      obtain ⟨d, hd, -⟩ := hx'.sending hstate
      rw [hsame.1, hconn, hidle] at hd
      cases hd
    | failed => exact absurd (hx'.settled (.inl hstate)) (eq_false_iff.mp hunset)
    | delivered => exact absurd (hx'.settled (.inr hstate)) (eq_false_iff.mp hunset)
  · intro x hx y hy hnamed hsame hle hne hx'
    obtain rfl := heq y hy hnamed
    exact absurd hx' (eq_false_iff.mp (hahead x hx hsame hle hne))

end Chosen

/-! ## What the operations keep -/

namespace Inv

variable {org : OrgJson} {s : CommandQueue} {id commandId : String}

section

variable (h : Inv org s)
include h

variable {set : CommandRow → CommandRow}

lemma take (hchosen : Chosen s id commandId) {d : Drain}
    (hconn : d.command.connectionId = id) (hcmd : d.command.commandId = commandId)
    (hset : ∀ row ∈ s.rows, row.named id commandId = true → row.Keeps (set row) ∧
      (set row).state = d.rowState ∧
      laneKey org (set row).toNativeCommand = laneKey org row.toNativeCommand) :
    Inv org { s with
      rows := update s.rows id commandId set, draining := s.draining.insert id d } := by
  have hother : ∀ {row : CommandRow}, row.named id commandId = false →
      Holds (s.draining.insert id d) row → row.connectionId ≠ id ∧ Holds s.draining row := by
    rintro row hnamed ⟨d', hd', hcmd'⟩
    by_cases heq : row.connectionId = id
    · rw [heq, get?_insert_self] at hd'
      obtain rfl := Option.some.inj hd'
      exact absurd (named_iff.mpr ⟨heq, hcmd'.symm.trans hcmd⟩) (eq_false_iff.mp hnamed)
    · rw [get?_insert_of_ne _ _ heq] at hd'
      exact ⟨heq, d', hd', hcmd'⟩
  refine h.of_change (.refl _) (fun row hrow => ?_) (fun row hrow _ => ?_)
    (fun x hx y hy hsame hlane _ => ?_) (fun x hx y hy hsame hle hne _ => ?_) (fun id' d' hd' => ?_)
    (fun id' d' hd' => ?_)
  · cases hnamed : row.named id commandId with
    | true => simpa using (hset row hrow hnamed).1
    | false => simpa using Keeps.refl row
  · have hrow' := h.rows row hrow
    cases hnamed : row.named id commandId with
    | true =>
      rw [if_pos rfl]
      obtain ⟨hkeeps, hstate, hlane⟩ := hset row hrow hnamed
      obtain ⟨hid, hname⟩ := named_iff.mp hnamed
      refine ⟨hkeeps.createdAt.symm ▸ hrow'.created, fun _ => ?_, fun hdone => ?_, fun _ => ?_,
        fun d' hd' _ => ?_⟩
      · rw [hlane, hkeeps.lane]
        exact hrow'.lane (hchosen.alive row hrow hnamed)
      · rw [hstate] at hdone
        cases d <;> rcases hdone with hdone | hdone <;> cases hdone
      · refine ⟨d, ?_, ?_⟩
        · rw [hkeeps.connectionId, hid, get?_insert_self]
        · rw [hcmd, hkeeps.commandId, hname]
      · rw [hkeeps.connectionId, hid, get?_insert_self] at hd'
        obtain rfl := Option.some.inj hd'
        exact hstate
    | false =>
    rw [if_neg (by simp)]
    have hne : ∀ d', s.draining.get? row.connectionId = some d' →
        d'.command.commandId = row.commandId → row.connectionId ≠ id := by
      intro d' hd' hname hid
      rw [hid] at hd'
      have hnamed' := named_iff.mpr ⟨hid, hname.symm.trans (hchosen.free d' hd')⟩
      exact absurd hnamed' (eq_false_iff.mp hnamed)
    refine ⟨hrow'.created, hrow'.lane, hrow'.settled, fun hsend => ?_, fun d' hd' hname => ?_⟩
    · obtain ⟨d', hd', hname⟩ := hrow'.sending hsend
      exact ⟨d', (get?_insert_of_ne _ _ (hne d' hd' hname)).trans hd', hname⟩
    · obtain ⟨hid, -⟩ := hother hnamed ⟨d', hd', hname⟩
      rw [get?_insert_of_ne _ _ hid] at hd'
      exact hrow'.held d' hd' hname
  · intro hsent
    cases hnamed : y.named id commandId with
    | true => exact hchosen.first x hx y hy hnamed hsame hlane
    | false =>
      rw [hnamed, if_neg (by simp)] at hsent
      exact hlane.first (hsent.imp_right fun hheld => (hother hnamed hheld).2)
  · intro hheld
    cases hnamed : y.named id commandId with
    | true =>
      obtain ⟨-, hname⟩ := named_iff.mp hnamed
      have hx' : x.named id commandId = false := by
        refine eq_false_iff.mpr fun hx' => hne ?_
        exact (named_iff.mp hx').2.trans hname.symm
      rw [hx', if_neg (by simp)]
      exact hchosen.ready x hx y hy hnamed hsame hle (fun heq => hne (heq.trans hname.symm))
    | false =>
    obtain ⟨hid, hheld⟩ := hother hnamed hheld
    have hx' : x.named id commandId = false :=
      eq_false_iff.mpr fun hx' => hid (hsame.1.symm.trans (named_iff.mp hx').1)
    rw [hx', if_neg (by simp)]
    exact h.ready x hx y hy hsame hle hne hheld
  · rcases of_get?_insert hd' with ⟨heq, rfl⟩ | ⟨-, hd'⟩
    · exact hconn.trans heq.symm
    · exact h.mine id' d' hd'
  have hpres : ∃ row ∈ s.rows, row.named id' d'.command.commandId = true := by
    rcases of_get?_insert hd' with ⟨heq, rfl⟩ | ⟨-, hd'⟩
    · rw [heq, hcmd]
      exact hchosen.present
    · exact h.kept id' d' hd'
  obtain ⟨row, hrow, hnamed'⟩ := hpres
  refine ⟨_, mem_map_of_mem hrow, ?_⟩
  split
  · rename_i hnamed
    rw [named_iff, (hset row hrow hnamed).1.connectionId, (hset row hrow hnamed).1.commandId]
    exact named_iff.mp hnamed'
  · exact hnamed'

variable {rows' : List CommandRow}

lemma finish (hchosen : Chosen s id commandId)
    (hsub : rows'.Sublist (update s.rows id commandId set))
    (hrest : ∀ row ∈ s.rows, row.connectionId ≠ id → row ∈ rows')
    (hkeeps : ∀ row ∈ s.rows, row.named id commandId = true → row.Keeps (set row))
    (hset : ∀ row ∈ s.rows, row.named id commandId = true → set row ∈ rows' →
      (set row).attempts = row.attempts ∧ (set row).state ≠ .sending ∧
      ((set row).state ≠ .delivered → laneKey org (set row).toNativeCommand = row.lane) ∧
      ((set row).state = .failed ∨ (set row).state = .delivered → (set row).settled = true)) :
    Inv org (s.finish id rows') := by
  have hother : ∀ {row : CommandRow}, Holds (s.draining.erase id) row →
      row.connectionId ≠ id ∧ Holds s.draining row := by
    rintro row ⟨d, hd, hname⟩
    obtain ⟨hid, hd⟩ := of_get?_erase hd
    exact ⟨hid, d, hd, hname⟩
  refine h.of_change hsub (fun row hrow => ?_) (fun row hrow hmem => ?_)
    (fun x hx y hy hsame hlane hmem => ?_) (fun x hx y hy hsame hle hne _ => ?_)
    (fun id' d' hd' => ?_) (fun id' d' hd' => ?_)
  · cases hnamed : row.named id commandId with
    | true => simpa using hkeeps row hrow hnamed
    | false => simpa using Keeps.refl row
  · have hrow' := h.rows row hrow
    cases hnamed : row.named id commandId with
    | true =>
      rw [hnamed, if_pos rfl] at hmem
      rw [if_pos rfl]
      have hkeeps := hkeeps row hrow hnamed
      obtain ⟨-, hsend, hlane, hsett⟩ := hset row hrow hnamed hmem
      refine ⟨hkeeps.createdAt.symm ▸ hrow'.created, fun hstate => hkeeps.lane.symm ▸ hlane hstate,
        hsett, fun hstate => absurd hstate hsend, fun d hd _ => ?_⟩
      rw [hkeeps.connectionId, (named_iff.mp hnamed).1, get?_erase_self] at hd
      cases hd
    | false =>
    rw [if_neg (by simp)]
    refine ⟨hrow'.created, hrow'.lane, hrow'.settled, fun hsend => ?_, fun d hd hname => ?_⟩
    · obtain ⟨d, hd, hname⟩ := hrow'.sending hsend
      refine ⟨d, ?_, hname⟩
      rw [get?_erase, if_neg, hd]
      intro hid
      rw [hid] at hd
      exact absurd (named_iff.mpr ⟨hid, hname.symm.trans (hchosen.free d hd)⟩)
        (eq_false_iff.mp hnamed)
    exact hrow'.held d (of_get?_erase hd).2 hname
  · intro hsent
    refine hlane.first (Or.imp ?_ (fun hheld => (hother hheld).2) hsent)
    cases hnamed : y.named id commandId with
    | true =>
      rw [hnamed, if_pos rfl] at hmem
      rw [if_pos rfl, (hset y hy hnamed hmem).1]
      exact fun hpos => hpos
    | false =>
      rw [if_neg (by simp)]
      exact fun hpos => hpos
  · intro hheld
    obtain ⟨hid, hheld⟩ := hother hheld
    have hx' : x.named id commandId = false :=
      eq_false_iff.mpr fun hx' => hid (hsame.1.symm.trans (named_iff.mp hx').1)
    rw [hx', if_neg (by simp)]
    exact h.ready x hx y hy hsame hle hne hheld
  · exact h.mine id' d' (of_get?_erase hd').2
  obtain ⟨hid, hd'⟩ := of_get?_erase hd'
  obtain ⟨row, hrow, hnamed⟩ := h.kept id' d' hd'
  exact ⟨row, hrest row hrow ((named_iff.mp hnamed).1 ▸ hid), hnamed⟩

lemma rewrite {f : CommandRow → CommandRow}
    (hf : ∀ row ∈ s.rows, row.Keeps (f row) ∧ (f row).attempts = row.attempts ∧
      RowOk org s.draining s.clock (f row) ∧ ((f row).pending = true → (f row).nextAttemptAt = 0 ∨
          row.pending = true ∧ (f row).nextAttemptAt = row.nextAttemptAt)) :
    Inv org { s with rows := s.rows.map f } := by
  refine h.of_change (.refl _) (fun row hrow => (hf row hrow).1)
    (fun row hrow _ => (hf row hrow).2.2.1) (fun x _ y hy _ hlane _ => ?_)
    (fun x hx y hy hsame hle hne _ hheld hpend => ?_) h.mine (fun id d hd => ?_)
  · rw [(hf y hy).2.1]
    exact hlane.first
  · rcases (hf x hx).2.2.2 hpend with hzero | ⟨hold, hsame'⟩
    · exact hzero
    · exact hsame'.trans (h.ready x hx y hy hsame hle hne hheld hold)
  obtain ⟨row, hrow, hnamed⟩ := h.kept id d hd
  refine ⟨f row, mem_map_of_mem hrow, ?_⟩
  rw [named_iff, (hf row hrow).1.connectionId, (hf row hrow).1.commandId]
  exact named_iff.mp hnamed

lemma expediteReconciliation (connectionId : String) (matching : CommandRow → Bool) :
    Inv org { s with rows :=
      NativeCommandStore.expediteReconciliation s.clock s.rows connectionId matching } := by
  refine h.rewrite fun row hrow => ?_
  have hrow' := h.rows row hrow
  split
  · exact ⟨⟨rfl, rfl, rfl, rfl, fun hsett => hsett⟩, rfl,
      ⟨hrow'.created, hrow'.lane, hrow'.settled, hrow'.sending, hrow'.held⟩,
      fun _ => .inl rfl⟩
  · exact ⟨.refl row, rfl, hrow', fun hpend => .inr ⟨hpend, rfl⟩⟩

lemma retryFailed {connectionId commandId : String}
    (hretry : NativeCommandStore.retryFailed s.clock s.rows connectionId commandId = .ok rows') :
    Inv org { s with rows := rows' } := by
  rw [NativeCommandStore.retryFailed] at hretry
  split at hretry
  · cases hretry
  split at hretry
  · cases hretry
  split at hretry
  · cases hretry
    exact h
  cases hretry
  refine h.rewrite fun row hrow => ?_
  have hrow' := h.rows row hrow
  split
  · dsimp only
    split
    · rename_i hfail
      refine ⟨⟨rfl, rfl, rfl, rfl, fun hsett => hsett⟩, rfl,
        ⟨hrow'.created, fun _ => hrow'.lane ?_, fun hdone => ?_, fun hsend => ?_, ?_⟩,
        fun _ => .inl rfl⟩
      · rw [hfail]
        exact noConfusion
      · rcases hdone with hdone | hdone <;> cases hdone
      · cases hsend
      intro d hd hname
      have hstate := hrow'.held d hd hname
      rw [hfail] at hstate
      cases d <;> cases hstate
    · exact ⟨.refl row, rfl, hrow', fun hpend => .inr ⟨hpend, rfl⟩⟩
  · exact ⟨.refl row, rfl, hrow', fun hpend => .inr ⟨hpend, rfl⟩⟩

lemma pruneReceipts (now : Nat) :
    Inv org { s with rows := NativeCommandStore.pruneReceipts now s.rows } :=
  h.of_sublist pruneReceipts_sublist fun _ hrow hfail hdlv =>
    mem_pruneReceipts hrow hdlv fun hstate => absurd hstate hfail

lemma acknowledgeDeliveryReceipt (connectionId commandId : String) : Inv org { s with
      rows := NativeCommandStore.acknowledgeDeliveryReceipt s.rows connectionId commandId } := by
  refine h.of_sublist filter_sublist fun row hrow _ hdlv => ?_
  rw [NativeCommandStore.acknowledgeDeliveryReceipt, mem_filter, decide_eq_false hdlv,
    Bool.and_false]
  exact ⟨hrow, rfl⟩

lemma deleteConnection (connectionId : String) :
    Inv org (s.finish connectionId (NativeCommandStore.deleteConnection s.rows connectionId)) := by
  have hmem : ∀ {row}, row ∈ NativeCommandStore.deleteConnection s.rows connectionId ↔
      row ∈ s.rows ∧ row.connectionId ≠ connectionId := by
    intro row
    rw [NativeCommandStore.deleteConnection, mem_filter, decide_eq_true_eq]
  have hget : ∀ {id}, id ≠ connectionId →
      (s.draining.erase connectionId).get? id = s.draining.get? id :=
    fun hne => get?_erase_of_ne _ hne
  have hheld : ∀ {row : CommandRow}, Holds (s.draining.erase connectionId) row →
      Holds s.draining row := by
    rintro row ⟨d, hd, hname⟩
    exact ⟨d, (of_get?_erase hd).2, hname⟩
  refine h.of_change (f := id) ((map_id s.rows).symm ▸ filter_sublist)
    (fun row _ => .refl row) (fun row hrow hkept => ?_) (fun x _ y _ _ hlane _ hsent => ?_)
    (fun x hx y hy hsame hle hne _ hheld' => ?_) (fun id d hd => ?_) (fun id d hd => ?_)
  · have hrow' := h.rows row hrow
    have hne := (hmem.mp hkept).2
    refine ⟨hrow'.created, hrow'.lane, hrow'.settled, fun hsend => ?_, fun d hd => ?_⟩
    · obtain ⟨d, hd, hname⟩ := hrow'.sending hsend
      exact ⟨d, (hget hne).trans hd, hname⟩
    · exact hrow'.held d ((hget hne).symm.trans hd)
  · exact hlane.first (hsent.imp_right hheld)
  · exact h.ready x hx y hy hsame hle hne (hheld hheld')
  · exact h.mine id d (of_get?_erase hd).2
  obtain ⟨hne, hd⟩ := of_get?_erase hd
  obtain ⟨row, hrow, hnamed⟩ := h.kept id d hd
  exact ⟨row, hmem.mpr ⟨hrow, (named_iff.mp hnamed).1 ▸ hne⟩, hnamed⟩

lemma init : Inv org { s with rows := NativeCommandStore.init s.clock s.rows, draining := ∅ } := by
  have hnone : ∀ {row : CommandRow}, ¬ Holds ∅ row := by
    rintro row ⟨d, hd, -⟩
    cases hd
  refine pruneReceipts (s := { s with rows := s.rows.map _, draining := ∅ }) ?_ s.clock
  refine h.of_change (.refl _) (fun row _ => ?_) (fun row hrow _ => ?_)
    (fun x _ y _ _ hlane _ hsent => ?_) (fun _ _ _ _ _ _ _ _ hheld => absurd hheld hnone)
    (fun _ _ hd => absurd hd (by simp)) (fun _ _ hd => absurd hd (by simp))
  · split
    · exact ⟨rfl, rfl, rfl, rfl, fun hsett => hsett⟩
    · exact .refl row
  · have hrow' := h.rows row hrow
    split
    · rename_i hsend
      refine ⟨hrow'.created, fun _ => hrow'.lane ?_, fun hdone => ?_, fun hstate => ?_,
        fun _ hd => absurd hd (by simp)⟩
      · rw [hsend]
        exact noConfusion
      · rcases hdone with hdone | hdone <;> cases hdone
      · cases hstate
    · rename_i hsend
      exact ⟨hrow'.created, hrow'.lane, hrow'.settled, fun hstate => absurd hstate hsend,
        fun _ hd => absurd hd (by simp)⟩
  rcases hsent with hsent | hsent
  · refine hlane.first (.inl ?_)
    split at hsent <;> exact hsent
  · exact absurd hsent hnone

end

end Inv

/-! ## Enqueued commands -/

def admits (rows : List CommandRow) (connectionId commandId paramsJson : String) : Bool :=
  decide (paramsJson.utf8ByteSize ≤ maxCommandBytes) &&
    (read rows connectionId commandId).isNone &&
    decide ((unfinished rows connectionId).length < maxCommandsPerConnection) &&
    decide (((unfinished rows connectionId).map (·.payloadBytes)).sum + paramsJson.utf8ByteSize ≤
      maxBytesPerConnection)

/-- No command is enqueued in the same millisecond as an unfinished one of its lane whose id
does not come before. -/
def Orderly (org : OrgJson) (s : CommandQueue) (input : Nat × CommandInput) : Prop :=
  match input.2 with
  | .enqueue connectionId commandId method paramsJson =>
    admits s.rows connectionId commandId paramsJson = true →
      ∀ row ∈ s.rows, row.connectionId = connectionId →
        row.lane = NativeCommandPolicy.deliveryLane method (commandThreadId org paramsJson) →
        row.settled = false → row.createdAt = s.clock + input.1 → row.commandId < commandId
  | _ => True

instance (org : OrgJson) (s : CommandQueue) (input : Nat × CommandInput) :
    Decidable (Orderly org s input) := by
  unfold Orderly
  split <;> infer_instance

lemma enqueue_cases {org : OrgJson} {now : Nat} {rows rows' : List CommandRow}
    {connectionId commandId method paramsJson : String} {command : NativeCommand}
    (h : enqueue org now rows connectionId commandId method paramsJson = .ok (rows', command)) :
    rows' = rows ∨ admits rows connectionId commandId paramsJson = true ∧ ∃ row : CommandRow,
      rows' = rows ++ [row] ∧ row.connectionId = connectionId ∧ row.commandId = commandId ∧
      row.createdAt = now ∧ row.state = .queued ∧ row.attempts = 0 ∧ row.nextAttemptAt = 0 ∧
      row.lane = laneKey org row.toNativeCommand ∧
      row.lane = NativeCommandPolicy.deliveryLane method (commandThreadId org paramsJson) := by
  rw [enqueue] at h
  split at h
  · cases h
  rename_i hbytes
  split at h
  · cases h
    exact .inl rfl
  rename_i hread
  dsimp only at h
  split at h
  · cases h
  rename_i hcount
  split at h
  · cases h
  rename_i hsum
  cases h
  refine .inr ⟨?_, _, rfl, rfl, rfl, rfl, rfl, rfl, rfl, rfl, rfl⟩
  simp only [admits, hread, Bool.and_eq_true, decide_eq_true_eq, Option.isNone_none]
  exact ⟨⟨⟨Nat.le_of_not_lt hbytes, trivial⟩, Nat.lt_of_not_le hcount⟩, Nat.le_of_not_lt hsum⟩

lemma notNamed_of_admits {rows : List CommandRow} {connectionId commandId paramsJson : String}
    (h : admits rows connectionId commandId paramsJson = true) {row : CommandRow}
    (hrow : row ∈ rows) : ¬ (row.connectionId = connectionId ∧ row.commandId = commandId) := by
  simp only [admits, Bool.and_eq_true, Option.isNone_iff_eq_none] at h
  have hnone := find?_eq_none.mp h.1.1.2 row hrow
  rwa [named_iff] at hnone

namespace Inv

variable {org : OrgJson} {s : CommandQueue}

lemma append (h : Inv org s) {row : CommandRow}
    (hnew : ∀ x ∈ s.rows, ¬ (x.connectionId = row.connectionId ∧ x.commandId = row.commandId))
    (hcreated : row.createdAt = s.clock) (hstate : row.state = .queued)
    (hattempts : row.attempts = 0) (hnext : row.nextAttemptAt = 0)
    (hlane : row.lane = laneKey org row.toNativeCommand)
    (horder : ∀ x ∈ s.rows, x.SameLane row → x.settled = false → x.createdAt = s.clock →
      x.commandId < row.commandId) : Inv org { s with rows := s.rows ++ [row] } := by
  have hfree : ∀ d, s.draining.get? row.connectionId = some d →
      d.command.commandId ≠ row.commandId := by
    intro d hd heq
    obtain ⟨x, hx, hnamed⟩ := h.kept _ d hd
    exact hnew x hx (heq ▸ named_iff.mp hnamed)
  have hunheld : ¬ Holds s.draining row := fun ⟨d, hd, heq⟩ => hfree d hd heq
  have hmem : ∀ {x}, x ∈ s.rows ++ [row] → x ∈ s.rows ∨ x = row := by
    intro x hx
    simpa using hx
  refine ⟨pairwise_append.mpr ⟨h.keys, pairwise_singleton _ _, ?_⟩, fun x hx => ?_,
    pairwise_append.mpr ⟨h.lanes, pairwise_singleton _ _, ?_⟩, ?_, h.mine, ?_⟩
  · intro x hx y hy hconn hcmd
    obtain rfl := mem_singleton.mp hy
    exact hnew x hx ⟨hconn, hcmd⟩
  · rcases hmem hx with hx | rfl
    · exact h.rows x hx
    refine ⟨hcreated.le, fun _ => hlane.symm, fun hdone => ?_, fun hsend => ?_,
      fun d hd heq => absurd heq (hfree d hd)⟩
    · rw [hstate] at hdone
      rcases hdone with hdone | hdone <;> cases hdone
    · rw [hstate] at hsend
      cases hsend
  · intro x hx y hy hsame
    obtain rfl := mem_singleton.mp hy
    refine ⟨fun hunset => ?_, fun hsent => ?_⟩
    · rcases Nat.lt_or_eq_of_le (hcreated.symm ▸ (h.rows x hx).created) with hlt | heq
      · exact .inl hlt
      · exact .inr ⟨heq, horder x hx hsame hunset (heq.trans hcreated)⟩
    · rcases hsent with hsent | hheld
      · omega
      · exact absurd hheld hunheld
  · intro x hx y hy hsame hle hne hheld hpend
    rcases hmem hy with hy | rfl
    · rcases hmem hx with hx | rfl
      · exact h.ready x hx y hy hsame hle hne hheld hpend
      · exact hnext
    · exact absurd hheld hunheld
  · intro id d hd
    obtain ⟨x, hx, hnamed⟩ := h.kept id d hd
    exact ⟨x, mem_append_left _ hx, hnamed⟩

lemma enqueue (h : Inv org s) {connectionId commandId method paramsJson : String}
    {rows' : List CommandRow} {command : NativeCommand}
    (hok : NativeCommandStore.enqueue org s.clock s.rows connectionId commandId method paramsJson =
      .ok (rows', command))
    (hord : Orderly org s (0, .enqueue connectionId commandId method paramsJson)) :
    Inv org { s with rows := rows' } := by
  rcases enqueue_cases hok with rfl | ⟨hadmits, row, rfl, rfl, rfl, hcreated, hstate, hattempts,
    hnext, hkey, hlane⟩
  · exact h
  · refine h.append (fun x hx => notNamed_of_admits hadmits hx) hcreated hstate hattempts hnext hkey
      fun x hx hsame hunset heq => ?_
    exact hord hadmits x hx hsame.1 (hsame.2.trans hlane) hunset heq

end Inv

/-! ## The drain loop -/

namespace Inv

variable {org : OrgJson} {s : CommandQueue} {id : String} {command : NativeCommand}

variable {rows : List CommandRow} {commandId : String}

lemma update_id : update rows id commandId (fun row => row) = rows := by
  simp [update]

variable {set : CommandRow → CommandRow}

lemma mem_update_of_notNamed {row : CommandRow} (hrow : row ∈ rows)
    (hnamed : ¬ row.named id commandId = true) : row ∈ update rows id commandId set :=
  mem_map.mpr ⟨row, hrow, if_neg hnamed⟩

lemma mem_update_of_ne {row : CommandRow} (hrow : row ∈ rows)
    (hne : row.connectionId ≠ id) : row ∈ update rows id commandId set :=
  mem_update_of_notNamed hrow fun hnamed => hne (named_iff.mp hnamed).1

section

variable (h : Inv org s)
include h

section

variable (hchosen : Chosen s id command.commandId)
include hchosen

section

variable (hid : command.connectionId = id)
include hid

lemma finish_failed (error : String) :
    Inv org (s.finish id (markFailed s.clock s.rows command error)) := by
  subst hid
  refine h.finish hchosen (.refl _) (fun row hrow hne => mem_update_of_ne hrow hne)
    (fun row _ _ => ⟨rfl, rfl, rfl, rfl, fun _ => rfl⟩) fun row hrow hnamed _ => ?_
  exact ⟨rfl, noConfusion,
    fun _ => (h.rows row hrow).lane (hchosen.alive row hrow hnamed), fun _ => rfl⟩

lemma finish_uncertain (error : String) (retryAt : Nat) :
    Inv org (s.finish id (markUncertain s.clock s.rows command error retryAt)) := by
  subst hid
  refine h.finish hchosen (.refl _) (fun row hrow hne => mem_update_of_ne hrow hne)
    (fun row _ _ => ⟨rfl, rfl, rfl, rfl, fun hsett => hsett⟩) fun row hrow hnamed _ => ?_
  refine ⟨rfl, noConfusion,
    fun _ => (h.rows row hrow).lane (hchosen.alive row hrow hnamed), fun hdone => ?_⟩
  rcases hdone with hdone | hdone <;> cases hdone

lemma finish_delivered : Inv org (s.finish id (markDelivered org s.clock s.rows command)) := by
  subst hid
  rw [markDelivered]
  split
  · refine pruneReceipts (s := s.finish _ (update _ _ _ _)) ?_ s.clock
    refine h.finish hchosen (.refl _) (fun row hrow hne => mem_update_of_ne hrow hne)
      (fun row _ _ => ⟨rfl, rfl, rfl, rfl, fun _ => rfl⟩) fun row _ _ _ => ?_
    exact ⟨rfl, noConfusion, fun hdlv => absurd rfl hdlv, fun _ => rfl⟩
  refine h.finish hchosen (update_id.symm ▸ filter_sublist) (fun row hrow hne => ?_)
    (fun row _ _ => .refl row) fun row _ hnamed hmem => ?_
  · rw [delete, mem_filter, Bool.not_eq_true', eq_false_iff]
    exact ⟨hrow, fun hnamed => hne (named_iff.mp hnamed).1⟩
  · rw [delete, mem_filter, hnamed] at hmem
    exact absurd hmem.2 Bool.false_ne_true

lemma send (request : Outbound) : Inv org { s with
      rows := (markSending s.clock s.rows command).1
      draining := s.draining.insert id
        (.sending (markSending s.clock s.rows command).2 request) } := by
  subst hid
  exact h.take hchosen rfl rfl fun row _ _ =>
    ⟨⟨rfl, rfl, rfl, rfl, fun hsett => hsett⟩, rfl, rfl⟩

lemma reconcile
    (hunc : ∀ row ∈ s.rows, row.named id command.commandId = true → row.state = .uncertain)
    (request : Outbound) :
    Inv org { s with draining := s.draining.insert id (.reconciling command request) } := by
  have htaken : Inv org { s with
      rows := update s.rows id command.commandId fun row => row
      draining := s.draining.insert id (.reconciling command request) } := by
    have hmine : (Drain.reconciling command request).command.connectionId = id := hid
    exact h.take hchosen hmine rfl fun row hrow hnamed =>
      ⟨.refl row, hunc row hrow hnamed, rfl⟩
  rwa [update_id] at htaken

lemma dispatchCommand (params : Json) :
    Inv org (CommandQueue.dispatchCommand org s id command params) := by
  rw [CommandQueue.dispatchCommand]
  split
  · rw [dispatchServerResponse]
    split
    · exact h.finish_failed hchosen hid _
    · exact h.send hchosen hid _
  · split
    · exact h.finish_failed hchosen hid _
    · exact h.send hchosen hid _

end

end

lemma drainOutbox (id : String) (live : Bool) (pendingApprovals : List String) :
    Inv org (CommandQueue.drainOutbox org s id live pendingApprovals) := by
  rw [CommandQueue.drainOutbox]
  split
  · exact h
  rename_i hstarts
  have hidle : s.draining.get? id = none := by
    have hcont : s.draining.contains id = false :=
      eq_false_iff.mpr fun hcont => hstarts (.inl hcont)
    exact Option.isSome_eq_false_iff.mp hcont |> Option.isNone_iff_eq_none.mp
  split
  · exact h
  rename_i head hready
  have hhead := mem_of_nextReady hready
  obtain ⟨hmem, hid, -⟩ := of_mem_pendingLaneHeads hhead
  have hchosen := h.chosen_of_head hidle hhead
  split
  · exact h.finish_failed hchosen hid _
  rename_i params hpar
  split
  · rename_i hunc
    split
    · rw [reconcileTurnCommand]
      split
      · exact h.finish_failed hchosen hid _
      refine h.reconcile hchosen hid (fun row hrow hnamed => ?_) _
      obtain ⟨hrowid, hcmd⟩ := named_iff.mp hnamed
      obtain rfl := h.eq_of_named hrow hmem (hrowid.trans hid.symm) hcmd
      exact hunc
    · rw [reconcileServerResponse]
      split
      · exact h.finish_failed hchosen hid _
      · split
        · exact h.dispatchCommand hchosen hid params
        · exact h.finish_delivered hchosen hid
    · exact h.dispatchCommand hchosen hid params
  · exact h.dispatchCommand hchosen hid params

lemma turnsListed (id : String) (result : Except (Option String) Json) :
    Inv org (CommandQueue.turnsListed org s id result) := by
  rw [CommandQueue.turnsListed]
  split
  · rename_i command request hdrain
    have hchosen := h.chosen_of_draining hdrain
    have hid : command.connectionId = id := h.mine id _ hdrain
    split
    · split
      · exact h.finish_delivered hchosen hid
      split
      · exact h.finish_uncertain hchosen hid _ _
      · split
        · exact h
        · exact h.dispatchCommand hchosen hid _
    · exact h.finish_uncertain hchosen hid _ _
  · exact h

lemma expediteInterrupted (id : String) (sending : NativeCommand) :
    Inv org { s with rows := CommandQueue.expediteInterrupted org s id sending } := by
  rw [CommandQueue.expediteInterrupted]
  split
  · split
    · exact h
    · exact h.expediteReconciliation _ _
  · exact h

lemma completed (id : String) (outcome : RpcOutcome) :
    Inv org (CommandQueue.completed org s id outcome) := by
  rw [CommandQueue.completed]
  split
  · rename_i sending _ _ hdrain
    have hid : sending.connectionId = id := h.mine id _ hdrain
    cases outcome with
    | ok =>
      have hexpedited := h.expediteInterrupted id sending
      exact hexpedited.finish_delivered (hexpedited.chosen_of_draining hdrain) hid
    | rejected => exact h.finish_failed (h.chosen_of_draining hdrain) hid _
    | interrupted => exact h.finish_uncertain (h.chosen_of_draining hdrain) hid _ _
  · rename_i sending _ _ hdrain
    have hid : sending.connectionId = id := h.mine id _ hdrain
    cases outcome with
    | ok => exact h.finish_delivered (h.chosen_of_draining hdrain) hid
    | rejected => exact h.finish_failed (h.chosen_of_draining hdrain) hid _
    | interrupted => exact h.finish_uncertain (h.chosen_of_draining hdrain) hid _ _
  · exact h

end

lemma step (h : Inv org s) (input : Nat × CommandInput) (hord : Orderly org s input) :
    Inv org (CommandQueue.step org s input) := by
  obtain ⟨elapsed, input⟩ := input
  have h := h.tick elapsed
  rw [CommandQueue.step]
  cases input with
  | enqueue connectionId commandId method paramsJson =>
    rw [apply]
    split
    · rename_i hok
      exact h.enqueue hok hord
    · exact h
  | drain connectionId live pendingApprovals => exact h.drainOutbox connectionId live pendingApprovals
  | turnsListed connectionId result => exact h.turnsListed connectionId result
  | completed connectionId outcome => exact h.completed connectionId outcome
  | expediteThread connectionId threadId => exact h.expediteReconciliation _ _
  | expediteServerRequest connectionId requestKey => exact h.expediteReconciliation _ _
  | retryFailed connectionId commandId =>
    rw [apply]
    split
    · rename_i hok
      exact h.retryFailed hok
    · exact h
  | acknowledgeReceipt connectionId commandId => exact h.acknowledgeDeliveryReceipt _ _
  | deleteConnection connectionId => exact h.deleteConnection connectionId
  | restart => exact h.init

end Inv

/-! ## How a command leaves the table -/

section Leaves

variable {org : OrgJson} {s : CommandQueue} {row : CommandRow} {rows : List CommandRow}

variable {id : String}

end Leaves

/-! ## The contract of a run -/

namespace Inv

variable {org : OrgJson} {s : CommandQueue}

end Inv

end CommandQueue

end CodeWide.Device
