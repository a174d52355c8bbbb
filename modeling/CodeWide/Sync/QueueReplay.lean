import CodeWide.Store.Admission
import CodeWide.Sync.Queue

/-!
# Replayed queue requests

After a lost acknowledgement the device sends a `companion/queue/*` request again.
-/

namespace CodeWide.Sync

open Lib Store Saturating Table Json Option

inductive QueueReply where
  | command (row : OutboxCommand)
  | data (rows : List OutboxCommand)
  | cancelled (cancelled : Bool)
  | moved (moved : Bool)

abbrev Transaction (α : Type) := Outbox → Nat → Except StoreError (Outbox × α)

def queuePresentation : Option String → Except StoreError OutboxPresentation
  | none => .ok .queue
  | some "queue" => .ok .queue
  | some "delivery" => .ok .delivery
  | some _ => .error (.corruptedIndex "queue presentation must be queue or delivery")

def queueAdmission (object : Json) : Except StoreError Admission := do
  let command := ((object.get? "command").filter isObj).getD object
  let commandId ← requiredString (command.get? "commandId") "commandId"
  let remoteThreadId ← requiredString (command.get? "remoteThreadId") "remoteThreadId"
  let method ← requiredString (command.get? "method") "method"
  if method ≠ "turn/start" then .error (.corruptedIndex "only turn/start can be queued")
  else do
    let presentation ← queuePresentation ((command.get? "presentation").bind asStr?)
    .ok
      { commandId, remoteThreadId, params := (command.get? "params").getD (.obj [])
        metadata :=
          { createdAt := (command.get? "createdAt").bind asU64?, presentation
            workspaceRequestId := (command.get? "workspaceRequestId").bind asStr? } }

def queuePut (enc : Encoding) (object : Json) : Transaction OutboxCommand := fun table now => do
  let a ← queueAdmission object
  outboxPutTurnStart enc table now a.commandId a.remoteThreadId a.params a.metadata

def queueEdit (enc : Encoding) (object : Json) : Transaction OutboxCommand := fun table now => do
  let commandId ← requiredString (object.get? "commandId") "commandId"
  match object.get? "input" with
  | none => .error (.corruptedIndex "queue input is required")
  | some input => outboxEditPrompt enc table now commandId input

def queueCancel (object : Json) : Transaction Bool := fun table _ => do
  let commandId ← requiredString (object.get? "commandId") "commandId"
  outboxCancel table commandId

def queueRetry (object : Json) : Transaction OutboxCommand := fun table now => do
  let commandId ← requiredString (object.get? "commandId") "commandId"
  outboxRetryFailed table now commandId

def queueMoveAlone (object : Json) : Transaction Bool := fun table now =>
  queueMove table table now object

def Transaction.replying {α : Type} (f : Transaction α) (reply : α → QueueReply) :
    Transaction QueueReply :=
  fun table now => (f table now).map (fun r => (r.1, reply r.2))

def queueRpc (enc : Encoding) (method : String) (params : Json) : Transaction QueueReply :=
  fun table now =>
    if params.isObj then
      match method with
      | "companion/queue/put" => (queuePut enc params).replying .command table now
      | "companion/queue/list" =>
        .ok (table, .data (outboxList table ((params.get? "threadId").bind asStr?)))
      | "companion/queue/edit" => (queueEdit enc params).replying .command table now
      | "companion/queue/cancel" => (queueCancel params).replying .cancelled table now
      | "companion/queue/retry" => (queueRetry params).replying .command table now
      | "companion/queue/move" => (queueMoveAlone params).replying .moved table now
      | _ => .error (.corruptedIndex "unknown companion queue method")
    else .error (.corruptedIndex "queue params must be an object")

/-- The queue mutations that `NativeCommandPolicy` retries as idempotent. -/
def replayedMutations : List String :=
  ["companion/queue/put", "companion/queue/edit", "companion/queue/cancel",
    "companion/queue/retry", "companion/queue/move"]

/-- The second execution leaves the table of the first, and goes through if the first did. -/
def Idempotent {α : Type} (f : Transaction α) (table : Outbox) (t t' : Nat) : Prop :=
  (commit (commit table (f table t)).1 (f (commit table (f table t)).1 t')).1 =
      (commit table (f table t)).1 ∧
    ((commit table (f table t)).2.toBool = true →
      (commit (commit table (f table t)).1 (f (commit table (f table t)).1 t')).2.toBool = true)

namespace Idempotent

variable {α : Type} {f : Transaction α} {table table' : Outbox} {t t' : Nat}

lemma iff_of_ok {a : α} (h : f table t = .ok (table', a)) :
    Idempotent f table t t' ↔ ∃ b, f table' t' = .ok (table', b) := by
  unfold Idempotent
  rw [h]
  change ((commit table' (f table' t')).1 = table' ∧
    (_ → (commit table' (f table' t')).2.toBool = true)) ↔ _
  cases hnext : f table' t' with
  | error e => simp [commit, Except.toBool]
  | ok r =>
    obtain ⟨table'', b⟩ := r
    simp [commit, Except.toBool]

lemma iff_of_error {e : StoreError} (h : f table t = .error e) :
    Idempotent f table t t' ↔ ∀ table'', (∃ b, f table t' = .ok (table'', b)) → table'' = table := by
  unfold Idempotent
  rw [h]
  change ((commit table (f table t')).1 = table ∧ (false = true → _)) ↔ _
  cases hnext : f table t' with
  | error e => simp [commit]
  | ok r =>
    obtain ⟨table'', b⟩ := r
    simp [commit]

lemma replying (reply : α → QueueReply) :
    Idempotent (f.replying reply) table t t' ↔ Idempotent f table t t' := by
  have hmap : ∀ {s : Nat} {u v : Outbox}, (∃ b, (f.replying reply) u s = .ok (v, b)) ↔
      ∃ b, f u s = .ok (v, b) := by
    intro s u v
    unfold Transaction.replying
    cases f u s with
    | error e => simp [Except.map]
    | ok r => simp [Except.map, Prod.ext_iff]
  cases h : f table t with
  | error e =>
    have hreply : (f.replying reply) table t = .error e := by
      unfold Transaction.replying
      rw [h]
      rfl
    rw [iff_of_error h, iff_of_error hreply]
    exact forall_congr' (fun table'' => imp_congr_left hmap)
  | ok r =>
  obtain ⟨table', a⟩ := r
  have hreply : (f.replying reply) table t = .ok (table', reply a) := by
    unfold Transaction.replying
    rw [h]
    rfl
  rw [iff_of_ok h, iff_of_ok hreply, hmap]

end Idempotent

structure SameLength (enc : Encoding) (t t' : Nat) : Prop where
  updated : ∀ row : OutboxCommand, enc.commandLen { row with updatedAt := t } =
    enc.commandLen { row with updatedAt := t' }
  created : ∀ row : OutboxCommand, enc.commandLen { row with createdAt := t, updatedAt := t } =
    enc.commandLen { row with createdAt := t', updatedAt := t' }

section Mutations

variable {enc : Encoding} {table : Outbox} {t t' : Nat} {object : Json}

lemma outboxPut_other_time (htimes : SameLength enc t t') {c thread : String} {params : Json}
    {metadata : OutboxPutMetadata} {r : Outbox × OutboxCommand}
    (h : outboxPutTurnStart enc table t' c thread params metadata = .ok r) :
    ∃ r, outboxPutTurnStart enc table t c thread params metadata = .ok r := by
  unfold outboxPutTurnStart at h ⊢
  obtain ⟨⟨⟩, hid, h⟩ := bind_ok h
  obtain ⟨⟨⟩, hthr, h⟩ := bind_ok h
  obtain ⟨⟨⟩, hws, h⟩ := bind_ok h
  obtain ⟨⟨⟩, hpar, h⟩ := bind_ok h
  rw [hid, hthr, hws, hpar]
  change ∃ r, (if enc.paramsLen params > maxOutboxCommandBytes then _ else _) = Except.ok r
  split at h
  · cases h
  rename_i hsize
  rw [if_neg hsize]
  split at h
  · split at h
    · cases h
    · rename_i hsame
      exact ⟨_, if_neg hsame⟩
  dsimp only at h ⊢
  obtain ⟨⟨⟩, hquota, h⟩ := bind_ok h
  have hlen : ∀ command : OutboxCommand,
      enc.commandLen { command with createdAt := metadata.createdAt.getD t, updatedAt := t } =
        enc.commandLen { command with
          createdAt := metadata.createdAt.getD t', updatedAt := t' } := by
    intro command
    cases hcreated : metadata.createdAt with
    | none => exact htimes.created command
    | some createdAt => exact htimes.updated { command with createdAt := createdAt }
  have hfresh := hlen
    { commandId := c, remoteThreadId := thread, method := "turn/start", params, state := .queued
      presentation := metadata.presentation, workspaceRequestId := metadata.workspaceRequestId
      ownerContext := none, queueInput := none
      order := add64 (pruneDeliveredOutboxReceipts table).2.2 1
      createdAt := 0, updatedAt := 0, lastError := none, attempts := 0, nextAttemptAt := 0
      claim := none }
  dsimp only at hfresh
  rw [hfresh, hquota]
  exact ⟨_, rfl⟩

lemma queuePut_idempotent (htimes : SameLength enc t t') :
    Idempotent (queuePut enc object) table t t' := by
  cases h : queuePut enc object table t with
  | error e =>
    refine (Idempotent.iff_of_error h).mpr ?_
    rintro table'' ⟨row, hlater⟩
    obtain ⟨a, ha, hput⟩ := bind_ok hlater
    obtain ⟨r, hnow⟩ := outboxPut_other_time htimes hput
    unfold queuePut at h
    rw [ha] at h
    exact absurd (hnow.symm.trans h) (by simp)
  | ok r =>
  obtain ⟨table', row⟩ := r
  refine (Idempotent.iff_of_ok h).mpr ?_
  obtain ⟨a, ha, hput⟩ := bind_ok h
  obtain ⟨existing, hget, hsame⟩ := Admission.held_of_ok hput
  refine ⟨existing, ?_⟩
  unfold queuePut
  rw [ha]
  refine (outboxPut_of_stored hput hget).trans (if_neg ?_)
  obtain ⟨hthr, hmethod, hpar, hpres, hws, howner, hinput⟩ := hsame
  simp [hthr, hmethod, hpar, hpres, hws, howner, hinput]

lemma queueCancel_idempotent : Idempotent (queueCancel object) table t t' := by
  cases h : queueCancel object table t with
  | error e =>
    refine (Idempotent.iff_of_error h).mpr ?_
    rintro table'' ⟨b, hlater⟩
    exact absurd (hlater.symm.trans h) (by simp)
  | ok r =>
  obtain ⟨table', cancelled⟩ := r
  refine (Idempotent.iff_of_ok h).mpr ?_
  obtain ⟨c, hc, hcancel⟩ := bind_ok h
  unfold queueCancel
  rw [hc]
  change ∃ b, outboxCancel table' c = .ok (table', b)
  unfold outboxCancel at hcancel ⊢
  split at hcancel
  · rename_i hnone
    cases hcancel
    exact ⟨false, by rw [hnone]⟩
  rename_i row hrow
  split at hcancel
  · rename_i hkept
    cases hcancel
    refine ⟨false, ?_⟩
    rw [hrow]
    exact if_pos hkept
  · cases hcancel
    exact ⟨false, by rw [get?_erase_self]⟩

def NamesFailed (table : Outbox) (object : Json) : Prop :=
  ∃ c row, (object.get? "commandId").bind asStr? = some c ∧ table.get? c = some row ∧
    row.state = .failed

lemma requiredString_ok {value : Option Json} {label s : String} :
    requiredString value label = .ok s ↔ value.bind asStr? = some s := by
  unfold requiredString
  split
  · rename_i h
    rw [h]
    simp
  · rename_i h
    rw [h]
    simp

lemma queueRetry_isOk : (∃ r, queueRetry object table t = .ok r) ↔ NamesFailed table object := by
  constructor
  · rintro ⟨r, h⟩
    obtain ⟨c, hc, hretry⟩ := bind_ok h
    unfold outboxRetryFailed at hretry
    split at hretry
    · cases hretry
    rename_i row hrow
    split at hretry
    · cases hretry
    · rename_i hstate
      exact ⟨c, row, requiredString_ok.mp hc, hrow, not_not.mp hstate⟩
  rintro ⟨c, row, hc, hrow, hstate⟩
  refine ⟨(table.insert c (reopen t row), reopen t row), ?_⟩
  unfold queueRetry
  rw [requiredString_ok.mpr hc]
  change outboxRetryFailed table t c = _
  unfold outboxRetryFailed
  rw [hrow]
  exact if_neg (not_not.mpr hstate)

lemma queueRetry_idempotent_iff :
    Idempotent (queueRetry object) table t t' ↔ ¬ NamesFailed table object := by
  cases h : queueRetry object table t with
  | error e =>
    rw [Idempotent.iff_of_error h]
    have hnot : ¬ NamesFailed table object := by
      rw [← @queueRetry_isOk table t object, h]
      simp
    refine ⟨fun _ => hnot, ?_⟩
    rintro - table'' ⟨b, hlater⟩
    exact absurd (queueRetry_isOk.mp ⟨_, hlater⟩) hnot
  | ok r =>
  obtain ⟨table', row⟩ := r
  have hfailed : NamesFailed table object := queueRetry_isOk.mp ⟨_, h⟩
  rw [Idempotent.iff_of_ok h]
  refine iff_of_false ?_ (not_not.mpr hfailed)
  rintro ⟨b, hlater⟩
  obtain ⟨c, stored, hc, hsto, hstate⟩ := queueRetry_isOk.mp ⟨_, hlater⟩
  obtain ⟨c', hc', hretry⟩ := bind_ok h
  obtain rfl := some.inj (hc.symm.trans (requiredString_ok.mp hc'))
  unfold outboxRetryFailed at hretry
  split at hretry
  · cases hretry
  split at hretry
  · cases hretry
  cases hretry
  rw [get?_insert_self] at hsto
  cases hsto
  cases hstate

end Mutations

def keptItems (items : List Json) : List Json := items.filter (fun item => !isEditableItem item)

def editedRow (now : Nat) (replacement items : List Json) (command : OutboxCommand) :
    OutboxCommand :=
  { command with
    params := command.params.insert "input" (.arr (replacement ++ keptItems items))
    updatedAt := now }

/-- The checks of an edit, with what they read. -/
structure Edits (enc : Encoding) (table : Outbox) (now : Nat) (c : String) (input : Json)
    (replacement items : List Json) (command : OutboxCommand) : Prop where
  valid : validateReplacement input = .ok replacement
  stored : table.get? c = some command
  queued : command.state = .queued
  read : (command.params.get? "input").bind asArr? = some items
  checked : validateTurnStartParams command.commandId command.remoteThreadId
    (editedRow now replacement items command).params = .ok ()
  small : enc.paramsLen (editedRow now replacement items command).params ≤ maxOutboxCommandBytes
  quota : ensureOutboxOwnerReplacementQuota (outboxOwnerBytes enc table command.ownerContext)
    (enc.commandLen command) (enc.commandLen (editedRow now replacement items command)) = .ok ()

variable {enc : Encoding} {table table' : Outbox} {now t t' : Nat} {c : String} {input : Json}
  {replacement items : List Json} {command row : OutboxCommand}

lemma outboxEditPrompt_ok : outboxEditPrompt enc table now c input = .ok (table', row) ↔
    ∃ replacement items command, Edits enc table now c input replacement items command ∧
      row = editedRow now replacement items command ∧ table' = table.insert c row := by
  constructor
  · intro h
    unfold outboxEditPrompt at h
    obtain ⟨replacement, hreplacement, h⟩ := bind_ok h
    split at h
    · cases h
    rename_i command hsto
    obtain ⟨_, hedit, h⟩ := bind_ok h
    split at h
    · cases h
    rename_i items hitems
    obtain ⟨_, hpar, h⟩ := bind_ok h
    split at h
    · cases h
    rename_i hsize
    obtain ⟨_, hquota, h⟩ := bind_ok h
    cases h
    exact ⟨replacement, items, command, ⟨hreplacement, hsto, ensureOutboxEditable_ok hedit,
      hitems, hpar, not_lt.mp hsize, hquota⟩, rfl, rfl⟩
  rintro ⟨replacement, items, command, h, rfl, rfl⟩
  unfold outboxEditPrompt
  have hedit : ensureOutboxEditable command = .ok () := if_neg (not_not.mpr h.queued)
  have hpar := h.checked
  have hsize := h.small
  have hquota := h.quota
  unfold editedRow keptItems at hpar hsize hquota
  rw [h.valid, h.stored]
  dsimp only [Bind.bind, Except.bind]
  rw [hedit, h.read]
  dsimp only
  rw [hpar]
  dsimp only
  rw [if_neg (not_lt.mpr hsize), hquota]
  rfl

lemma Edits.other_time (htimes : SameLength enc t t')
    (h : Edits enc table t' c input replacement items command) :
    Edits enc table t c input replacement items command := by
  refine ⟨h.valid, h.stored, h.queued, h.read, h.checked, h.small, ?_⟩
  have hlen := htimes.updated (editedRow t replacement items command)
  change enc.commandLen (editedRow t replacement items command) =
    enc.commandLen (editedRow t' replacement items command) at hlen
  rw [hlen]
  exact h.quota

/-- The encoded rows are counted without saturation. -/
def BytesFit (enc : Encoding) (table : Outbox) : Prop :=
  table.sum enc.commandLen ≤ max64

def ownedLen (enc : Encoding) (owner : Option String) (row : OutboxCommand) : Nat :=
  if row.ownerContext = owner then enc.commandLen row else 0

lemma foldl_ownedLen (owner : Option String) (l : List (String × OutboxCommand)) (total : Nat) :
    l.foldl (fun total e =>
      if e.2.ownerContext = owner then add64 total (enc.commandLen e.2) else total)
        (min total max64) =
      min (total + (l.map (fun e => ownedLen enc owner e.2)).sum) max64 := by
  induction l generalizing total with
  | nil => rfl
  | cons e rest ih =>
  rw [List.foldl_cons, List.map_cons, List.sum_cons, ← Nat.add_assoc, ← ih]
  congr 1
  unfold ownedLen add64
  split <;> omega

variable (owner : Option String)

lemma outboxOwnerBytes_eq : outboxOwnerBytes enc table owner =
      min (table.sum (ownedLen enc owner)) max64 := by
  have hfold := @foldl_ownedLen enc owner table.entries 0
  rw [Nat.zero_min, Nat.zero_add] at hfold
  exact hfold

lemma sum_ownedLen_le : table.sum (ownedLen enc owner) ≤ table.sum enc.commandLen := by
  refine sum_le_sum (fun row => ?_)
  unfold ownedLen
  split
  · exact le_refl _
  · exact Nat.zero_le _

lemma Edits.quota_again (hfit : BytesFit enc table)
    (h : Edits enc table t c input replacement items command) :
    ensureOutboxOwnerReplacementQuota
      (outboxOwnerBytes enc (table.insert c (editedRow t replacement items command))
        command.ownerContext)
      (enc.commandLen (editedRow t replacement items command))
      (enc.commandLen (editedRow t replacement items command)) = .ok () := by
  have hquota := h.quota
  have hle : table.sum (ownedLen enc command.ownerContext) ≤ max64 :=
    (sum_ownedLen_le _).trans hfit
  have hsum := sum_insert table c (editedRow t replacement items command)
    (ownedLen enc command.ownerContext)
  have hsto := le_sum h.stored (ownedLen enc command.ownerContext)
  have hold : ownedLen enc command.ownerContext command = enc.commandLen command := if_pos rfl
  have hnew : ownedLen enc command.ownerContext (editedRow t replacement items command) =
      enc.commandLen (editedRow t replacement items command) := if_pos rfl
  rw [h.stored, map_some, getD_some, hold, hnew] at hsum
  rw [hold] at hsto
  rw [outboxOwnerBytes_eq, Nat.min_eq_left hle] at hquota
  rw [outboxOwnerBytes_eq]
  unfold ensureOutboxOwnerReplacementQuota ensureOutboxOwnerQuota at hquota ⊢
  split at hquota
  · cases hquota
  rename_i hroom
  refine if_neg ?_
  unfold add64 maxOutboxOwnerBytes max64 at *
  omega

lemma keptItems_append (hvalid : validateReplacement input = .ok replacement) :
    keptItems (replacement ++ keptItems items) = keptItems items := by
  have hall : replacement.all isEditableItem = true := by
    unfold validateReplacement at hvalid
    split at hvalid
    · cases hvalid
    split at hvalid
    · cases hvalid
    rename_i hchecks
    cases hvalid
    push Not at hchecks
    exact hchecks.2.2.1
  have hnone : replacement.filter (fun item => !isEditableItem item) = [] := by
    refine List.filter_eq_nil_iff.mpr (fun item hitem => ?_)
    simp [List.all_eq_true.mp hall item hitem]
  unfold keptItems
  rw [List.filter_append, hnone, List.nil_append, List.filter_filter]
  simp

lemma Edits.again (hfit : BytesFit enc table)
    (h : Edits enc table t c input replacement items command) :
    outboxEditPrompt enc (table.insert c (editedRow t replacement items command)) t c input =
      .ok (table.insert c (editedRow t replacement items command),
        editedRow t replacement items command) := by
  have hobj : command.params.isObj = true := by
    cases hget : command.params.get? "input" with
    | none =>
      have hitems := h.read
      rw [hget] at hitems
      cases hitems
    | some value => exact isObj_of_get? hget
  have hsame : editedRow t replacement (replacement ++ keptItems items)
      (editedRow t replacement items command) = editedRow t replacement items command := by
    unfold editedRow
    rw [keptItems_append h.valid]
    dsimp only
    rw [insert_insert]
  refine outboxEditPrompt_ok.mpr ⟨replacement, replacement ++ keptItems items,
    editedRow t replacement items command, ?_, hsame.symm, ?_⟩
  · refine ⟨h.valid, get?_insert_self _ _ _, h.queued, ?_, ?_, ?_, ?_⟩
    · change ((command.params.insert "input" _).get? "input").bind asArr? = _
      rw [get?_insert hobj, if_pos rfl]
      rfl
    · rw [hsame]
      exact h.checked
    · rw [hsame]
      exact h.small
    · rw [hsame]
      exact h.quota_again hfit
  · exact (insert_of_some (get?_insert_self _ _ _)).symm

def NamesEdit (enc : Encoding) (table : Outbox) (now : Nat) (object : Json) : Prop :=
  ∃ c input replacement items command, (object.get? "commandId").bind asStr? = some c ∧
    object.get? "input" = some input ∧ Edits enc table now c input replacement items command

lemma queueEdit_ok {object : Json} : queueEdit enc object table now = .ok (table', row) ↔
    ∃ c input, (object.get? "commandId").bind asStr? = some c ∧ object.get? "input" = some input ∧
      outboxEditPrompt enc table now c input = .ok (table', row) := by
  constructor
  · intro h
    obtain ⟨c, hc, h⟩ := bind_ok h
    split at h
    · cases h
    · rename_i input hinput
      exact ⟨c, input, requiredString_ok.mp hc, hinput, h⟩
  rintro ⟨c, input, hc, hinput, h⟩
  unfold queueEdit
  rw [requiredString_ok.mpr hc, hinput]
  exact h

/-- An edit that goes through is repeated without effect only within its millisecond. -/
lemma queueEdit_idempotent_iff (htimes : SameLength enc t t') (hfit : BytesFit enc table)
    {object : Json} : Idempotent (queueEdit enc object) table t t' ↔
      (NamesEdit enc table t object → t = t') := by
  cases h : queueEdit enc object table t with
  | error e =>
    have href : ∀ s, (s = t ∨ s = t') → ¬ ∃ r, queueEdit enc object table s = .ok r := by
      rintro s hs ⟨⟨table'', row⟩, hok⟩
      obtain ⟨c, input, hc, hinput, hedit⟩ := queueEdit_ok.mp hok
      obtain ⟨replacement, items, command, hedits, -, -⟩ := outboxEditPrompt_ok.mp hedit
      have hedits' : Edits enc table t c input replacement items command := by
        rcases hs with rfl | rfl
        · exact hedits
        · exact hedits.other_time htimes
      have hnow := queueEdit_ok.mpr ⟨c, input, hc, hinput,
        outboxEditPrompt_ok.mpr ⟨replacement, items, command, hedits', rfl, rfl⟩⟩
      exact absurd (hnow.symm.trans h) (by simp)
    rw [Idempotent.iff_of_error h]
    refine iff_of_true ?_ ?_
    · rintro table'' ⟨b, hlater⟩
      exact absurd ⟨_, hlater⟩ (href t' (.inr rfl))
    rintro ⟨c, input, replacement, items, command, hc, hinput, hedits⟩
    exact absurd ⟨_, queueEdit_ok.mpr ⟨c, input, hc, hinput,
      outboxEditPrompt_ok.mpr ⟨replacement, items, command, hedits, rfl, rfl⟩⟩⟩ (href t (.inl rfl))
  | ok r =>
  obtain ⟨table', row⟩ := r
  obtain ⟨c, input, hc, hinput, hedit⟩ := queueEdit_ok.mp h
  obtain ⟨replacement, items, command, hedits, rfl, rfl⟩ := outboxEditPrompt_ok.mp hedit
  rw [Idempotent.iff_of_ok h]
  constructor
  · rintro ⟨row, hlater⟩ -
    obtain ⟨c', input', hc', hinput', hedit'⟩ := queueEdit_ok.mp hlater
    obtain rfl := some.inj (hc.symm.trans hc')
    obtain ⟨replacement', items', command', -, rfl, htable⟩ := outboxEditPrompt_ok.mp hedit'
    -- The row of the second execution carries its time.
    have hrow := congrArg (fun table : Outbox => table.get? c) htable
    rw [get?_insert_self, get?_insert_self] at hrow
    exact congrArg OutboxCommand.updatedAt (some.inj hrow)
  · intro hsame
    obtain rfl := hsame ⟨c, input, replacement, items, command, hc, hinput, hedits⟩
    exact ⟨_, queueEdit_ok.mpr ⟨c, input, hc, hinput, hedits.again hfit⟩⟩

end CodeWide.Sync
