import CodeWide.Lib.Run
import CodeWide.Server.Entries

/-!
# A revocation reaches what is open

A resource is `Safe` as long as every change of its device since its check still waits at its
receiver.
-/

namespace CodeWide.Server

open Lib Lib.Broadcast Table List

namespace System

/-- No change of the grant's device since the check has been passed by a receiver at `heard`. -/
def ClearFor (s : System) (grant : Grant) (heard : Nat) : Prop :=
  Clear s.registry.changes grant.deviceId grant.since heard

instance (s : System) (grant : Grant) (heard : Nat) : Decidable (s.ClearFor grant heard) :=
  inferInstanceAs (Decidable (Clear _ _ _ _))

/-- A resource that is open has its device's changes since the check still to hear of. -/
structure Safe (s : System) : Prop where
  serving : ∀ n forward grant changes,
    s.tasks.get? n = some (.serving forward grant changes) → s.ClearFor grant changes
  terminals : ∀ n terminal, s.terminals.get? n = some terminal → terminal.running = true →
    s.ClearFor terminal.grant terminal.changes
  attached : ∀ n grant id terminal, s.tasks.get? n = some (.attached grant id) →
    s.terminals.get? id = some terminal → terminal.running = true →
    s.ClearFor grant terminal.changes
  tunnels : ∀ n grant, s.tunnels.get? n = some grant → s.ClearFor grant s.tunnelChanges

/-- The terminal that a request would get has its changes still to hear of. -/
def AttachClear (s : System) (grant : Grant) (threadId : Option String) (id : Nat) : Prop :=
  ∀ terminal ∈ s.terminals.get? id, s.attach grant threadId id = .attached grant id →
    terminal.running = true → s.ClearFor grant terminal.changes

instance (s : System) (grant : Grant) (threadId : Option String) (id : Nat) :
    Decidable (s.AttachClear grant threadId id) := by
  unfold AttachClear
  cases s.terminals.get? id <;> infer_instance

/-- The step opens no terminal or tunnel for a device that changed after the check. -/
def OpensClear (s : System) (ok : Bool) : Task → Prop
  | .terminalSubscribed grant query changes =>
    ok = true → match query.sessionId with
      | none => s.ClearFor grant changes
      | some sessionId =>
        match s.terminalSessions.get? sessionId with
        | some id => s.AttachClear grant query.threadId id
        | none => True
  | .terminalSpawned grant sessionId threadId changes =>
    match s.terminalSessions.get? sessionId with
    | some id => s.AttachClear grant threadId id
    | none => s.ClearFor grant changes
  | .tunnelAuthorized grant => ok = true → s.ClearFor grant s.tunnelChanges
  | _ => True

def Meets (s : System) : Event → Prop
  | .advance n ok => ∀ task ∈ s.tasks.get? n, s.OpensClear ok task
  | _ => True

/-- What holds of a handler between two steps. -/
def TaskOk (s : System) : Task → Prop
  | .syncSubscribed _ _ changes | .forwardSubscribed _ changes => changes ≤ s.position
  | .syncAuthorized grant changes | .forwardAuthorized grant changes
  | .forwardConnected grant changes | .serving _ grant changes =>
    changes ≤ s.position ∧ s.ClearFor grant changes
  | .terminalSubscribed _ _ changes | .terminalSpawned _ _ _ changes => changes ≤ s.position
  | .attached grant id => ∃ terminal, s.terminals.get? id = some terminal ∧
    terminal.grant.deviceId = grant.deviceId ∧
    (terminal.running = true → s.ClearFor grant terminal.changes)
  | _ => True

def TerminalOk (s : System) (n : Nat) (terminal : LiveTerminal) : Prop :=
  n < s.nextTerminal ∧ terminal.changes ≤ s.position ∧
    (terminal.running = true → s.ClearFor terminal.grant terminal.changes)

structure Inv (s : System) : Prop where
  tasks : ∀ n task, s.tasks.get? n = some task → s.TaskOk task
  terminals : ∀ n terminal, s.terminals.get? n = some terminal → s.TerminalOk n terminal
  tunnels : ∀ n grant, s.tunnels.get? n = some grant → s.ClearFor grant s.tunnelChanges
  tunnelChanges : s.tunnelChanges ≤ s.position

variable {s : System}

lemma Inv.safe (h : s.Inv) : s.Safe where
  serving n forward grant changes hget := (h.tasks n _ hget).2
  terminals n terminal hget := (h.terminals n terminal hget).2.2
  attached n grant id terminal hget hterm := by
    obtain ⟨other, hother, -, hclear⟩ := h.tasks n _ hget
    rw [hterm] at hother
    cases hother
    exact hclear
  tunnels := h.tunnels

lemma inv_start (registry : Registry) : (start registry).Inv where
  tasks n task h := by cases h
  terminals n terminal h := by cases h
  tunnels n grant h := by cases h
  tunnelChanges := le_rfl

/-- More changes are published, and no attached terminal passes a change of its device. -/
structure Grows (s t : System) : Prop where
  changes : ∃ more, t.registry.changes = s.registry.changes ++ more
  terminals : ∀ id terminal, s.terminals.get? id = some terminal →
    ∃ terminal', t.terminals.get? id = some terminal' ∧
      terminal'.grant.deviceId = terminal.grant.deviceId ∧
      ∀ grant : Grant, terminal.grant.deviceId = grant.deviceId →
        (terminal.running = true → s.ClearFor grant terminal.changes) →
        terminal'.running = true → t.ClearFor grant terminal'.changes

lemma Grows.position_le {s t : System} (h : s.Grows t) : s.position ≤ t.position := by
  obtain ⟨more, hmore⟩ := h.changes
  unfold position
  rw [hmore, length_append]
  omega

variable {grant : Grant}

lemma Grows.clearFor {s t : System} (h : s.Grows t) {heard : Nat}
    (hheard : heard ≤ s.position) (hclear : s.ClearFor grant heard) : t.ClearFor grant heard := by
  obtain ⟨more, hmore⟩ := h.changes
  unfold ClearFor
  rw [hmore]
  exact hclear.append hheard more

variable {task : Task}

lemma TaskOk.grows {s t : System} (h : s.Grows t) (hok : s.TaskOk task) : t.TaskOk task := by
  have hle := h.position_le
  cases task with
  | syncSubscribed | forwardSubscribed | terminalSubscribed | terminalSpawned =>
    exact Nat.le_trans hok hle
  | syncAuthorized | forwardAuthorized | forwardConnected | serving => exact ⟨Nat.le_trans hok.1 hle, h.clearFor hok.1 hok.2⟩
  | attached grant id =>
    obtain ⟨terminal, hget, hdevice, hclear⟩ := hok
    obtain ⟨terminal', hget', hdevice', hgrows⟩ := h.terminals id terminal hget
    exact ⟨terminal', hget', hdevice'.trans hdevice, hgrows grant hdevice hclear⟩
  | _ => trivial

lemma grows_of_eq {s t : System} (hregistry : t.registry = s.registry)
    (hterminals : t.terminals = s.terminals) : s.Grows t where
  changes := ⟨[], by rw [hregistry, append_nil]⟩
  terminals id terminal hget := by
    refine ⟨terminal, by rw [hterminals]; exact hget, rfl, fun grant _ hclear hrun => ?_⟩
    unfold ClearFor
    rw [hregistry]
    exact hclear hrun

lemma Inv.of_grows {s t : System} (h : s.Inv) (hgrows : s.Grows t)
    (htasks : ∀ n task, t.tasks.get? n = some task → s.tasks.get? n = some task ∨ t.TaskOk task)
    (hterminals : ∀ n terminal, t.terminals.get? n = some terminal → t.TerminalOk n terminal)
    (htunnels : ∀ n grant, t.tunnels.get? n = some grant → t.ClearFor grant t.tunnelChanges)
    (htunnelChanges : t.tunnelChanges ≤ t.position) : t.Inv where
  tasks n task hget := by
    rcases htasks n task hget with hold | hok
    · exact (h.tasks n task hold).grows hgrows
    · exact hok
  terminals := hterminals
  tunnels := htunnels
  tunnelChanges := htunnelChanges

lemma Inv.insertTask (h : s.Inv) (n : Nat) (hok : s.TaskOk task) :
    Inv { s with tasks := s.tasks.insert n task } := by
  have hgrows : s.Grows { s with tasks := s.tasks.insert n task } := grows_of_eq rfl rfl
  refine h.of_grows hgrows (fun m other hget => ?_) h.terminals h.tunnels h.tunnelChanges
  by_cases hm : m = n
  · rw [hm, get?_insert_self] at hget
    cases hget
    exact .inr (hok.grows hgrows)
  · rw [get?_insert_of_ne _ _ hm] at hget
    exact .inl hget

variable (r : Registry)

variable (deviceId : DeviceId)

lemma claim_changes (tokenHash : String) (persisted : Bool) :
    ∃ more, (r.claim deviceId tokenHash persisted).changes = r.changes ++ more := by
  unfold Registry.claim
  simp only
  split
  · exact ⟨[deviceId], rfl⟩
  · exact ⟨[], (append_nil _).symm⟩

lemma revoke_changes (persisted : Bool) :
    ∃ more, (r.revoke deviceId persisted).changes = r.changes ++ more := by
  unfold Registry.revoke
  split
  · simp only
    split
    · exact ⟨[deviceId], rfl⟩
    · exact ⟨[], (append_nil _).symm⟩
  · exact ⟨[], (append_nil _).symm⟩

lemma authenticate_changes (tokenHash : String) :
    ∃ more, (r.authenticate deviceId tokenHash).changes = r.changes ++ more := by
  unfold Registry.authenticate
  split <;> exact ⟨[], (append_nil _).symm⟩

lemma Inv.setRegistry (h : s.Inv) {registry : Registry}
    (hmore : ∃ more, registry.changes = s.registry.changes ++ more) : Inv { s with registry } := by
  have hclear : ∀ {grant : Grant} {heard : Nat}, heard ≤ s.position → s.ClearFor grant heard →
      System.ClearFor { s with registry } grant heard := by
    obtain ⟨more, hmore⟩ := hmore
    intro grant heard hheard hclear
    unfold ClearFor
    rw [hmore]
    exact hclear.append hheard more
  have hgrows : s.Grows { s with registry } :=
    ⟨hmore, fun id terminal hget => ⟨terminal, hget, rfl, fun grant _ hold hrun =>
      hclear (h.terminals id terminal hget).2.1 (hold hrun)⟩⟩
  have hle := hgrows.position_le
  refine h.of_grows hgrows (fun n task hget => .inl hget) (fun n terminal hget => ?_)
    (fun n grant hget => hclear h.tunnelChanges (h.tunnels n grant hget))
    (Nat.le_trans h.tunnelChanges hle)
  obtain ⟨hfresh, hchg, hold⟩ := h.terminals n terminal hget
  exact ⟨hfresh, Nat.le_trans hchg hle, fun hrun => hclear hchg (hold hrun)⟩

lemma authenticatedSession_since {r : Registry} {tokenHash : String}
    (h : r.authenticatedSession tokenHash = some grant) : grant.since = r.changes.length := by
  unfold Registry.authenticatedSession at h
  split at h
  · cases h
    rfl
  · cases h

lemma authorizeSyncTransport_since {r : Registry} {tokenHash : String} {tls : Option DeviceId}
    (h : r.authorizeSyncTransport tokenHash tls = some grant) : grant.since = r.changes.length := by
  unfold Registry.authorizeSyncTransport at h
  split at h
  · split at h
    · cases h
      rfl
    · cases h
  · exact authenticatedSession_since h

lemma clearFor_of_since {changes : Nat}
    (hsince : grant.since = s.registry.changes.length) (hchg : changes ≤ s.position) :
    s.ClearFor grant changes :=
  clear_of_le (by rw [hsince]; exact hchg)

lemma clearFor_of_isValid {changes : Nat}
    (hvalid : isValid s.registry.changes grant.deviceId changes = true)
    (hclear : s.ClearFor grant changes) : s.ClearFor grant s.position := by
  unfold isValid at hvalid
  rw [Bool.and_eq_true, decide_eq_true_eq, decide_eq_true_eq] at hvalid
  intro i hsince hi heq
  by_cases hlt : i < changes
  · exact hclear i hsince hlt heq
  · refine hvalid.2 (mem_iff_getElem?.mpr ⟨i - changes, ?_⟩)
    rw [getElem?_drop, Nat.add_sub_cancel' (Nat.le_of_not_lt hlt)]
    exact heq

variable {threadId : Option String}

lemma taskOk_attach {id : Nat}
    (hclear : s.AttachClear grant threadId id) : s.TaskOk (s.attach grant threadId id) := by
  unfold AttachClear at hclear
  cases hget : s.terminals.get? id with
  | none =>
    unfold attach
    rw [hget]
    trivial
  | some existing =>
  by_cases hatt : s.attach grant threadId id = .attached grant id
  · rw [hatt]
    have howner : existing.grant.deviceId = grant.deviceId := by
      by_contra hne
      unfold attach at hatt
      rw [hget] at hatt
      simp only at hatt
      rw [if_pos hne] at hatt
      cases hatt
    exact ⟨existing, hget, howner, hclear existing hget hatt⟩
  have hdone : s.attach grant threadId id = .done := by
    unfold attach at hatt ⊢
    rw [hget] at hatt ⊢
    simp only at hatt ⊢
    split at hatt
    · rw [if_pos ‹_›]
    rw [if_neg ‹_›]
    split at hatt
    · rw [if_pos ‹_›]
    · exact absurd rfl hatt
  rw [hdone]
  trivial

lemma inv_advance (h : s.Inv) {ok : Bool} (hok : s.TaskOk task) (hmeets : s.OpensClear ok task) :
    (s.advance ok task).1.Inv ∧ (s.advance ok task).1.TaskOk (s.advance ok task).2 := by
  cases task with
  | sync tokenHash tls => exact ⟨h, le_rfl⟩
  | syncSubscribed tokenHash tls changes =>
    unfold advance
    simp only
    split
    · next hgrant =>
      exact ⟨h, hok, clearFor_of_since (authorizeSyncTransport_since hgrant) hok⟩
    · exact ⟨h, trivial⟩
  | syncAuthorized grant changes | forwardAuthorized grant changes =>
    unfold advance
    cases ok
    · exact ⟨h, trivial⟩
    · exact ⟨h, hok⟩
  | forward tokenHash | terminalAuthorized grant query => exact ⟨h, le_rfl⟩
  | forwardSubscribed tokenHash changes =>
    unfold advance
    simp only
    split
    · next hgrant => exact ⟨h, hok, clearFor_of_since (authenticatedSession_since hgrant) hok⟩
    · exact ⟨h, trivial⟩
  | forwardConnected grant changes =>
    unfold advance
    simp only
    split
    · next hvalid => exact ⟨h, le_rfl, clearFor_of_isValid hvalid hok.2⟩
    · exact ⟨h, trivial⟩
  | terminal tokenHash query | tunnel tokenHash =>
    unfold advance
    simp only
    split <;> exact ⟨h, trivial⟩
  | terminalSubscribed grant query changes =>
    unfold advance
    unfold OpensClear at hmeets
    simp only
    cases hsess : query.sessionId with
    | none =>
      cases ok with
      | false => exact ⟨h, trivial⟩
      | true =>
      have hclear := hmeets rfl
      rw [hsess] at hclear
      exact ⟨h, hok, hclear⟩
    | some sessionId =>
    simp only
    cases hexis : s.terminalSessions.get? sessionId with
    | some id =>
      cases ok with
      | false => exact ⟨h, trivial⟩
      | true =>
      have hclear := hmeets rfl
      rw [hsess] at hclear
      simp only at hclear
      rw [hexis] at hclear
      exact ⟨h, taskOk_attach hclear⟩
    | none =>
    simp only
    split
    · exact ⟨h, trivial⟩
    · cases ok with
      | false => exact ⟨h, trivial⟩
      | true => exact ⟨h, hok⟩
  | terminalSpawned grant sessionId threadId changes =>
    unfold advance
    simp only [OpensClear] at hmeets
    simp only
    cases hexis : s.terminalSessions.get? sessionId with
    | some id =>
      rw [hexis] at hmeets
      exact ⟨h, taskOk_attach hmeets⟩
    | none =>
    rw [hexis] at hmeets
    have hnew : ∀ id terminal, s.terminals.get? id = some terminal → id ≠ s.nextTerminal :=
      fun id terminal hget => Nat.ne_of_lt (h.terminals id terminal hget).1
    refine ⟨h.of_grows ⟨⟨[], (append_nil _).symm⟩, fun id terminal hget => ?_⟩
      (fun n task hget => .inl hget) (fun n terminal hget => ?_) h.tunnels h.tunnelChanges,
      ⟨grant, threadId, changes, true⟩, get?_insert_self _ _ _, rfl, fun _ => hmeets⟩
    · refine ⟨terminal, ?_, rfl, fun _ _ hclear => hclear⟩
      exact (get?_insert_of_ne _ _ (hnew id terminal hget)).trans hget
    by_cases hn : n = s.nextTerminal
    · subst hn
      have hterm := hget.symm.trans (get?_insert_self _ _ _)
      cases hterm
      exact ⟨Nat.lt_succ_self _, hok, fun _ => hmeets⟩
    have hold : s.terminals.get? n = some terminal :=
      (get?_insert_of_ne _ _ hn).symm.trans hget
    obtain ⟨hlt, hrest⟩ := h.terminals n terminal hold
    exact ⟨Nat.lt_succ_of_lt hlt, hrest⟩
  | tunnelAuthorized grant =>
    unfold advance
    cases ok with
    | false => exact ⟨h, trivial⟩
    | true =>
    refine ⟨h.of_grows (grows_of_eq rfl rfl) (fun n task hget => .inl hget) h.terminals
      (fun n other hget => ?_) h.tunnelChanges, trivial⟩
    by_cases hn : n = s.nextTunnel
    · subst hn
      have hgrant := hget.symm.trans (get?_insert_self _ _ _)
      cases hgrant
      exact hmeets rfl
    · exact h.tunnels n other ((get?_insert_of_ne _ _ hn).symm.trans hget)
  | serving forward grant changes | attached grant id => exact ⟨h, hok⟩
  | done => exact ⟨h, trivial⟩

lemma taskOk_hear (hok : s.TaskOk task) : s.TaskOk (s.hear task) := by
  cases task with
  | serving forward grant changes =>
    unfold hear
    simp only
    split
    · exact hok
    · trivial
    next deviceId changes' hnext =>
    split
    · trivial
    · next hne => exact ⟨receive_le hnext hok.1, hok.2.next hnext hne⟩
  | _ => exact hok

lemma taskOk_transfer (hok : s.TaskOk task) : s.TaskOk (s.transfer task) := by
  unfold transfer
  split
  · split
    · next hvalid => exact ⟨le_rfl, clearFor_of_isValid hvalid hok.2⟩
    · trivial
  · exact hok

/-- A terminal's owner stays, and a change of it that the terminal passes ends it. -/
structure Passes (s : System) (terminal terminal' : LiveTerminal) : Prop where
  grant : terminal'.grant = terminal.grant
  changes : terminal'.changes ≤ s.position
  clear : ∀ grant : Grant, terminal.grant.deviceId = grant.deviceId →
    (terminal.running = true → s.ClearFor grant terminal.changes) →
    terminal'.running = true → s.ClearFor grant terminal'.changes

lemma passes_watch {terminal : LiveTerminal}
    (hchg : terminal.changes ≤ s.position) : s.Passes terminal (s.watch terminal) := by
  unfold watch
  split
  · exact ⟨rfl, hchg, fun _ _ hclear => hclear⟩
  · next hlagged =>
    exact ⟨rfl, receive_le hlagged hchg, fun _ _ _ hrun => by cases hrun⟩
  next deviceId changes hnext =>
  split
  · exact ⟨rfl, receive_le hnext hchg, fun _ _ _ hrun => by cases hrun⟩
  · next hne =>
    refine ⟨rfl, receive_le hnext hchg, fun grant howner hclear hrun => ?_⟩
    exact (hclear hrun).next hnext (by rw [← howner]; exact hne)

lemma inv_moveTerminal (h : s.Inv) (n : Nat) {f : LiveTerminal → LiveTerminal}
    (hf : ∀ terminal, terminal.changes ≤ s.position → s.Passes terminal (f terminal)) :
    (s.moveTerminal n f).Inv := by
  unfold moveTerminal
  cases hget : s.terminals.get? n with
  | none => exact h
  | some terminal =>
  obtain ⟨hfresh, hchg, hclear⟩ := h.terminals n terminal hget
  have hpasses := hf terminal hchg
  refine h.of_grows ⟨⟨[], (append_nil _).symm⟩, fun id other hother => ?_⟩
    (fun m task htask => .inl htask) (fun m other hother => ?_) h.tunnels h.tunnelChanges
  · by_cases hid : id = n
    · subst hid
      rw [hget] at hother
      cases hother
      exact ⟨f terminal, get?_insert_self _ _ _, congrArg Grant.deviceId hpasses.grant,
        hpasses.clear⟩
    · exact ⟨other, (get?_insert_of_ne _ _ hid).trans hother, rfl, fun _ _ hold => hold⟩
  by_cases hm : m = n
  · subst hm
    have hnew := hother.symm.trans (get?_insert_self _ _ _)
    cases hnew
    refine ⟨hfresh, hpasses.changes, fun hrun => ?_⟩
    rw [hpasses.grant]
    exact hpasses.clear _ rfl hclear hrun
  · exact h.terminals m other ((get?_insert_of_ne _ _ hm).symm.trans hother)

lemma inv_cleanTunnels (h : s.Inv) : s.cleanTunnels.Inv := by
  unfold cleanTunnels
  split
  · exact h
  · next hlagged =>
    exact h.of_grows (grows_of_eq rfl rfl) (fun _ _ hget => .inl hget) h.terminals
      (fun n grant hget => by cases hget) (receive_le hlagged h.tunnelChanges)
  next deviceId changes hnext =>
  refine h.of_grows (grows_of_eq rfl rfl) (fun _ _ hget => .inl hget) h.terminals
    (fun n grant hget => ?_) (receive_le hnext h.tunnelChanges)
  have hfilt := (get?_filter s.tunnels _ n).symm.trans hget
  rw [Option.filter_eq_some_iff] at hfilt
  have hne : grant.deviceId ≠ deviceId := of_decide_eq_true hfilt.2
  exact (h.tunnels n grant hfilt.1).next hnext hne.symm

lemma inv_endTunnel (h : s.Inv) (n : Nat) : Inv { s with tunnels := s.tunnels.erase n } := by
  refine h.of_grows (grows_of_eq rfl rfl) (fun _ _ hget => .inl hget) h.terminals
    (fun m grant hget => ?_) h.tunnelChanges
  have heras := (get?_erase s.tunnels n m).symm.trans hget
  split at heras
  · cases heras
  · exact h.tunnels m grant heras

lemma taskOk_of_isRequest (h : isRequest task = true) : s.TaskOk task := by
  cases task with
  | sync | forward | terminal | tunnel => trivial
  | _ => cases h

lemma inv_moveTask (h : s.Inv) (n : Nat) {f : Task → System × Task}
    (hf : ∀ task, s.tasks.get? n = some task → s.TaskOk task →
      (f task).1.Inv ∧ (f task).1.TaskOk (f task).2) : (s.moveTask n f).Inv := by
  unfold moveTask
  cases hget : s.tasks.get? n with
  | none => exact h
  | some task =>
    obtain ⟨hinv, hok⟩ := hf task hget (h.tasks n task hget)
    exact hinv.insertTask n hok

lemma inv_step (h : s.Inv) {e : Event} (hmeets : s.Meets e) : (s.step e).Inv := by
  cases e with
  | claim deviceId tokenHash persisted =>
    exact h.setRegistry (claim_changes s.registry deviceId tokenHash persisted)
  | revoke deviceId persisted => exact h.setRegistry (revoke_changes s.registry deviceId persisted)
  | authenticate deviceId tokenHash =>
    exact h.setRegistry (authenticate_changes s.registry deviceId tokenHash)
  | expire tokenHash => exact h.setRegistry ⟨[], (append_nil _).symm⟩
  | request task =>
    unfold step
    simp only
    split
    · next hreq =>
      have hinv := h.insertTask s.nextTask (taskOk_of_isRequest hreq)
      exact hinv.of_grows (grows_of_eq rfl rfl) (fun _ _ hget => .inl hget) hinv.terminals
        hinv.tunnels hinv.tunnelChanges
    · exact h
  | advance n ok =>
    exact inv_moveTask h n (fun task hget hok => inv_advance h hok (hmeets task hget))
  | hear n =>
    exact inv_moveTask h n (f := fun task => (s, s.hear task)) (fun _ _ hok => ⟨h, taskOk_hear hok⟩)
  | transfer n =>
    exact inv_moveTask h n (f := fun task => (s, s.transfer task))
      (fun _ _ hok => ⟨h, taskOk_transfer hok⟩)
  | leave n => exact inv_moveTask h n (f := fun _ => (s, .done)) (fun _ _ _ => ⟨h, trivial⟩)
  | watch n => exact inv_moveTerminal h n (fun terminal hchg => passes_watch hchg)
  | exit n =>
    exact inv_moveTerminal h n (fun terminal hchg =>
      ⟨rfl, hchg, fun _ _ _ hrun => by cases hrun⟩)
  | forgetTerminal sessionId =>
    exact h.of_grows (grows_of_eq rfl rfl) (fun _ _ hget => .inl hget) h.terminals h.tunnels
      h.tunnelChanges
  | cleanTunnels => exact inv_cleanTunnels h
  | endTunnel n => exact inv_endTunnel h n

lemma attachClear_of_safe {n : Nat} {id : Nat}
    (h : Safe { s with tasks := s.tasks.insert n (s.attach grant threadId id) }) :
    s.AttachClear grant threadId id := by
  intro terminal hget hatt hrun
  refine h.attached n grant id terminal ?_ hget hrun
  rw [hatt]
  exact get?_insert_self _ _ _

lemma meets_of_safe_step {e : Event} (h : (s.step e).Safe) : s.Meets e := by
  cases e with
  | advance n ok =>
    intro task hget
    have hsafe : Safe { (s.advance ok task).1 with
        tasks := (s.advance ok task).1.tasks.insert n (s.advance ok task).2 } := by
      have hmoved := h
      unfold step moveTask at hmoved
      simp only at hmoved
      rw [hget] at hmoved
      exact hmoved
    cases task with
    | terminalSubscribed grant query changes =>
      intro hok
      subst hok
      unfold advance at hsafe
      simp only at hsafe
      cases hsess : query.sessionId with
      | none =>
        rw [hsess] at hsafe
        exact hsafe.serving n false grant changes (get?_insert_self _ _ _)
      | some sessionId =>
      simp only
      rw [hsess] at hsafe
      simp only at hsafe
      cases hexis : s.terminalSessions.get? sessionId with
      | none => trivial
      | some id =>
        rw [hexis] at hsafe
        exact attachClear_of_safe hsafe
    | terminalSpawned grant sessionId threadId changes =>
      unfold advance at hsafe
      simp only at hsafe
      simp only [OpensClear]
      cases hexis : s.terminalSessions.get? sessionId with
      | some id =>
        rw [hexis] at hsafe
        exact attachClear_of_safe hsafe
      | none =>
        rw [hexis] at hsafe
        exact hsafe.terminals s.nextTerminal _ (get?_insert_self _ _ _) rfl
    | tunnelAuthorized grant =>
      intro hok
      subst hok
      exact hsafe.tunnels s.nextTunnel grant (get?_insert_self _ _ _)
    | _ => trivial
  | _ => trivial

/-- Every resource is safe exactly when no step opens one for a device that changed since its check.
-/
theorem revocation_reaches_iff (registry : Registry) (events : List Event) :
    (∀ done rest, events = done ++ rest → (exec step (start registry) done).Safe) ↔
      Always step Meets (start registry) events :=
  always_iff_of_guarded (T := Inv) (P := Safe) (Q := Meets) (fun _ h => h.safe)
    (fun _ _ h hmeets => inv_step h hmeets) (fun _ _ _ hsafe => meets_of_safe_step hsafe)
    (inv_start registry) events

def paired : Registry :=
  ⟨(∅ : Table _ _).insert "phone" "device", (∅ : Table _ _).insert "session" "phone", []⟩

def revokedInBetween : List Event :=
  [.request (.terminal "session" ⟨none, none, none⟩), .advance 0 true, .revoke "phone" true,
    .advance 0 true, .advance 0 true, .hear 0]

/-- The shell of the revoked device stays open, and nothing waits in its receiver. -/
theorem revoked_device_keeps_shell :
    (exec step (start paired) revokedInBetween).tasks.get? 0 =
      some (.serving false ⟨"phone", 0⟩ 1) ∧
    (exec step (start paired) revokedInBetween).registry.changes = ["phone"] ∧
    ¬ (exec step (start paired) revokedInBetween).Safe := by
  have hopen : (exec step (start paired) revokedInBetween).tasks.get? 0 =
      some (.serving false ⟨"phone", 0⟩ 1) := by decide
  refine ⟨hopen, by decide, fun hsafe => ?_⟩
  exact hsafe.serving 0 false ⟨"phone", 0⟩ 1 hopen 0 le_rfl Nat.one_pos (by decide)

end System

end CodeWide.Server
