import CodeWide.Sqlite.Checkpoints

/-!
# No update is lost on the way to SQLite

A checkpoint holds, for every commit that waits for it, the commit's changes or newer ones.
-/

namespace CodeWide.Sqlite

open Lib List Option

namespace Runtime

variable {ρ : Type}

def checkpoints (s : Runtime ρ) : List (PendingCheckpoint ρ) :=
  s.inFlight.map (·.checkpoint) ++ s.pending.toList

lemma layers_eq (s : Runtime ρ) : s.layers = s.checkpoints.map (·.changes) := by
  simp [layers, checkpoints]

def Committed (s : Runtime ρ) (number : Nat) (k : String) (change : Change ρ) : Prop :=
  ∃ commit, s.commits[number]? = some commit ∧ commit.get? k = some change

/-- The checkpoint holds for each waiting commit its changes or newer ones. -/
structure Sound (s : Runtime ρ) (c : PendingCheckpoint ρ) : Prop where
  numbered : ∀ k n change, c.changes.get? k = some (n, change) → s.Committed n k change
  known : ∀ n ∈ c.waiters, n < s.commits.length
  waiting : ∀ n ∈ c.waiters, ∀ k change, s.Committed n k change →
    ∃ m newer, c.changes.get? k = some (m, newer) ∧ n ≤ m

structure WellFormed (s : Runtime ρ) : Prop where
  sound : ∀ c ∈ s.checkpoints, s.Sound c
  written : ∀ checkpoint rest, s.inFlight = ⟨checkpoint, .written⟩ :: rest →
    ∀ k n change, checkpoint.changes.get? k = some (n, change) → s.table.get? k = change.effect
  behind : ∀ f rest, s.inFlight = f :: rest → ∀ g ∈ rest, ∃ a, g.phase = .running a

def expected (table₀ : Table String ρ) (s : Runtime ρ) (k : String) : Option ρ :=
  (s.committed.get? k).elim (table₀.get? k) (fun change => change.2.effect)

structure Held (table₀ : Table String ρ) (s : Runtime ρ) : Prop where
  newest : ∀ k change, newest s.layers k = some change → s.committed.get? k = some change
  table : ∀ k, Lib.newest s.layers k = none → s.table.get? k = s.expected table₀ k

/-- A failed checkpoint that is put back has no key that a later one in flight has. -/
def KeepsNewest (s : Runtime ρ) : Input ρ → Prop
  | .react => ∀ checkpoint rest, s.inFlight = ⟨checkpoint, .failed⟩ :: rest →
    ∀ k, checkpoint.changes.get? k ≠ none → (s.pending.getD {}).changes.get? k = none →
      ∀ f ∈ rest, f.checkpoint.changes.get? k = none
  | _ => True

section Steps

variable {s : Runtime ρ} {table₀ : Table String ρ}

@[simp] lemma checkpoints_flush : s.flushPendingCheckpoint.checkpoints = s.checkpoints := by
  unfold flushPendingCheckpoint
  split
  · rfl
  · rename_i c hpend
    simp [checkpoints, hpend]

lemma flush_fields : s.flushPendingCheckpoint.table = s.table ∧
    s.flushPendingCheckpoint.commits = s.commits ∧
    s.flushPendingCheckpoint.committed = s.committed ∧
    s.flushPendingCheckpoint.resolved = s.resolved := by
  unfold flushPendingCheckpoint
  split <;> exact ⟨rfl, rfl, rfl, rfl⟩

lemma inFlight_flush : s.flushPendingCheckpoint.inFlight = s.inFlight ∨
    ∃ c, s.flushPendingCheckpoint.inFlight = s.inFlight ++ [⟨c, .running 0⟩] := by
  unfold flushPendingCheckpoint
  split
  · exact .inl rfl
  · exact .inr ⟨_, rfl⟩

variable {c : PendingCheckpoint ρ}

lemma Sound.of_commits {s' : Runtime ρ} (h : s.Sound c)
    (hcommits : ∀ n, n < s.commits.length → s'.commits[n]? = s.commits[n]?)
    (hlen : s.commits.length ≤ s'.commits.length) : s'.Sound c := by
  refine ⟨fun k n change hget => ?_, fun n hn => (h.known n hn).trans_le hlen, ?_⟩
  · obtain ⟨commit, hcommit, hchg⟩ := h.numbered k n change hget
    have hlt : n < s.commits.length := (List.getElem?_eq_some_iff.mp hcommit).1
    exact ⟨commit, (hcommits n hlt).trans hcommit, hchg⟩
  · rintro n hn k change ⟨commit, hcommit, hchg⟩
    rw [hcommits n (h.known n hn)] at hcommit
    exact h.waiting n hn k change ⟨commit, hcommit, hchg⟩

lemma WellFormed.flush (h : s.WellFormed) : s.flushPendingCheckpoint.WellFormed := by
  obtain ⟨htable, hcommits, -, -⟩ := @flush_fields ρ s
  have hbeh := h.behind
  have hwr := h.written
  refine ⟨fun c hc => ?_, ?_, ?_⟩
  · rw [checkpoints_flush] at hc
    exact (h.sound c hc).of_commits (fun n _ => by rw [hcommits]) (by rw [hcommits])
  · rcases @inFlight_flush ρ s with hsame | ⟨c, happ⟩
    · rw [hsame, htable]
      exact hwr
    rw [happ, htable]
    intro checkpoint rest heq
    cases hin : s.inFlight with
    | nil =>
      rw [hin, nil_append] at heq
      exact absurd (congrArg Flight.phase (cons.inj heq).1) (by simp)
    | cons f tail =>
    rw [hin, cons_append] at heq
    obtain ⟨rfl, -⟩ := cons.inj heq
    exact hwr checkpoint tail hin
  rcases @inFlight_flush ρ s with hsame | ⟨c, happ⟩
  · rw [hsame]
    exact hbeh
  rw [happ]
  intro f rest heq g hg
  cases hin : s.inFlight with
  | nil =>
    rw [hin, nil_append] at heq
    obtain ⟨-, rfl⟩ := cons.inj heq
    cases hg
  | cons f' tail =>
  rw [hin, cons_append] at heq
  obtain ⟨rfl, rfl⟩ := cons.inj heq
  rcases mem_concat.mp hg with hg | hg
  · exact hbeh f' tail hin g hg
  · exact ⟨0, by rw [hg]⟩

lemma Held.flush (h : s.Held table₀) : s.flushPendingCheckpoint.Held table₀ := by
  obtain ⟨htable, -, hcomm, -⟩ := @flush_fields ρ s
  have hlayers : s.flushPendingCheckpoint.layers = s.layers := by
    rw [layers_eq, layers_eq, checkpoints_flush]
  refine ⟨?_, ?_⟩
  · rw [hlayers, hcomm]
    exact h.newest
  · intro k
    rw [hlayers, htable, expected, hcomm]
    exact h.table k

lemma newest_layers (s : Runtime ρ) (k : String) :
    Lib.newest s.layers k = ((s.pending.getD {}).changes.get? k).or
      (Lib.newest (s.inFlight.map (·.checkpoint.changes)) k) := by
  rw [layers, newest_append]
  cases s.pending <;> simp

lemma Sound.empty (s : Runtime ρ) : s.Sound {} := by
  refine ⟨fun k n change h => ?_, fun n h => ?_, fun n h => ?_⟩
  · simp at h
  · cases h
  · cases h

lemma WellFormed.pending (h : s.WellFormed) : s.Sound (s.pending.getD {}) := by
  cases hp : s.pending with
  | none => exact Sound.empty s
  | some c => exact h.sound c (by simp [checkpoints, hp])

def noted (s : Runtime ρ) (changes : Table String (Change ρ)) : Runtime ρ :=
  { s with
    commits := s.commits ++ [changes]
    committed := putChanges s.commits.length changes s.committed }

lemma WellFormed.noted (h : s.WellFormed) (changes : Table String (Change ρ)) :
    (s.noted changes).WellFormed := by
  refine ⟨fun c hc => (h.sound c hc).of_commits (fun n hn => ?_) ?_, h.written, h.behind⟩
  · exact getElem?_append_left hn
  · simp [Runtime.noted]

lemma Sound.putChanges (h : s.Sound c) (changes : Table String (Change ρ)) (count : Nat) :
    (s.noted changes).Sound ⟨Runtime.putChanges s.commits.length changes c.changes, count,
      c.waiters ++ [s.commits.length]⟩ := by
  have hold : (s.noted changes).Sound c :=
    h.of_commits (fun n hn => getElem?_append_left hn) (by simp [Runtime.noted])
  have hnew : (s.noted changes).commits[s.commits.length]? = some changes := by
    simp [Runtime.noted]
  refine ⟨fun k n change hget => ?_, fun n hn => ?_, fun n hn k change hcomm => ?_⟩
  · rw [get?_putChanges] at hget
    cases hk : changes.get? k with
    | none =>
      rw [hk] at hget
      exact hold.numbered k n change hget
    | some change' =>
    rw [hk, map_some, some_or, some.injEq, Prod.mk.injEq] at hget
    obtain ⟨rfl, rfl⟩ := hget
    exact ⟨changes, hnew, hk⟩
  · rcases mem_concat.mp hn with hn | hn
    · exact hold.known n hn
    · rw [hn]
      simp [Runtime.noted]
  simp only [get?_putChanges]
  rcases mem_concat.mp hn with hn | rfl
  · obtain ⟨m, newer, hget, hle⟩ := hold.waiting n hn k change hcomm
    have hlt := h.known n hn
    cases hk : changes.get? k with
    | none => exact ⟨m, newer, by simpa [hk] using hget, hle⟩
    | some change' => exact ⟨s.commits.length, change', rfl, hlt.le⟩
  obtain ⟨commit, hcommit, hchg⟩ := hcomm
  rw [hnew, some.injEq] at hcommit
  subst hcommit
  exact ⟨s.commits.length, change, by rw [hchg]; rfl, le_refl _⟩

lemma WellFormed.enqueue (h : s.WellFormed) (changes : Table String (Change ρ)) :
    ((s.noted changes).enqueueCheckpoint s.commits.length changes).WellFormed := by
  refine ⟨fun c hc => ?_, h.written, h.behind⟩
  rcases mem_concat.mp hc with hc | hc
  · have hsound := (h.noted changes).sound c (mem_append_left _ hc)
    exact hsound.of_commits (fun _ _ => rfl) le_rfl
  · have hsound := h.pending.putChanges changes ((s.pending.getD {}).transactionCount + 1)
    rw [hc]
    exact hsound.of_commits (fun _ _ => rfl) le_rfl

lemma Held.noted (h : s.Held table₀) {changes : Table String (Change ρ)}
    (hempty : changes.size = 0) : (s.noted changes).Held table₀ := by
  have hnone : ∀ k, changes.get? k = none := by
    intro k
    rw [Table.get?, length_eq_zero_iff.mp hempty]
    rfl
  have hsame : ∀ k, (s.noted changes).committed.get? k = s.committed.get? k := by
    intro k
    rw [Runtime.noted, get?_putChanges, hnone]
    rfl
  refine ⟨fun k change hnewe => (hsame k).trans (h.newest k change hnewe), fun k hnewe => ?_⟩
  rw [expected, hsame]
  exact h.table k hnewe

lemma Held.enqueue (h : s.Held table₀) (changes : Table String (Change ρ)) :
    ((s.noted changes).enqueueCheckpoint s.commits.length changes).Held table₀ := by
  have hnewe : ∀ k, Lib.newest
      ((s.noted changes).enqueueCheckpoint s.commits.length changes).layers k =
      ((changes.get? k).map (s.commits.length, ·)).or (Lib.newest s.layers k) := by
    intro k
    rw [newest_layers, newest_layers s, ← Option.or_assoc]
    congr 1
    exact get?_putChanges ..
  have hcomm : ∀ k, (s.noted changes).committed.get? k =
      ((changes.get? k).map (s.commits.length, ·)).or (s.committed.get? k) :=
    fun k => get?_putChanges ..
  refine ⟨fun k change hk => ?_, fun k hk => ?_⟩
  · rw [hnewe] at hk
    refine (hcomm k).trans ?_
    cases hc : changes.get? k with
    | none =>
      rw [hc] at hk
      exact h.newest k change hk
    | some change' =>
      rw [hc] at hk
      exact hk
  rw [hnewe] at hk
  cases hc : changes.get? k with
  | none =>
    rw [hc] at hk
    refine (h.table k hk).trans ?_
    have hsame := hcomm k
    rw [hc] at hsame
    exact congrArg (fun o => Option.elim o (table₀.get? k) (fun change => change.2.effect))
      hsame.symm
  | some change' =>
    rw [hc] at hk
    cases hk

lemma WellFormed.commit (h : s.WellFormed) (changes : Table String (Change ρ)) (durable : Bool) :
    (s.commit changes durable).WellFormed := by
  unfold Runtime.commit
  split
  · split
    · exact h.noted changes
    · exact (h.noted changes).flush
  · split
    · exact (h.enqueue changes).flush
    · exact h.enqueue changes

lemma Held.commit (h : s.Held table₀) (changes : Table String (Change ρ)) (durable : Bool) :
    (s.commit changes durable).Held table₀ := by
  unfold Runtime.commit
  split
  · rename_i hempty
    split
    · exact h.noted hempty
    · exact (h.noted hempty).flush
  · split
    · exact (h.enqueue changes).flush
    · exact h.enqueue changes

variable {checkpoint : PendingCheckpoint ρ} {table : Table String ρ}

lemma WellFormed.of_phase (h : s.WellFormed) {p q : Phase}
    {rest : List (Flight ρ)} (hin : s.inFlight = ⟨checkpoint, p⟩ :: rest)
    (hwr : q = .written → ∀ k n change, checkpoint.changes.get? k = some (n, change) →
      table.get? k = change.effect) :
    ({ s with inFlight := ⟨checkpoint, q⟩ :: rest, table } : Runtime ρ).WellFormed := by
  refine ⟨fun c hc => ?_, fun checkpoint' rest' heq => ?_, fun f rest' heq => ?_⟩
  · refine (h.sound c ?_).of_commits (fun _ _ => rfl) le_rfl
    simpa [checkpoints, hin] using hc
  · obtain ⟨hfly, -⟩ := cons.inj heq
    rw [Flight.mk.injEq] at hfly
    rw [← hfly.1]
    exact hwr hfly.2
  · obtain ⟨-, rfl⟩ := cons.inj heq
    exact h.behind _ rest hin

lemma Held.of_phase (h : s.Held table₀) {p q : Phase}
    {rest : List (Flight ρ)} (hin : s.inFlight = ⟨checkpoint, p⟩ :: rest)
    (htable : ∀ k, checkpoint.changes.get? k = none → table.get? k = s.table.get? k) :
    ({ s with inFlight := ⟨checkpoint, q⟩ :: rest, table } : Runtime ρ).Held table₀ := by
  have hlayers : ({ s with inFlight := ⟨checkpoint, q⟩ :: rest, table } : Runtime ρ).layers =
      s.layers := by
    simp [layers, hin]
  refine ⟨fun k change hk => h.newest k change (hlayers ▸ hk), fun k hk => ?_⟩
  rw [hlayers] at hk
  have hnone : checkpoint.changes.get? k = none := by
    refine newest_eq_none_iff.mp hk checkpoint.changes ?_
    simp [layers, hin]
  exact (htable k hnone).trans (h.table k hk)

lemma WellFormed.attempt (h : s.WellFormed) (maxAttempts : Nat) (ok : Bool) :
    (s.attempt maxAttempts ok).WellFormed := by
  unfold Runtime.attempt
  split
  · rename_i checkpoint attempts rest hin
    split
    · exact h
    split
    · refine h.of_phase hin (fun _ k n change hget => ?_)
      rw [get?_writeChanges, hget]
      rfl
    · split <;> exact h.of_phase hin (fun hq => nomatch hq)
  · exact h

lemma Held.attempt (h : s.Held table₀) (maxAttempts : Nat) (ok : Bool) :
    (s.attempt maxAttempts ok).Held table₀ := by
  unfold Runtime.attempt
  split
  · rename_i checkpoint attempts rest hin
    split
    · exact h
    split
    · refine h.of_phase hin (fun k hnone => ?_)
      rw [get?_writeChanges, hnone]
      rfl
    · split <;> exact h.of_phase hin (fun _ _ => rfl)
  · exact h

lemma WellFormed.prepare (h : s.WellFormed) (ok : Bool) : (s.prepare ok).WellFormed := by
  unfold Runtime.prepare
  split
  · rename_i checkpoint attempts rest hin
    split
    · exact h
    split
    · exact ⟨fun c hc => (h.sound c hc).of_commits (fun _ _ => rfl) le_rfl, h.written, h.behind⟩
    · exact h.of_phase hin (fun hq => nomatch hq)
  · exact h

lemma Held.prepare (h : s.Held table₀) (ok : Bool) : (s.prepare ok).Held table₀ := by
  unfold Runtime.prepare
  split
  · rename_i checkpoint attempts rest hin
    split
    · exact h
    · split
      · exact ⟨h.newest, h.table⟩
      · exact h.of_phase hin (fun _ _ => rfl)
  · exact h

lemma WellFormed.rest (h : s.WellFormed) {f : Flight ρ} {rest : List (Flight ρ)}
    (hin : s.inFlight = f :: rest) :
    (∀ checkpoint rest', rest ≠ ⟨checkpoint, .written⟩ :: rest') ∧
      ∀ g rest', rest = g :: rest' → ∀ g' ∈ rest', ∃ a, g'.phase = .running a := by
  refine ⟨?_, ?_⟩
  · rintro checkpoint rest' rfl
    obtain ⟨a, ha⟩ := h.behind f _ hin ⟨checkpoint, .written⟩ (by simp)
    cases ha
  · rintro g rest' rfl g' hg'
    exact h.behind f _ hin g' (by simp [hg'])

lemma WellFormed.react (h : s.WellFormed) : s.react.WellFormed := by
  unfold Runtime.react
  split
  · rename_i checkpoint rest hin
    obtain ⟨hwr, hbeh⟩ := h.rest hin
    refine ⟨fun c hc => ?_, fun c rest' heq => absurd heq (hwr c rest'), hbeh⟩
    refine (h.sound c ?_).of_commits (fun _ _ => rfl) le_rfl
    rw [checkpoints, hin]
    exact mem_cons_of_mem _ hc
  · rename_i checkpoint rest hin
    obtain ⟨hwr, hbeh⟩ := h.rest hin
    refine ⟨fun c hc => ?_, fun c rest' heq => absurd heq (hwr c rest'), hbeh⟩
    rcases mem_append.mp hc with hc | hc
    · refine (h.sound c ?_).of_commits (fun _ _ => rfl) le_rfl
      rw [checkpoints, hin]
      exact mem_append_left _ (mem_cons_of_mem _ hc)
    have hfail : s.Sound checkpoint := h.sound checkpoint (by simp [checkpoints, hin])
    rw [mem_singleton.mp hc]
    refine ⟨fun k n change hget => ?_, h.pending.known, fun n hn k change hcomm => ?_⟩
    · rw [get?_putMissing] at hget
      rcases or_eq_some_iff.mp hget with hget | ⟨-, hget⟩
      · exact h.pending.numbered k n change hget
      · exact hfail.numbered k n change hget
    · obtain ⟨m, newer, hget, hle⟩ := h.pending.waiting n hn k change hcomm
      exact ⟨m, newer, by rw [get?_putMissing, hget]; rfl, hle⟩
  · exact h

lemma Held.react (h : s.Held table₀) (hform : s.WellFormed) (hkeeps : s.KeepsNewest .react) :
    s.react.Held table₀ := by
  unfold Runtime.react
  split
  · rename_i checkpoint rest hin
    have hnewe : ∀ k, Lib.newest s.layers k =
        (Lib.newest ({ s with inFlight := rest } : Runtime ρ).layers k).or
          (checkpoint.changes.get? k) := by
      intro k
      simp only [layers, hin, map_cons, cons_append, newest_cons]
    refine ⟨fun k change hk => h.newest k change ?_, fun k hk => ?_⟩
    · rw [hnewe]
      exact or_eq_some_iff.mpr (.inl hk)
    have htop := hnewe k
    rw [show Lib.newest ({ s with inFlight := rest } : Runtime ρ).layers k = none from hk,
      none_or] at htop
    cases hget : checkpoint.changes.get? k with
    | none => exact h.table k (htop.trans hget)
    | some entry =>
    -- The key's last committed change was written by this checkpoint.
    obtain ⟨n, change⟩ := entry
    have hcomm := h.newest k (n, change) (htop.trans hget)
    refine (hform.written checkpoint rest hin k n change hget).trans ?_
    simp only [expected, hcomm, elim_some]
  · rename_i checkpoint rest hin
    have hnewe : ∀ k, Lib.newest ({ s with
        pending := s.requeue checkpoint, inFlight := rest } : Runtime ρ).layers k =
        Lib.newest s.layers k := by
      intro k
      rw [newest_layers, newest_layers s, hin, map_cons, newest_cons]
      change ((putMissing checkpoint.changes (s.pending.getD {}).changes).get? k).or _ = _
      rw [get?_putMissing]
      cases hp : (s.pending.getD {}).changes.get? k with
      | some entry => rfl
      | none =>
      cases hget : checkpoint.changes.get? k with
      | none => simp
      | some entry =>
      have hrest : Lib.newest (rest.map (·.checkpoint.changes)) k = none := by
        refine newest_eq_none_iff.mpr (fun t ht => ?_)
        obtain ⟨f, hf, rfl⟩ := mem_map.mp ht
        exact hkeeps checkpoint rest hin k (by simp [hget]) hp f hf
      simp [hrest]
    exact ⟨fun k change hk => h.newest k change (hnewe k ▸ hk),
      fun k hk => h.table k (hnewe k ▸ hk)⟩
  · exact h

end Steps

section Runs

variable {s : Runtime ρ} {table₀ : Table String ρ}

lemma WellFormed.step (h : s.WellFormed) (getKey : ρ → String) (maxAttempts : Nat)
    (input : Input ρ) : (step getKey maxAttempts s input).WellFormed := by
  cases input with
  | commit writes durable => exact h.commit _ durable
  | flush => exact h.flush
  | timer =>
    unfold Runtime.step
    dsimp only
    split
    · exact h.flush
    · exact h
  | prepare ok => exact h.prepare ok
  | attempt ok => exact h.attempt maxAttempts ok
  | react => exact h.react

lemma Held.step (h : s.Held table₀) (hform : s.WellFormed) (getKey : ρ → String)
    (maxAttempts : Nat) (input : Input ρ) (hkeeps : s.KeepsNewest input) :
    (step getKey maxAttempts s input).Held table₀ := by
  cases input with
  | commit writes durable => exact h.commit _ durable
  | flush => exact h.flush
  | timer =>
    unfold Runtime.step
    dsimp only
    split
    · exact h.flush
    · exact h
  | prepare ok => exact h.prepare ok
  | attempt ok => exact h.attempt maxAttempts ok
  | react => exact h.react hform hkeeps

lemma WellFormed.resolves (h : s.WellFormed) (getKey : ρ → String) (maxAttempts : Nat)
    {input : Input ρ} {n : Nat} (hnew : n ∈ (Runtime.step getKey maxAttempts s input).resolved)
    (hold : n ∉ s.resolved) {k : String} {change : Change ρ} (hcomm : s.Committed n k change) :
    ∃ m newer, n ≤ m ∧ s.Committed m k newer ∧ s.table.get? k = newer.effect := by
  have hflush : n ∉ s.flushPendingCheckpoint.resolved := by
    rw [flush_fields.2.2.2]
    exact hold
  cases input with
  | commit writes durable =>
    refine absurd hnew ?_
    simp only [Runtime.step, Runtime.commit]
    split
    · split
      · exact hold
      · rw [flush_fields.2.2.2]
        exact hold
    split
    · rw [flush_fields.2.2.2]
      exact hold
    · exact hold
  | flush => exact absurd hnew hflush
  | timer =>
    refine absurd hnew ?_
    simp only [Runtime.step]
    split
    · exact hflush
    · exact hold
  | prepare ok =>
    refine absurd hnew ?_
    simp only [Runtime.step, Runtime.prepare]
    split
    · split
      · exact hold
      · split <;> exact hold
    · exact hold
  | attempt ok =>
    refine absurd hnew ?_
    simp only [Runtime.step, Runtime.attempt]
    split
    · split
      · exact hold
      · split
        · exact hold
        · split <;> exact hold
    · exact hold
  | react =>
  simp only [Runtime.step, Runtime.react] at hnew
  split at hnew
  · rename_i checkpoint rest hin
    have hwaits : n ∈ checkpoint.waiters := (mem_append.mp hnew).resolve_left hold
    have hsound : s.Sound checkpoint := h.sound checkpoint (by simp [checkpoints, hin])
    obtain ⟨m, newer, hget, hle⟩ := hsound.waiting n hwaits k change hcomm
    exact ⟨m, newer, hle, hsound.numbered k m newer hget, h.written checkpoint rest hin k m newer hget⟩
  · exact absurd hnew hold
  · exact absurd hnew hold

end Runs

def start (table₀ : Table String ρ) : Runtime ρ := { table := table₀ }

lemma wellFormed_start (table₀ : Table String ρ) : (start table₀).WellFormed := by
  refine ⟨fun c hc => ?_, fun _ _ h => ?_, fun _ _ h => ?_⟩
  · cases hc
  · cases h
  · cases h

lemma held_start (table₀ : Table String ρ) : (start table₀).Held table₀ :=
  ⟨fun _ _ h => (nomatch h), fun _ _ => rfl⟩

/-- What the checkpoints promise: a table without any is as last committed. -/
structure LosesNone (getKey : ρ → String) (maxAttempts : Nat) (table₀ : Table String ρ)
    (s : Runtime ρ) : Prop where
  quiet : s.pending = none → s.inFlight = [] → ∀ k, s.table.get? k = s.expected table₀ k
  resolves : ∀ input n, n ∈ (step getKey maxAttempts s input).resolved → n ∉ s.resolved →
    ∀ k change, s.Committed n k change →
      ∃ m newer, n ≤ m ∧ s.Committed m k newer ∧ s.table.get? k = newer.effect

/-- In every state that is reached without putting a failed checkpoint back over a newer one
in flight, no update is lost. -/
theorem losesNone_of_keepsNewest (getKey : ρ → String) (maxAttempts : Nat)
    (table₀ : Table String ρ) (inputs : List (Input ρ))
    (hrun : Always (step getKey maxAttempts) KeepsNewest (start table₀) inputs) :
    LosesNone getKey maxAttempts table₀ (exec (step getKey maxAttempts) (start table₀) inputs) := by
  have hinv : (exec (step getKey maxAttempts) (start table₀) inputs).WellFormed ∧
      (exec (step getKey maxAttempts) (start table₀) inputs).Held table₀ :=
    exec_invariant_of_always (P := fun s => s.WellFormed ∧ s.Held table₀)
      (fun _ i h hq => ⟨h.1.step getKey maxAttempts i, h.2.step h.1 getKey maxAttempts i hq⟩)
      ⟨wellFormed_start table₀, held_start table₀⟩ hrun
  refine ⟨fun hpend hin k => hinv.2.table k ?_, fun input n hnew hold k change hcomm =>
    hinv.1.resolves getKey maxAttempts hnew hold hcomm⟩
  rw [layers, hin, hpend]
  rfl

/-- Two rows are committed, and the first checkpoint is written. -/
theorem losesNone_of_two_commits :
    LosesNone id 3 ∅ (exec (step id 3) (start ∅)
      [.commit [.insert "a"] true, .commit [.insert "b"] true, .prepare true, .attempt true, .react]) := by
  have hphase : ((exec (step id 3) (start ∅) [.commit [.insert "a"] true,
      .commit [.insert "b"] true, .prepare true, .attempt true]).inFlight.head?).map Flight.phase =
      some .written := by decide
  have hrun : Always (step id 3) KeepsNewest (start ∅)
      [.commit [.insert "a"] true, .commit [.insert "b"] true, .prepare true, .attempt true,
        .react] := by
    refine ⟨trivial, trivial, trivial, trivial, fun checkpoint rest hin => ?_, trivial⟩
    have hfail := congrArg (fun l => (head? l).map Flight.phase) hin
    exact absurd (hphase.symm.trans hfail) (by simp)
  exact losesNone_of_keepsNewest id 3 ∅ _ hrun

/-- Two changes of one key are in flight, and the first checkpoint is put back. -/
theorem failed_checkpoint_overwrites_newer :
    ¬ ∀ (getKey : String → String) (maxAttempts : Nat) (table₀ : Table String String)
      (inputs : List (Input String)),
      LosesNone getKey maxAttempts table₀ (exec (step getKey maxAttempts) (start table₀) inputs) := by
  intro h
  have hquiet := (h (fun _ => "k") 1 ∅ [.commit [.insert "old"] true, .commit [.update "new"] true,
    .prepare true, .attempt false, .react, .attempt true, .react, .flush, .attempt true,
    .react]).quiet (by decide) (by decide) "k"
  exact absurd hquiet (by decide)

end Runtime

end CodeWide.Sqlite
