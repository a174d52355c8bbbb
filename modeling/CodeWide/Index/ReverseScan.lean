import CodeWide.Index.Records
import Mathlib.Data.List.Infix
import Mathlib.Data.List.Nodup
import Mathlib.Data.List.Sort
import Mathlib.Data.List.TakeWhile

/-!
# The reverse scan for boundary records

`agent-index/src/scan.rs` and `read_line_at` of `file.rs`: a match of a needle in a block, read with
an overlap, leads to the line around it.
-/

namespace CodeWide.Index.ReverseScan

open List

variable {κ β ε σ : Type}

/-- `memmem::find_iter` in a text at `start`; a match hides those that overlap it. -/
def findIter (needle : List UInt8) : Nat → Nat → List UInt8 → List Nat
  | _, _, [] => []
  | start, skip + 1, _ :: rest => findIter needle (start + 1) skip rest
  | start, 0, b :: rest =>
    if needle <+: b :: rest then start :: findIter needle (start + 1) (needle.length - 1) rest
    else findIter needle (start + 1) 0 rest

/-- The searched part of a file. -/
structure Range where
  file : List UInt8
  searchEnd : Nat
  stopOffset : Nat
  blockBytes : Nat
  blockBytes_pos : 0 < blockBytes

namespace Range

variable (r : Range)

def findLineStart (inside : Nat) : Nat :=
  inside - ((r.file.take inside).reverse.takeWhile (· != 10)).length

def findLineEnd (inside : Nat) : Nat :=
  min r.searchEnd (inside + ((r.file.drop inside).takeWhile (· != 10)).length + 1)

def readLineAt (inside : Nat) : Nat × List UInt8 :=
  (r.findLineStart inside,
    (r.file.drop (r.findLineStart inside)).take (r.findLineEnd inside - r.findLineStart inside))

/-- The blocks from `position` down. -/
def cores (position : Nat) : List (Nat × Nat) :=
  if r.stopOffset < position then
    (max (position - r.blockBytes) r.stopOffset, position) ::
      cores (max (position - r.blockBytes) r.stopOffset)
  else []
termination_by position
decreasing_by
  have := r.blockBytes_pos
  omega

def buffer (needles : List (List UInt8 × κ)) (core : Nat × Nat) : List UInt8 :=
  (r.file.drop core.1).take
    (min r.searchEnd (core.2 + ((needles.map (·.1.length)).max?.getD 0 - 1)) - core.1)

def blockMatches (needles : List (List UInt8 × κ)) (core : Nat × Nat) : List (Nat × κ) :=
  ((needles.flatMap fun n => (findIter n.1 core.1 0 (r.buffer needles core)).map (·, n.2)).filter
    fun m => decide (core.1 ≤ m.1 ∧ m.1 < core.2)).insertionSort fun a b => b.1 ≤ a.1

end Range

/-- What the visitor is called with. -/
structure Visit (β : Type) where
  startOffset : Nat
  endOffset : Nat
  found : β
  deriving DecidableEq

/-- What a match of a needle of some kind shows in its line. -/
abbrev Answer (κ β ε : Type) := κ → List UInt8 → Nat → Except ε (Option β)

def visitAt (r : Range) (answer : Answer κ β ε) (m : Nat × κ) : Except ε (Option (Visit β)) :=
  let (start, line) := r.readLineAt m.1
  if start < r.stopOffset then .ok none
  else (answer m.2 line start).map (Option.map (⟨start, start + line.length, ·⟩))

def visitMatches (r : Range) (answer : Answer κ β ε) (visit : σ → Visit β → σ × Bool) :
    List (Nat × κ) → σ → Except ε (σ × Bool)
  | [], s => .ok (s, true)
  | m :: rest, s =>
    match visitAt r answer m with
    | .error e => .error e
    | .ok none => visitMatches r answer visit rest s
    | .ok (some v) =>
      match visit s v with
      | (s, true) => visitMatches r answer visit rest s
      | (s, false) => .ok (s, false)

/-- The visitor's last state and the bytes scanned. -/
def visitCores (r : Range) (needles : List (List UInt8 × κ)) (answer : Answer κ β ε)
    (visit : σ → Visit β → σ × Bool) : List (Nat × Nat) → σ → Nat → Except ε (σ × Nat)
  | [], s, scanned => .ok (s, scanned)
  | core :: rest, s, scanned =>
    match visitMatches r answer visit (r.blockMatches needles core) s with
    | .error e => .error e
    | .ok (s, false) => .ok (s, scanned + (core.2 - core.1))
    | .ok (s, true) => visitCores r needles answer visit rest s (scanned + (core.2 - core.1))

def scanReverse (r : Range) (needles : List (List UInt8 × κ)) (answer : Answer κ β ε)
    (visit : σ → Visit β → σ × Bool) (s : σ) : Except ε (σ × Nat) :=
  visitCores r needles answer visit (r.cores r.searchEnd) s 0

structure Source (ε : Type) where
  boundaryNeedles : List (List UInt8)
  boundary : List UInt8 → Nat → Except ε (Option Boundary)
  standaloneNeedle : Option (List UInt8)
  standaloneTurn : List UInt8 → Option String
  nonempty : ∀ n ∈ boundaryNeedles ++ standaloneNeedle.toList, n ≠ []

inductive TimelineNeedle where
  | turn
  | standalone

inductive TimelineBoundary where
  | turn (boundary : Boundary)
  | standalone (turn : TurnRef)

namespace Source

variable (source : Source ε)

def boundaryOf (line : List UInt8) (offset : Nat) : Except ε (Option Boundary) :=
  if source.boundaryNeedles.any (fun n => decide (n <:+: line)) then source.boundary line offset
  else .ok none

def boundaryKinds : List (List UInt8 × Unit) := source.boundaryNeedles.map (·, ())

def visitBoundariesReverse (r : Range) : (σ → Visit Boundary → σ × Bool) → σ → Except ε (σ × Nat) :=
  scanReverse r source.boundaryKinds fun _ => source.boundaryOf

def timelineKinds : List (List UInt8 × TimelineNeedle) :=
  source.boundaryNeedles.map (·, .turn) ++ source.standaloneNeedle.toList.map (·, .standalone)

def timelineAnswer : Answer TimelineNeedle TimelineBoundary ε
  | .turn, line, offset => (source.boundaryOf line offset).map (Option.map .turn)
  | .standalone, line, offset =>
    .ok ((source.standaloneTurn line).map fun id =>
      .standalone ⟨id, offset, offset + line.length, true⟩)

def visitTimelineBoundariesReverse (r : Range) :
    (σ → Visit TimelineBoundary → σ × Bool) → σ → Except ε (σ × Nat) :=
  scanReverse { r with stopOffset := 0 } source.timelineKinds source.timelineAnswer

end Source

/-- What a record holds before its newline. -/
abbrev Body := { b : List UInt8 // 10 ∉ b }

def line (body : Body) : List UInt8 := body.1 ++ [10]

/-- A file whose searched part, like what is before it, consists of whole records. -/
structure Layout where
  older : List Body
  newer : List Body
  after : List UInt8
  blockBytes : Nat
  blockBytes_pos : 0 < blockBytes

namespace Layout

variable (l : Layout)

def stop : Nat := (l.older.flatMap line).length

def range : Range where
  file := (l.older ++ l.newer).flatMap line ++ l.after
  searchEnd := ((l.older ++ l.newer).flatMap line).length
  stopOffset := l.stop
  blockBytes := l.blockBytes
  blockBytes_pos := l.blockBytes_pos

def whole : Layout := { l with older := [], newer := l.older ++ l.newer }

def IsRecord (p : Nat × List UInt8) : Prop :=
  ∃ front body back, l.newer = front ++ body :: back ∧
    p = (((l.older ++ front).flatMap line).length, line body)

end Layout

lemma findIter_sound {needle text : List UInt8} {start skip q : Nat}
    (h : q ∈ findIter needle start skip text) :
    start ≤ q ∧ needle <+: text.drop (q - start) := by
  fun_induction findIter needle start skip text with
  | case1 => cases h
  | case2 start skip b rest ih =>
    obtain ⟨hle, hprefix⟩ := ih h
    rw [show q - start = q - (start + 1) + 1 by omega]
    exact ⟨by omega, hprefix⟩
  | case3 start b rest hmatch ih =>
    rcases mem_cons.mp h with rfl | h
    · exact ⟨le_rfl, by rwa [Nat.sub_self]⟩
    obtain ⟨hle, hprefix⟩ := ih h
    rw [show q - start = q - (start + 1) + 1 by omega]
    exact ⟨by omega, hprefix⟩
  | case4 start b rest hmatch ih =>
    obtain ⟨hle, hprefix⟩ := ih h
    rw [show q - start = q - (start + 1) + 1 by omega]
    exact ⟨by omega, hprefix⟩

lemma findIter_complete {needle text : List UInt8} {start skip p : Nat} (hneedle : needle ≠ [])
    (hp : start + skip ≤ p) (h : needle <+: text.drop (p - start)) :
    ∃ q ∈ findIter needle start skip text, q ≤ p ∧ p < q + needle.length := by
  have hpos := length_pos_iff.mpr hneedle
  fun_induction findIter needle start skip text with
  | case1 =>
    rw [drop_nil] at h
    exact absurd (prefix_nil.mp h) hneedle
  | case2 start skip b rest ih =>
    rw [show p - start = p - (start + 1) + 1 by omega] at h
    exact ih (by omega) h
  | case3 start b rest hmatch ih =>
    by_cases hnear : p < start + needle.length
    · exact ⟨start, mem_cons_self, by omega, hnear⟩
    rw [show p - start = p - (start + 1) + 1 by omega] at h
    obtain ⟨q, hq, hwithin⟩ := ih (by omega) h
    exact ⟨q, mem_cons_of_mem _ hq, hwithin⟩
  | case4 start b rest hmatch ih =>
    rcases Nat.eq_or_lt_of_le hp with rfl | hlt
    · rw [Nat.add_zero, Nat.sub_self] at h
      exact absurd h hmatch
    rw [show p - start = p - (start + 1) + 1 by omega] at h
    exact ih (by omega) h

section

variable {r : Range} {needles : List (List UInt8 × κ)}

lemma mem_blockMatches {core : Nat × Nat} {m : Nat × κ} :
    m ∈ r.blockMatches needles core ↔
      (∃ n ∈ needles, n.2 = m.2 ∧ m.1 ∈ findIter n.1 core.1 0 (r.buffer needles core)) ∧
        core.1 ≤ m.1 ∧ m.1 < core.2 := by
  obtain ⟨q, k⟩ := m
  simp only [Range.blockMatches, mem_insertionSort, mem_filter, mem_flatMap, mem_map,
    Prod.mk.injEq, decide_eq_true_eq]
  constructor
  · rintro ⟨⟨n, hn, _, hq, rfl, rfl⟩, hcore⟩
    exact ⟨⟨n, hn, rfl, hq⟩, hcore⟩
  · rintro ⟨⟨n, hn, rfl, hq⟩, hcore⟩
    exact ⟨⟨n, hn, q, hq, rfl, rfl⟩, hcore⟩

variable (r needles) in
/-- The matches of all blocks, the last one first. -/
def Range.matches : List (Nat × κ) := (r.cores r.searchEnd).flatMap (r.blockMatches needles)

lemma cores_within {position : Nat} {core : Nat × Nat} (h : core ∈ r.cores position) :
    r.stopOffset ≤ core.1 ∧ core.2 ≤ position := by
  fun_induction Range.cores r position with
  | case1 position hmore ih =>
    rcases mem_cons.mp h with rfl | h
    · exact ⟨le_max_right _ _, le_rfl⟩
    · have := ih h
      omega
  | case2 => cases h

lemma exists_core {position p : Nat} (hstop : r.stopOffset ≤ p) (hp : p < position) :
    ∃ core ∈ r.cores position, core.1 ≤ p ∧ p < core.2 := by
  fun_induction Range.cores r position with
  | case1 position hmore ih =>
    by_cases hbefore : p < max (position - r.blockBytes) r.stopOffset
    · obtain ⟨core, hcore, hwithin⟩ := ih hbefore
      exact ⟨core, mem_cons_of_mem _ hcore, hwithin⟩
    · exact ⟨_, mem_cons_self, by omega, hp⟩
  | case2 position hnone => omega

lemma match_within {position : Nat} {m : Nat × κ}
    (h : m ∈ (r.cores position).flatMap (r.blockMatches needles)) :
    r.stopOffset ≤ m.1 ∧ m.1 < position := by
  obtain ⟨core, hcore, hm⟩ := mem_flatMap.mp h
  have := cores_within hcore
  have := (mem_blockMatches.mp hm).2
  omega

lemma matches_descending : (r.matches needles).Pairwise fun a b => b.1 ≤ a.1 := by
  unfold Range.matches
  fun_induction Range.cores r r.searchEnd with
  | case1 position hmore ih =>
    rw [flatMap_cons]
    refine pairwise_append.mpr ⟨?_, ih, fun a ha b hb => ?_⟩
    · have : Std.Total fun a b : Nat × κ => b.1 ≤ a.1 := ⟨fun a b => Nat.le_total b.1 a.1⟩
      have : IsTrans (Nat × κ) fun a b => b.1 ≤ a.1 := ⟨fun _ _ _ hab hbc => hbc.trans hab⟩
      exact pairwise_insertionSort _ _
    · exact (match_within hb).2.le.trans (mem_blockMatches.mp ha).2.1
  | case2 => exact .nil

end

lemma lines_end (bodies : List Body) :
    bodies.flatMap line = [] ∨ ∃ z, bodies.flatMap line = z ++ [10] := by
  rcases eq_nil_or_concat' bodies with rfl | ⟨init, body, rfl⟩
  · exact .inl rfl
  · exact .inr ⟨init.flatMap line ++ body.1, by simp [line]⟩

lemma takeWhile_body {part : List UInt8} (h : 10 ∉ part) (rest : List UInt8) :
    (part ++ rest).takeWhile (· != 10) = part ++ rest.takeWhile (· != 10) :=
  takeWhile_append_of_pos fun _ hb => bne_iff_ne.mpr fun heq => h (heq ▸ hb)

lemma exists_line (bodies : List Body) {q : Nat}
    (hq : q < (bodies.flatMap line).length) : ∃ front body back, bodies = front ++ body :: back ∧
      (front.flatMap line).length ≤ q ∧ q < (front.flatMap line).length + (line body).length := by
  induction bodies generalizing q with
  | nil => exact absurd hq (Nat.not_lt_zero q)
  | cons body rest ih =>
    rw [flatMap_cons, length_append] at hq
    by_cases hhere : q < (line body).length
    · exact ⟨[], body, rest, rfl, Nat.zero_le q, by simpa using hhere⟩
    obtain ⟨front, b, back, rfl, hle, hlt⟩ := ih (q := q - (line body).length) (by omega)
    refine ⟨body :: front, b, back, rfl, ?_⟩
    rw [flatMap_cons, length_append]
    omega

namespace Layout

variable {l : Layout} {p : Nat × List UInt8}

lemma record_bytes (hp : l.IsRecord p) : ∃ body pre post, 10 ∉ body ∧ p = (pre.length, body ++ [10]) ∧
    l.range.file = pre ++ (body ++ 10 :: post) ∧ (pre = [] ∨ ∃ z, pre = z ++ [10]) ∧
    l.stop ≤ pre.length ∧ pre.length + (body.length + 1) ≤ l.range.searchEnd := by
  obtain ⟨front, body, back, hnewer, rfl⟩ := hp
  refine ⟨body.1, (l.older ++ front).flatMap line, back.flatMap line ++ l.after, body.2, rfl,
    by simp [range, hnewer, line], lines_end _, ?_, ?_⟩
  · simp [stop]
  · simp [range, hnewer, line]
    omega

lemma readLineAt_eq (hp : l.IsRecord p) {q : Nat} (hle : p.1 ≤ q) (hlt : q < p.1 + p.2.length) :
    l.range.readLineAt q = p := by
  obtain ⟨body, pre, post, hplain, rfl, hfile, hborder, -, hsearch⟩ := record_bytes hp
  obtain ⟨k, rfl⟩ := Nat.exists_eq_add_of_le hle
  have hk : k ≤ body.length := by
    simp only [length_append, length_singleton] at hlt
    omega
  have hstart : l.range.findLineStart (pre.length + k) = pre.length := by
    have hstop : pre.reverse.takeWhile (· != 10) = [] := by
      rcases hborder with rfl | ⟨z, rfl⟩
      · rfl
      · rw [reverse_concat, takeWhile_cons_of_neg (by simp)]
    rw [Range.findLineStart, hfile, take_length_add_append, take_append_of_le_length hk,
      reverse_append, takeWhile_body fun h => hplain (mem_of_mem_take (mem_reverse.mp h)),
      hstop, append_nil, length_reverse, length_take]
    omega
  have hend : l.range.findLineEnd (pre.length + k) = pre.length + (body.length + 1) := by
    rw [Range.findLineEnd, hfile, drop_length_add_append, drop_append_of_le_length hk,
      takeWhile_body fun h => hplain (mem_of_mem_drop h), takeWhile_cons_of_neg (by simp),
      append_nil, length_drop]
    omega
  rw [Range.readLineAt, hstart, hend, hfile, drop_left, Nat.add_sub_cancel_left, append_cons,
    take_left' (by rw [length_append, length_singleton])]

lemma exists_record {q : Nat} (hstop : l.stop ≤ q) (hq : q < l.range.searchEnd) :
    ∃ p, l.IsRecord p ∧ p.1 ≤ q ∧ q < p.1 + p.2.length := by
  have hend : l.range.searchEnd = l.stop + (l.newer.flatMap line).length := by simp [range, stop]
  obtain ⟨front, body, back, hnewer, hle, hlt⟩ := exists_line l.newer (q := q - l.stop) (by omega)
  refine ⟨_, ⟨front, body, back, hnewer, rfl⟩, ?_⟩
  rw [stop] at hend hle hlt hstop
  simp only [flatMap_append, length_append]
  omega

lemma record_within (hp : l.IsRecord p) : l.stop ≤ p.1 ∧ p.1 + p.2.length ≤ l.range.searchEnd ∧
    0 < p.2.length := by
  obtain ⟨body, pre, post, -, rfl, -, -, hstop, hend⟩ := record_bytes hp
  rw [length_append, length_singleton]
  exact ⟨hstop, hend, Nat.succ_pos _⟩

variable {p' : Nat × List UInt8}

lemma record_eq (hp : l.IsRecord p) (hp' : l.IsRecord p') (hle : p.1 ≤ p'.1)
    (hlt : p'.1 < p.1 + p.2.length) : p' = p :=
  (readLineAt_eq hp' le_rfl (Nat.lt_add_of_pos_right (record_within hp').2.2)).symm.trans
    (readLineAt_eq hp hle hlt)

lemma record_mono (hp : l.IsRecord p) (hp' : l.IsRecord p') {q q' : Nat}
    (hlt : q < p.1 + p.2.length) (hle : p'.1 ≤ q') (h : q' ≤ q) : p'.1 ≤ p.1 := by
  by_contra hnot
  exact hnot (record_eq hp hp' (by omega) (by omega) ▸ le_rfl)

end Layout

/-- A visitor that takes every visit. -/
def collect (visits : List (Visit β)) (v : Visit β) : List (Visit β) × Bool := (visits ++ [v], true)

/-- The visit of a match, if its line shows something. -/
def shown (r : Range) (answer : Answer κ β ε) (m : Nat × κ) : Option (Visit β) :=
  match visitAt r answer m with
  | .ok v => v
  | .error _ => none

lemma visitMatches_collect (r : Range) (answer : Answer κ β ε) (ms : List (Nat × κ))
    (visits : List (Visit β)) :
    (∃ e, visitMatches r answer collect ms visits = .error e ∧ ∃ m ∈ ms, visitAt r answer m = .error e) ∨
      visitMatches r answer collect ms visits = .ok (visits ++ ms.filterMap (shown r answer), true) := by
  induction ms generalizing visits with
  | nil => exact .inr (by simp [visitMatches])
  | cons m rest ih =>
    rw [visitMatches]
    cases hat : visitAt r answer m with
    | error e => exact .inl ⟨e, rfl, m, mem_cons_self, hat⟩
    | ok v =>
      have hshown : shown r answer m = v := by rw [shown, hat]
      cases v with
      | none =>
        rw [filterMap_cons_none hshown]
        exact (ih visits).imp_left fun ⟨e, h, x, hx, hxe⟩ => ⟨e, h, x, mem_cons_of_mem _ hx, hxe⟩
      | some v =>
        rw [filterMap_cons_some hshown, append_cons]
        exact (ih _).imp_left fun ⟨e, h, x, hx, hxe⟩ => ⟨e, h, x, mem_cons_of_mem _ hx, hxe⟩

lemma visitCores_collect (r : Range) (needles : List (List UInt8 × κ)) (answer : Answer κ β ε)
    (cores : List (Nat × Nat)) (visits : List (Visit β)) (scanned : Nat) :
    (∃ e, visitCores r needles answer collect cores visits scanned = .error e ∧
      ∃ m ∈ cores.flatMap (r.blockMatches needles), visitAt r answer m = .error e) ∨
      ∃ n, visitCores r needles answer collect cores visits scanned =
        .ok (visits ++ (cores.flatMap (r.blockMatches needles)).filterMap (shown r answer), n) := by
  induction cores generalizing visits scanned with
  | nil => exact .inr ⟨scanned, by simp [visitCores]⟩
  | cons core rest ih =>
    rw [visitCores, flatMap_cons, filterMap_append, ← append_assoc]
    rcases visitMatches_collect r answer (r.blockMatches needles core) visits with
      ⟨e, h, m, hm, hme⟩ | h
    · rw [h]
      exact .inl ⟨e, rfl, m, mem_append_left _ hm, hme⟩
    · rw [h]
      exact (ih _ _).imp_left fun ⟨e, h, m, hm, hme⟩ => ⟨e, h, m, mem_append_right _ hm, hme⟩

/-- The visits come down the file, one for each record that carries something. -/
structure EachOnce (l : Layout) (needles : List (List UInt8 × κ)) (answer : Answer κ β ε)
    (visits : List (Visit β)) : Prop where
  descending : (visits.map Visit.startOffset).Pairwise (· > ·)
  sound : ∀ v ∈ visits, ∃ p, l.IsRecord p ∧ v.startOffset = p.1 ∧
    v.endOffset = p.1 + p.2.length ∧ ∃ k, answer k p.2 p.1 = .ok (some v.found)
  complete : ∀ p, l.IsRecord p → ∀ n ∈ needles, n.1 <:+: p.2 → ∀ found,
    answer n.2 p.2 p.1 = .ok (some found) → p.1 ∈ visits.map Visit.startOffset

def answers (answer : Answer κ β ε) (p : Nat × List UInt8) (k : κ) : Bool :=
  match answer k p.2 p.1 with
  | .ok (some _) => true
  | _ => false

/-- No record that carries something holds a second match. -/
def OneMatch (l : Layout) (needles : List (List UInt8 × κ)) (answer : Answer κ β ε) : Prop :=
  ∀ p, l.IsRecord p → (l.range.matches needles).countP (fun m =>
    decide (p.1 ≤ m.1 ∧ m.1 < p.1 + p.2.length) && answers answer p m.2) ≤ 1

section

variable {l : Layout} {needles : List (List UInt8 × κ)} {answer : Answer κ β ε}
  {p : Nat × List UInt8}

lemma visitAt_eq (hp : l.IsRecord p) {m : Nat × κ} (hm : p.1 ≤ m.1 ∧ m.1 < p.1 + p.2.length) :
    visitAt l.range answer m =
      (answer m.2 p.2 p.1).map (Option.map (⟨p.1, p.1 + p.2.length, ·⟩)) := by
  rw [visitAt, Layout.readLineAt_eq hp hm.1 hm.2]
  exact if_neg (Nat.not_lt.mpr (Layout.record_within hp).1)

/-- A match of a needle that a record holds starts in the record. -/
lemma exists_match (hp : l.IsRecord p) {n : List UInt8 × κ} (hn : n ∈ needles) (hne : n.1 ≠ [])
    (h : n.1 <:+: p.2) : ∃ m ∈ l.range.matches needles,
      m.2 = n.2 ∧ p.1 ≤ m.1 ∧ m.1 < p.1 + p.2.length := by
  obtain ⟨body, pre, post, hplain, rfl, hfile, hborder, hstop, hend⟩ := Layout.record_bytes hp
  obtain ⟨x, y, hline⟩ : n.1 <:+: body ++ [10] := h
  have hlength := congrArg length hline
  simp only [length_append, length_singleton] at hlength
  have hpos := length_pos_iff.mpr hne
  obtain ⟨core, hcore, hle, hlt⟩ : ∃ core ∈ l.range.cores l.range.searchEnd,
      core.1 ≤ pre.length + x.length ∧ pre.length + x.length < core.2 :=
    exists_core (hstop.trans (Nat.le_add_right _ _)) (by omega)
  have hoverlap : n.1.length ≤ (needles.map (·.1.length)).max?.getD 0 :=
    le_max?_getD_of_mem (mem_map_of_mem hn)
  have hthere : n.1 <+: (l.range.buffer needles core).drop (pre.length + x.length - core.1) := by
    rw [Range.buffer, drop_take, drop_drop, prefix_take_iff, Nat.add_sub_cancel' hle, hfile,
      append_cons, ← hline, drop_length_add_append, append_assoc, append_assoc, drop_left]
    exact ⟨prefix_append _ _, by omega⟩
  obtain ⟨q, hq, hqle, hqlt⟩ := findIter_complete hne (Nat.add_zero core.1 ▸ hle) hthere
  obtain ⟨hfrom, hhere⟩ := findIter_sound hq
  refine ⟨(q, n.2), mem_flatMap.mpr ⟨core, hcore, mem_blockMatches.mpr
    ⟨⟨n, hn, rfl, hq⟩, hfrom, hqle.trans_lt hlt⟩⟩, rfl, ?_, ?_⟩
  · by_contra hbefore
    -- Otherwise the needle holds the end of the line before, and so does the record's body.
    rcases hborder with rfl | ⟨z, rfl⟩
    · exact hbefore (Nat.zero_le q)
    rw [length_append, length_singleton] at hbefore hqlt
    rw [Range.buffer, drop_take, drop_drop, prefix_take_iff, Nat.add_sub_cancel' hfrom, hfile,
      drop_append_of_le_length (by rw [length_append, length_singleton]; omega),
      drop_append_of_le_length (by omega)] at hhere
    obtain ⟨b, hb⟩ := prefix_of_prefix_length_le (prefix_append (z.drop q ++ [10]) _) hhere.1
      (by rw [length_append, length_drop, length_singleton]; omega)
    have hlong : b ++ y ≠ [] := by
      rintro hnil
      rw [← hb, (append_eq_nil_iff.mp hnil).1, append_nil, length_append, length_drop,
        length_singleton] at hqlt
      omega
    rw [← hb, ← append_assoc, ← append_assoc, append_assoc (x ++ z.drop q ++ [10])] at hline
    have hbody := congrArg dropLast hline
    rw [dropLast_append_of_ne_nil hlong, dropLast_concat] at hbody
    exact hplain (hbody ▸ by simp)
  · rw [length_append, length_singleton]
    omega

lemma exists_of_match {m : Nat × κ} (hm : m ∈ l.range.matches needles) :
    ∃ p, l.IsRecord p ∧ p.1 ≤ m.1 ∧ m.1 < p.1 + p.2.length :=
  Layout.exists_record (match_within hm).1 (match_within hm).2

lemma shown_iff (hp : l.IsRecord p) {m : Nat × κ} (hm : p.1 ≤ m.1 ∧ m.1 < p.1 + p.2.length)
    {v : Visit β} : shown l.range answer m = some v ↔ v.startOffset = p.1 ∧
      v.endOffset = p.1 + p.2.length ∧ answer m.2 p.2 p.1 = .ok (some v.found) := by
  obtain ⟨start, stop, found⟩ := v
  rw [shown, visitAt_eq hp hm]
  rcases answer m.2 p.2 p.1 with e | _ | found'
  · simp [Except.map]
  · simp [Except.map]
  · simp [Except.map, eq_comm]

variable (l needles answer) in
/-- The starts of the records visited. -/
def starts : List Nat :=
  ((l.range.matches needles).filterMap (shown l.range answer)).map Visit.startOffset

lemma count_starts (hp : l.IsRecord p) : (starts l needles answer).count p.1 =
    (l.range.matches needles).countP fun m =>
      decide (p.1 ≤ m.1 ∧ m.1 < p.1 + p.2.length) && answers answer p m.2 := by
  rw [starts, map_filterMap, count_filterMap]
  refine countP_congr fun m hm => ?_
  obtain ⟨p', hp', hwithin⟩ := exists_of_match hm
  simp only [beq_iff_eq, Option.map_eq_some_iff, Bool.and_eq_true, decide_eq_true_eq]
  constructor
  · rintro ⟨v, hv, hstart⟩
    obtain ⟨hat, -, hanswer⟩ := (shown_iff hp' hwithin).mp hv
    obtain rfl := Layout.record_eq hp hp' (by omega)
      (by have := (Layout.record_within hp).2.2; omega)
    exact ⟨hwithin, by rw [answers, hanswer]⟩
  · rintro ⟨hin, hanswers⟩
    rw [answers] at hanswers
    split at hanswers
    · rename_i found hanswer
      exact ⟨⟨p.1, p.1 + p.2.length, found⟩, (shown_iff hp hin).mpr ⟨rfl, rfl, hanswer⟩, rfl⟩
    · cases hanswers

lemma starts_weakly : (starts l needles answer).Pairwise fun a b => b ≤ a := by
  rw [starts, pairwise_map, pairwise_filterMap]
  refine matches_descending.imp_of_mem fun hm hm' hle v hv v' hv' => ?_
  obtain ⟨p, hp, hwithin⟩ := exists_of_match hm
  obtain ⟨p', hp', hwithin'⟩ := exists_of_match hm'
  rw [((shown_iff hp hwithin).mp hv).1, ((shown_iff hp' hwithin').mp hv').1]
  exact Layout.record_mono hp hp' hwithin.2 hwithin'.1 hle

/-- A scan reports a malformed record, or visits rightly just without a second match. -/
def Scans (l : Layout) (needles : List (List UInt8 × κ)) (answer : Answer κ β ε) :
    Except ε (List (Visit β) × Nat) → Prop
  | .error e => ∃ p, l.IsRecord p ∧ ∃ k, answer k p.2 p.1 = .error e
  | .ok (visits, _) => EachOnce l needles answer visits ↔ OneMatch l needles answer

lemma scanReverse_scans (hneedles : ∀ n ∈ needles, n.1 ≠ []) :
    Scans l needles answer (scanReverse l.range needles answer collect []) := by
  rcases visitCores_collect l.range needles answer (l.range.cores l.range.searchEnd) [] 0 with
    ⟨e, h, m, hm, hme⟩ | ⟨n, h⟩
  · obtain ⟨p, hp, hwithin⟩ := exists_of_match hm
    rw [visitAt_eq hp hwithin] at hme
    rw [scanReverse, h]
    cases hanswer : answer m.2 p.2 p.1 with
    | error e' =>
      rw [hanswer] at hme
      cases hme
      exact ⟨p, hp, m.2, hanswer⟩
    | ok v =>
      rw [hanswer] at hme
      cases hme
  rw [scanReverse, h, nil_append]
  change EachOnce l needles answer ((l.range.matches needles).filterMap _) ↔ _
  constructor
  · intro hvisits p hp
    rw [← count_starts hp]
    exact nodup_iff_count_le_one.mp (hvisits.descending.imp fun h => Nat.ne_of_gt h) p.1
  · intro hone
    have hnodup := nodup_iff_count_le_one.mpr fun start => by
      by_cases hmem : start ∈ starts l needles answer
      · obtain ⟨v, hv, rfl⟩ := mem_map.mp hmem
        obtain ⟨m, hm, hshown⟩ := mem_filterMap.mp hv
        obtain ⟨p, hp, hwithin⟩ := exists_of_match hm
        rw [((shown_iff hp hwithin).mp hshown).1, count_starts hp]
        exact hone p hp
      · rw [count_eq_zero.mpr hmem]
        exact Nat.zero_le 1
    refine ⟨(starts_weakly.and hnodup).imp fun h => lt_of_le_of_ne h.1 h.2.symm, ?_, ?_⟩
    · intro v hv
      obtain ⟨m, hm, hshown⟩ := mem_filterMap.mp hv
      obtain ⟨p, hp, hwithin⟩ := exists_of_match hm
      obtain ⟨hstart, hend, hanswer⟩ := (shown_iff hp hwithin).mp hshown
      exact ⟨p, hp, hstart, hend, m.2, hanswer⟩
    · intro p hp n hn hholds found hanswer
      obtain ⟨m, hm, hkind, hwithin⟩ := exists_match hp hn (hneedles n hn) hholds
      refine mem_map.mpr ⟨⟨p.1, p.1 + p.2.length, found⟩, mem_filterMap.mpr ⟨m, hm, ?_⟩, rfl⟩
      exact (shown_iff hp hwithin).mpr ⟨rfl, rfl, hkind ▸ hanswer⟩

end

/-- Both scans, over a file of whole records. -/
theorem reverse_scans (source : Source ε) (l : Layout) :
    Scans l source.boundaryKinds (fun _ => source.boundaryOf)
        (source.visitBoundariesReverse l.range collect []) ∧
      Scans l.whole source.timelineKinds source.timelineAnswer
        (source.visitTimelineBoundariesReverse l.whole.range collect []) := by
  constructor
  · refine scanReverse_scans fun n hn => ?_
    obtain ⟨needle, hneedle, rfl⟩ := mem_map.mp hn
    exact source.nonempty needle (mem_append_left _ hneedle)
  · refine scanReverse_scans (l := l.whole) fun n hn => ?_
    rcases mem_append.mp hn with hn | hn
    · obtain ⟨needle, hneedle, rfl⟩ := mem_map.mp hn
      exact source.nonempty needle (mem_append_left _ hneedle)
    · obtain ⟨needle, hneedle, rfl⟩ := mem_map.mp hn
      exact source.nonempty needle (mem_append_right _ hneedle)

def twoNeedles : Source Unit where
  boundaryNeedles := [[97], [98]]
  boundary _ _ := .ok (some (.rollback 1))
  standaloneNeedle := none
  standaloneTurn _ := none
  nonempty := by decide

def oneRecord : Layout := ⟨[], [⟨[97, 98], by decide⟩], [], 4, by decide⟩

/-- A record with two needles is visited twice. -/
theorem twoNeedles_visited_twice :
    twoNeedles.visitBoundariesReverse oneRecord.range collect [] =
      .ok ([⟨0, 3, .rollback 1⟩, ⟨0, 3, .rollback 1⟩], 3) ∧
      ¬EachOnce oneRecord twoNeedles.boundaryKinds (fun _ => twoNeedles.boundaryOf)
        [⟨0, 3, .rollback 1⟩, ⟨0, 3, .rollback 1⟩] := by
  refine ⟨?_, fun h => ?_⟩
  · have hcores : oneRecord.range.cores oneRecord.range.searchEnd = [(0, 3)] := by
      rw [Range.cores, Range.cores]
      rfl
    rw [Source.visitBoundariesReverse, scanReverse, hcores]
    rfl
  · exact absurd h.descending (by decide)

end CodeWide.Index.ReverseScan
