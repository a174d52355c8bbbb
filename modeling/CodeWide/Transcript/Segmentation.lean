import Mathlib.Data.List.Induction
import Mathlib.Data.List.Nodup
import Mathlib.Data.List.Pairwise
import CodeWide.Lib.Positions
import CodeWide.Lib.Run
import CodeWide.Transcript.Segments

/-!
# What a segmentation keeps

The outline says where a stretch of messages starts, which join it, and which wakes still wait for
a turn.
-/

namespace CodeWide.Transcript

open List Function
open Lib (mem_concat)
open Option (map_none map_some mem_toList toList_none toList_some)

variable {Content Frame Report : Type}

/-! ## The outline -/

inductive Phase (Content Frame Report : Type) where
  | idle
  | waiting (wakes : List (HistoryEntry Content Frame Report))
  | running

inductive Place where
  | opens
  | joins
  | delivered
  | waits
  | dropped
deriving DecidableEq

def SegmentHints.marks (hints : SegmentHints) (entry : HistoryEntry Content Frame Report) : Bool :=
  (hints.start? entry.uuid).isSome

def Phase.place (hints : SegmentHints) (phase : Phase Content Frame Report)
    (entry : HistoryEntry Content Frame Report) : Place :=
  if hints.marks entry then .opens
  else
    match entry, phase with
    | .prompt _ queued _ uuid, .running =>
      if uuid ∈ hints.continuations ∨ queued then .joins else .opens
    | .prompt _ _ _ _, _ => .opens
    | .compaction _ _, .running => .joins
    | .compaction _ _, _ => .opens
    | .frame _ _ _, .running => .joins
    | .frame _ _ _, _ => .opens
    | .interrupt _ _, .waiting _ => .opens
    | .interrupt _ _, _ => .dropped
    | .wake _ queued _ _, .running => if queued then .delivered else .waits
    | .wake _ _ _ _, _ => .waits

def Phase.wakes : Phase Content Frame Report → List (HistoryEntry Content Frame Report)
  | .waiting wakes => wakes
  | _ => []

def Phase.next (hints : SegmentHints) (phase : Phase Content Frame Report)
    (entry : HistoryEntry Content Frame Report) : Phase Content Frame Report :=
  if hints.marks entry then .running
  else
    match entry with
    | .interrupt _ _ => .idle
    | .wake _ _ _ _ =>
      if phase.place hints entry = .delivered then .running else .waiting (phase.wakes ++ [entry])
    | _ => .running

structure Outline (Content Frame Report : Type) where
  turns : List (List (HistoryEntry Content Frame Report))
  phase : Phase Content Frame Report

def joinLast (turns : List (List (HistoryEntry Content Frame Report)))
    (entry : HistoryEntry Content Frame Report) : List (List (HistoryEntry Content Frame Report)) :=
  match turns with
  | [] => []
  | [last] => [last ++ [entry]]
  | turn :: rest => turn :: joinLast rest entry

def Outline.step (hints : SegmentHints) (o : Outline Content Frame Report)
    (entry : HistoryEntry Content Frame Report) : Outline Content Frame Report :=
  let turns := match o.phase.place hints entry with
    | .opens => o.turns ++ [[entry]]
    | .joins => joinLast o.turns entry
    | _ => o.turns
  let phase := o.phase.next hints entry
  { turns, phase }

def outline (hints : SegmentHints) (entries : List (HistoryEntry Content Frame Report)) :
    Outline Content Frame Report :=
  entries.foldl (Outline.step hints) { turns := [], phase := .idle }

def waiting (hints : SegmentHints) (entries : List (HistoryEntry Content Frame Report)) :
    List (HistoryEntry Content Frame Report) :=
  (outline hints entries).phase.wakes

def reportsOf : HistoryEntry Content Frame Report → List Report
  | .wake reports _ _ _ => reports
  | _ => []

def HistoryEntry.isWake : HistoryEntry Content Frame Report → Bool
  | .wake _ _ _ _ => true
  | _ => false

def HistoryEntry.isMessage : HistoryEntry Content Frame Report → Bool
  | .prompt _ _ _ _ => true
  | .compaction _ _ => true
  | .frame _ _ _ => true
  | _ => false

lemma outline_snoc (hints : SegmentHints) (entries : List (HistoryEntry Content Frame Report))
    (entry : HistoryEntry Content Frame Report) :
    outline hints (entries ++ [entry]) = (outline hints entries).step hints entry := by
  simp [outline, foldl_append]

lemma joinLast_append (front : List (List (HistoryEntry Content Frame Report)))
    (last : List (HistoryEntry Content Frame Report))
    (entry : HistoryEntry Content Frame Report) :
    joinLast (front ++ [last]) entry = front ++ [last ++ [entry]] := by
  induction front with
  | nil => rfl
  | cons turn front ih =>
  cases front with
  | nil => rfl
  | cons next front =>
  rw [cons_append, cons_append, joinLast, ← cons_append, ih]
  · rfl
  · simp

/-! ## The segmenter's state -/

abbrev Segment (Content Frame Report : Type) := HistorySegment Content Frame Report

namespace Segmenter

variable {s : Segmenter Content Frame Report} {done : List (Segment Content Frame Report)}
  {cur : Option (Segment Content Frame Report)}

structure At (s : Segmenter Content Frame Report) (done : List (Segment Content Frame Report))
    (cur : Option (Segment Content Frame Report)) : Prop where
  segments : s.segments = done ++ cur.toList
  opened : s.opened = cur.map (fun _ => done.length)

variable {c : Segment Content Frame Report}

lemma At.modify (h : s.At done (some c))
    (f : Segment Content Frame Report → Segment Content Frame Report) :
    s.segments.modify done.length f = done ++ [f c] := by
  rw [h.segments]
  exact Lib.modify_append_cons done c [] f

lemma At.entriesAt (h : s.At done (some c)) : s.entriesAt done.length = c.entries := by
  unfold Segmenter.entriesAt
  rw [h.segments]
  simp

lemma At.openWithoutMessages (h : s.At done cur) : s.openWithoutMessages =
      (cur.filter (fun c => c.entries.isEmpty)).map (fun _ => done.length) := by
  unfold Segmenter.openWithoutMessages
  rw [h.opened]
  cases cur with
  | none => rfl
  | some c =>
    rw [map_some, Option.filter_some, h.entriesAt, Option.filter_some]
    split <;> rfl

lemma At.openWithMessages (h : s.At done cur) : s.openWithMessages =
      (cur.filter (fun c => !c.entries.isEmpty)).map (fun _ => done.length) := by
  unfold Segmenter.openWithMessages
  rw [h.opened]
  cases cur with
  | none => rfl
  | some c =>
    rw [map_some, Option.filter_some, h.entriesAt, Option.filter_some]
    split <;> rfl

/-- A closed segment: one without messages hands its reports over. -/
def settled (c : Segment Content Frame Report) : Segment Content Frame Report :=
  if c.entries.isEmpty then { c with reports := [] } else c

def handed (origin : TurnOrigin) (cur : Option (Segment Content Frame Report)) :
    List (SegmentReport Report) :=
  match cur with
  | some c => if c.entries.isEmpty then delivered origin c.reports else []
  | none => []

lemma At.start (h : s.At done cur) (origin : TurnOrigin)
    (first : Option (HistoryEntry Content Frame Report)) :
    (s.start origin first).1.At (done ++ (cur.map settled).toList)
        (some ⟨first.toList, false, origin, handed origin cur⟩) ∧
      (s.start origin first).2 = (done ++ (cur.map settled).toList).length := by
  have hcarry : (s.carried origin).1.segments = done ++ (cur.map settled).toList ∧
      (s.carried origin).2 = handed origin cur := by
    unfold carried
    rw [h.openWithoutMessages]
    cases cur with
    | none => exact ⟨h.segments, rfl⟩
    | some c =>
    rw [Option.filter_some]
    by_cases hempty : c.entries.isEmpty = true
    · rw [if_pos hempty, map_some]
      have hget : s.segments[done.length]? = some c := by rw [h.segments]; simp
      simp only [h.modify, hget]
      refine ⟨?_, ?_⟩
      · rw [map_some, settled, if_pos hempty, toList_some]
      · rw [handed, if_pos hempty]
    rw [if_neg hempty, map_none]
    refine ⟨?_, ?_⟩
    · rw [map_some, settled, if_neg hempty]
      exact h.segments
    · rw [handed, if_neg hempty]
  unfold Segmenter.start
  refine ⟨⟨?_, ?_⟩, ?_⟩
  · simp only [hcarry.1, hcarry.2, toList_some]
  · simp only [hcarry.1, map_some]
  · simp only [hcarry.1]

lemma At.append_open (h : s.At done (some c))
    (entry : HistoryEntry Content Frame Report) (origin : TurnOrigin) :
    (s.append entry origin).At done (some { c with entries := c.entries ++ [entry] }) := by
  unfold Segmenter.append
  rw [h.opened, map_some]
  exact ⟨h.modify _, rfl⟩

lemma At.append_closed (h : s.At done none) (entry : HistoryEntry Content Frame Report)
    (origin : TurnOrigin) :
    (s.append entry origin).At done (some ⟨[entry], false, origin, []⟩) := by
  unfold Segmenter.append
  rw [h.opened, map_none]
  have hstart := (h.start origin (some entry)).1
  rwa [map_none, toList_none, append_nil] at hstart

lemma At.addReports (h : s.At done (some c)) (reports : List (SegmentReport Report)) :
    (s.addReports done.length reports).At done (some { c with reports := c.reports ++ reports }) :=
  ⟨h.modify _, h.opened⟩

lemma At.wake_delivered (h : s.At done (some c)) (hc : c.entries ≠ []) (reports : List Report) :
    (s.wake true reports).At done (some { c with
        reports := c.reports ++ reports.map (fun report => ⟨.midTurn, report, c.entries.length⟩) }) := by
  have hnonempty : (!c.entries.isEmpty) = true := by simp [hc]
  unfold Segmenter.wake
  rw [if_pos rfl, h.openWithMessages, Option.filter_some, if_pos hnonempty, map_some]
  simp only [h.entriesAt]
  exact h.addReports _

lemma At.wake_collected (h : s.At done (some c))
    (hc : c.entries = []) (queued : Bool) (reports : List Report) :
    (s.wake queued reports).At done (some { c with
        reports := c.reports ++ reports.map (fun report => ⟨.wake, report, 0⟩) }) := by
  have hempty : c.entries.isEmpty = true := by simp [hc]
  have hmessages : (if queued = true then s.openWithMessages else none) = none := by
    rw [h.openWithMessages, Option.filter_some, hempty]
    cases queued <;> rfl
  unfold Segmenter.wake
  rw [hmessages]
  simp only [h.openWithoutMessages, Option.filter_some, hempty, if_true, map_some]
  exact h.addReports _

lemma At.wake_started (h : s.At done cur) {queued : Bool}
    (hc : ∀ c, cur = some c → c.entries ≠ [] ∧ queued = false) (reports : List Report) :
    (s.wake queued reports).At (done ++ cur.toList)
      (some ⟨[], false, .provider, reports.map (fun report => ⟨.wake, report, 0⟩)⟩) := by
  have hset : cur.map settled = cur ∧ handed .provider cur = [] ∧
      s.openWithoutMessages = none ∧ (if queued = true then s.openWithMessages else none) = none := by
    rw [h.openWithoutMessages, h.openWithMessages]
    cases cur with
    | none => exact ⟨rfl, rfl, rfl, by cases queued <;> rfl⟩
    | some c =>
    obtain ⟨hne, rfl⟩ := hc c rfl
    have hempty : c.entries.isEmpty = false := by simp [hne]
    refine ⟨?_, ?_, ?_, rfl⟩
    · simp [settled, hempty]
    · simp [handed, hempty]
    · simp [hne]
  obtain ⟨hcur, hhanded, hwithout, hwith⟩ := hset
  obtain ⟨hstart, hindex⟩ := h.start .provider none
  unfold Segmenter.wake
  rw [hwith]
  simp only [hwithout, hindex]
  rw [hcur, hhanded] at hstart
  rw [hcur]
  exact hstart.addReports _

lemma At.interrupt_open (h : s.At done (some c)) (marker : HistoryEntry Content Frame Report) :
    (s.interrupt marker).At
      (done ++ [⟨if c.entries.isEmpty then [marker] else c.entries, true, c.origin, c.reports⟩])
      none := by
  unfold Segmenter.interrupt
  rw [h.opened, map_some]
  refine ⟨?_, rfl⟩
  rw [toList_none, append_nil]
  exact h.modify _

lemma At.interrupt_closed (h : s.At done none) (marker : HistoryEntry Content Frame Report) :
    (s.interrupt marker).At done none := by
  unfold Segmenter.interrupt
  rw [h.opened, map_none]
  exact h

end Segmenter

/-! ## The invariant of a run -/

structure InPlace (segment : Segment Content Frame Report) : Prop where
  sorted : segment.reports.Pairwise (fun a b => a.position ≤ b.position)
  inside : ∀ report ∈ segment.reports, report.position ≤ segment.entries.length

def deliveredReports (segment : Segment Content Frame Report) : List Report :=
  segment.reports.map SegmentReport.report

def Current (phase : Phase Content Frame Report) (cur : Option (Segment Content Frame Report)) :
    Prop :=
  match phase with
  | .idle => cur = none
  | .waiting wakes => ∃ c, cur = some c ∧ c.entries = [] ∧
      deliveredReports c = wakes.flatMap reportsOf ∧ ∀ report ∈ c.reports, report.position = 0
  | .running => ∃ c, cur = some c ∧ c.entries ≠ []

def stretches (segments : List (Segment Content Frame Report)) :
    List (List (HistoryEntry Content Frame Report)) :=
  (segments.map HistorySegment.entries).filter (fun entries => !entries.isEmpty)

structure Follows (hints : SegmentHints) (seen : List (HistoryEntry Content Frame Report))
    (done : List (Segment Content Frame Report)) (cur : Option (Segment Content Frame Report)) :
    Prop where
  turns : stretches (done ++ cur.toList) = (outline hints seen).turns
  current : Current (outline hints seen).phase cur
  settled : ∀ c ∈ done, c.entries = [] → c.reports = []
  reports : (done ++ cur.toList).flatMap deliveredReports =
    (seen.filter (fun entry => !hints.marks entry)).flatMap reportsOf
  inPlace : ∀ c ∈ done ++ cur.toList, InPlace c

section Follows

variable {hints : SegmentHints} {seen : List (HistoryEntry Content Frame Report)}
  {done : List (Segment Content Frame Report)} {cur : Option (Segment Content Frame Report)}

lemma stretches_append (a b : List (Segment Content Frame Report)) :
    stretches (a ++ b) = stretches a ++ stretches b := by
  simp [stretches, filter_append]

lemma stretches_singleton (c : Segment Content Frame Report) :
    stretches [c] = if c.entries = [] then [] else [c.entries] := by
  by_cases h : c.entries = [] <;> simp [stretches, h]

lemma reports_snoc (entry : HistoryEntry Content Frame Report) :
    ((seen ++ [entry]).filter (fun e => !hints.marks e)).flatMap reportsOf =
      (seen.filter (fun e => !hints.marks e)).flatMap reportsOf ++
        if hints.marks entry then [] else reportsOf entry := by
  rw [filter_append, flatMap_append]
  by_cases h : hints.marks entry = true <;> simp [h]

lemma delivered_reports (origin : TurnOrigin) (reports : List (SegmentReport Report)) :
    (Segmenter.delivered origin reports).map SegmentReport.report =
      reports.map SegmentReport.report := by
  cases origin with
  | provider => rfl
  | user => simp [Segmenter.delivered]

lemma handed_reports (origin : TurnOrigin) (cur : Option (Segment Content Frame Report)) :
    (cur.map Segmenter.settled).toList.flatMap deliveredReports ++
        (Segmenter.handed origin cur).map SegmentReport.report =
      cur.toList.flatMap deliveredReports := by
  cases cur with
  | none => rfl
  | some c =>
  by_cases h : c.entries.isEmpty = true
  · simp only [map_some, toList_some, Segmenter.settled, Segmenter.handed, if_pos h,
      flatMap_singleton, delivered_reports, deliveredReports, map_nil, nil_append]
  · simp only [map_some, toList_some, Segmenter.settled, Segmenter.handed, if_neg h,
      flatMap_singleton, map_nil, append_nil]

lemma stretches_settled (cur : Option (Segment Content Frame Report)) :
    stretches (cur.map Segmenter.settled).toList = stretches cur.toList := by
  cases cur with
  | none => rfl
  | some c =>
  rw [map_some, toList_some, toList_some, stretches_singleton, stretches_singleton]
  by_cases h : c.entries.isEmpty = true
  · simp only [Segmenter.settled, if_pos h]
  · simp only [Segmenter.settled, if_neg h]

lemma handed_inPlace (hcur : Current (outline hints seen).phase cur) (origin : TurnOrigin)
    (entries : List (HistoryEntry Content Frame Report)) (interrupted : Bool)
    (hent : entries ≠ []) :
    InPlace (⟨entries, interrupted, origin, Segmenter.handed origin cur⟩ :
      Segment Content Frame Report) := by
  have hsame : ∃ n ≤ entries.length, ∀ report ∈ Segmenter.handed origin cur,
      report.position = n := by
    cases cur with
    | none => exact ⟨0, Nat.zero_le _, by simp [Segmenter.handed]⟩
    | some c =>
    by_cases hempty : c.entries.isEmpty = true
    · have hzero : ∀ report ∈ c.reports, report.position = 0 := by
        have hnil : c.entries = [] := by simpa using hempty
        unfold Current at hcur
        split at hcur
        · cases hcur
        · obtain ⟨c', heq, -, -, hzero⟩ := hcur
          cases heq
          exact hzero
        · obtain ⟨c', heq, hne⟩ := hcur
          cases heq
          exact absurd hnil hne
      cases origin with
      | provider =>
        refine ⟨0, Nat.zero_le _, ?_⟩
        rw [Segmenter.handed, if_pos hempty]
        exact hzero
      | user =>
      refine ⟨1, ?_, ?_⟩
      · exact Nat.one_le_iff_ne_zero.mpr (by simpa using hent)
      · rw [Segmenter.handed, if_pos hempty]
        simp [Segmenter.delivered, afterPrompt]
    · exact ⟨0, Nat.zero_le _, by simp [Segmenter.handed, hempty]⟩
  obtain ⟨n, hn, hall⟩ := hsame
  constructor
  · refine pairwise_of_forall_mem_list fun a ha b hb => ?_
    have hpa := hall a ha
    have hpb := hall b hb
    omega
  · intro report hrepo
    rw [hall report hrepo]
    exact hn

lemma InPlace.settled {c : Segment Content Frame Report} (h : InPlace c) :
    InPlace (Segmenter.settled c) := by
  unfold Segmenter.settled
  split
  · exact ⟨List.Pairwise.nil, fun report hrepo => (nomatch hrepo)⟩
  · exact h

variable {c : Segment Content Frame Report}

lemma InPlace.append (h : InPlace c) (entry : HistoryEntry Content Frame Report) :
    InPlace { c with entries := c.entries ++ [entry] } := by
  refine ⟨h.sorted, fun report hrepo => ?_⟩
  have := h.inside report hrepo
  simp only [length_append, length_singleton]
  omega

lemma InPlace.addReports (h : InPlace c)
    (delivery : TaskNotificationDelivery) (reports : List Report) {position : Nat}
    (hbeh : ∀ report ∈ c.reports, report.position ≤ position)
    (hins : position ≤ c.entries.length) :
    InPlace { c with
      reports := c.reports ++ reports.map (fun report => ⟨delivery, report, position⟩) } := by
  have hnew : ∀ r ∈ reports.map (fun report => (⟨delivery, report, position⟩ : SegmentReport Report)),
      r.position = position := by
    intro r hr
    obtain ⟨report, -, rfl⟩ := mem_map.mp hr
    rfl
  constructor
  · refine pairwise_append.mpr ⟨h.sorted, ?_, ?_⟩
    · refine pairwise_of_forall_mem_list fun a ha b hb => ?_
      have hpa := hnew a ha
      have hpb := hnew b hb
      omega
    intro a ha b hb
    have hpa := hbeh a ha
    have hpb := hnew b hb
    omega
  intro r hr
  rcases mem_append.mp hr with hr | hr
  · exact h.inside r hr
  · rw [hnew r hr]
    exact hins

variable {entry : HistoryEntry Content Frame Report}

lemma Follows.start (h : Follows hints seen done cur) (origin : TurnOrigin)
    (hplace : (outline hints seen).phase.place hints entry = .opens)
    (hphase : (outline hints seen).phase.next hints entry = .running)
    (hrep : hints.marks entry = true ∨ reportsOf entry = []) :
    Follows hints (seen ++ [entry]) (done ++ (cur.map Segmenter.settled).toList)
      (some ⟨[entry], false, origin, Segmenter.handed origin cur⟩) := by
  constructor
  · rw [outline_snoc, Outline.step]
    simp only [hplace]
    rw [stretches_append, stretches_append, stretches_settled, ← stretches_append, h.turns]
    rfl
  · rw [outline_snoc, Outline.step]
    simp only [hphase]
    exact ⟨_, rfl, cons_ne_nil _ _⟩
  · intro c hc hnil
    rcases mem_append.mp hc with hc | hc
    · exact h.settled c hc hnil
    obtain ⟨c', -, rfl⟩ := Option.map_eq_some_iff.mp (mem_toList.mp hc)
    unfold Segmenter.settled at hnil ⊢
    split at hnil
    · rename_i hempty
      rw [if_pos hempty]
    · rename_i hempty
      exact absurd (by simpa using hnil) hempty
  · rw [reports_snoc, ← h.reports, append_assoc, flatMap_append, flatMap_append, flatMap_append]
    have hnew : (Option.toList (some (⟨[entry], false, origin, Segmenter.handed origin cur⟩ :
        Segment Content Frame Report))).flatMap deliveredReports =
        (Segmenter.handed origin cur).map SegmentReport.report := by
      simp [deliveredReports]
    have hnone : (if hints.marks entry = true then [] else reportsOf entry) = [] := by
      rcases hrep with hmark | hnil
      · rw [if_pos hmark]
      · rw [hnil, ite_self]
    rw [hnew, handed_reports, hnone, append_nil]
  intro c hc
  rcases mem_concat.mp hc with hc | hc
  · rcases mem_append.mp hc with hc | hc
    · exact h.inPlace c (mem_append_left _ hc)
    · obtain ⟨c', hc', rfl⟩ := Option.map_eq_some_iff.mp (mem_toList.mp hc)
      exact (h.inPlace c' (mem_append_right _ (mem_toList.mpr hc'))).settled
  · cases hc
    exact handed_inPlace h.current origin [entry] false (cons_ne_nil _ _)

lemma Follows.append (h : Follows hints seen done (some c))
    (hplace : (outline hints seen).phase.place hints entry =
      if c.entries = [] then .opens else .joins)
    (hphase : (outline hints seen).phase.next hints entry = .running)
    (hrep : reportsOf entry = []) :
    Follows hints (seen ++ [entry]) done (some { c with entries := c.entries ++ [entry] }) := by
  constructor
  · rw [outline_snoc, Outline.step]
    simp only [hplace, ← h.turns]
    rw [toList_some, toList_some, stretches_append, stretches_append,
      stretches_singleton, stretches_singleton, if_neg (by simp)]
    by_cases hc : c.entries = []
    · simp [hc]
    · simp only [if_neg hc]
      exact (joinLast_append _ _ _).symm
  · rw [outline_snoc, Outline.step]
    simp only [hphase]
    exact ⟨_, rfl, by simp⟩
  · exact h.settled
  · rw [reports_snoc, ← h.reports, hrep, ite_self, append_nil]
    simp only [flatMap_append, toList_some, flatMap_singleton, deliveredReports]
  intro c' hc'
  rcases mem_concat.mp hc' with hc' | hc'
  · exact h.inPlace c' (mem_append_left _ hc')
  · cases hc'
    exact (h.inPlace c (mem_append_right _ (mem_singleton_self c))).append entry

lemma Follows.addReports
    (h : Follows hints seen done (some c)) (entry : HistoryEntry Content Frame Report)
    (hmark : hints.marks entry = false) (delivery : TaskNotificationDelivery) {position : Nat}
    (hbeh : ∀ report ∈ c.reports, report.position ≤ position)
    (hins : position ≤ c.entries.length)
    (hplace : (outline hints seen).phase.place hints entry = .delivered ∨
      (outline hints seen).phase.place hints entry = .waits)
    (hcurr : Current ((outline hints seen).phase.next hints entry)
      (some { c with reports := c.reports ++
        (reportsOf entry).map (fun report => ⟨delivery, report, position⟩) })) :
    Follows hints (seen ++ [entry]) done
      (some { c with reports := c.reports ++
        (reportsOf entry).map (fun report => ⟨delivery, report, position⟩) }) := by
  constructor
  · rw [outline_snoc, Outline.step, toList_some, stretches_append, stretches_singleton]
    have hturns := h.turns
    rw [toList_some, stretches_append, stretches_singleton] at hturns
    rcases hplace with hplace | hplace
    · simp only [hplace]
      exact hturns
    · simp only [hplace]
      exact hturns
  · rw [outline_snoc, Outline.step]
    exact hcurr
  · exact h.settled
  · rw [reports_snoc, ← h.reports, hmark]
    simp [deliveredReports, comp_def]
  intro c' hc'
  rcases mem_concat.mp hc' with hc' | hc'
  · exact h.inPlace c' (mem_append_left _ hc')
  · cases hc'
    exact (h.inPlace c (mem_append_right _ (mem_singleton_self c))).addReports
      delivery _ hbeh hins

lemma Follows.wait (h : Follows hints seen done cur)
    (hcur : ∀ c, cur = some c → c.entries ≠ []) {entry : HistoryEntry Content Frame Report}
    (hmark : hints.marks entry = false)
    (hplace : (outline hints seen).phase.place hints entry = .waits)
    (hphase : (outline hints seen).phase.next hints entry = .waiting [entry]) :
    Follows hints (seen ++ [entry]) (done ++ cur.toList)
      (some ⟨[], false, .provider, (reportsOf entry).map (fun report => ⟨.wake, report, 0⟩)⟩) := by
  constructor
  · rw [outline_snoc, Outline.step]
    simp only [hplace]
    rw [toList_some, stretches_append, stretches_singleton, if_pos rfl, append_nil, h.turns]
  · rw [outline_snoc, Outline.step]
    simp only [hphase]
    refine ⟨_, rfl, rfl, ?_, ?_⟩
    · simp [deliveredReports, comp_def]
    · intro r hr
      obtain ⟨report, -, rfl⟩ := mem_map.mp hr
      rfl
  · intro c hc hnil
    rcases mem_append.mp hc with hc | hc
    · exact h.settled c hc hnil
    · exact absurd hnil (hcur c (mem_toList.mp hc))
  · rw [reports_snoc, ← h.reports, hmark]
    simp [deliveredReports, comp_def]
  intro c hc
  rcases mem_concat.mp hc with hc | hc
  · exact h.inPlace c hc
  cases hc
  have hempty : InPlace (⟨[], false, .provider, []⟩ : Segment Content Frame Report) :=
    ⟨List.Pairwise.nil, fun report hrepo => (nomatch hrepo)⟩
  exact hempty.addReports .wake _ (fun report hrepo => (nomatch hrepo)) (Nat.le_refl 0)

lemma Follows.interrupt (h : Follows hints seen done (some c))
    (hplace : (outline hints seen).phase.place hints entry =
      if c.entries = [] then .opens else .dropped)
    (hphase : (outline hints seen).phase.next hints entry = .idle)
    (hrep : reportsOf entry = []) :
    Follows hints (seen ++ [entry])
      (done ++ [⟨if c.entries.isEmpty then [entry] else c.entries, true, c.origin, c.reports⟩])
      none := by
  have hturns := h.turns
  rw [toList_some, stretches_append, stretches_singleton] at hturns
  have hc := h.inPlace c (mem_append_right _ (mem_singleton_self c))
  constructor
  · rw [outline_snoc, Outline.step, toList_none, append_nil, stretches_append, stretches_singleton]
    simp only [hplace, ← hturns]
    by_cases hnil : c.entries = []
    · simp [hnil]
    · simp [hnil]
  · rw [outline_snoc, Outline.step]
    simp only [hphase]
    rfl
  · intro c' hc' hnil
    rcases mem_append.mp hc' with hc' | hc'
    · exact h.settled c' hc' hnil
    cases mem_singleton.mp hc'
    exfalso
    by_cases hempty : c.entries = []
    · simp [hempty] at hnil
    · simp [hempty] at hnil
  · rw [reports_snoc, ← h.reports, hrep, ite_self, append_nil]
    simp [deliveredReports]
  intro c' hc'
  rw [toList_none, append_nil] at hc'
  rcases mem_append.mp hc' with hc' | hc'
  · exact h.inPlace c' (mem_append_left _ hc')
  cases mem_singleton.mp hc'
  refine ⟨hc.sorted, fun report hrepo => ?_⟩
  have hins := hc.inside report hrepo
  by_cases hempty : c.entries = []
  · rw [hempty] at hins
    simp only [hempty, isEmpty_nil, if_true, length_singleton]
    exact Nat.le_succ_of_le hins
  · simpa [hempty] using hins

lemma Follows.drop (h : Follows hints seen done none)
    (hplace : (outline hints seen).phase.place hints entry = .dropped)
    (hphase : (outline hints seen).phase.next hints entry = .idle)
    (hrep : reportsOf entry = []) : Follows hints (seen ++ [entry]) done none := by
  constructor
  · rw [outline_snoc, Outline.step]
    simp only [hplace]
    exact h.turns
  · rw [outline_snoc, Outline.step]
    simp only [hphase]
    rfl
  · exact h.settled
  · rw [reports_snoc, ← h.reports, hrep, ite_self, append_nil]
  · exact h.inPlace

lemma Follows.start_closed (h : Follows hints seen done none) (origin : TurnOrigin)
    (hplace : (outline hints seen).phase.place hints entry = .opens)
    (hphase : (outline hints seen).phase.next hints entry = .running)
    (hrep : reportsOf entry = []) :
    Follows hints (seen ++ [entry]) done (some ⟨[entry], false, origin, []⟩) := by
  have hstart := h.start origin hplace hphase (.inr hrep)
  rwa [map_none, toList_none, append_nil] at hstart

/-! ### One entry -/

variable {s : Segmenter Content Frame Report}

def StepFollows (hints : SegmentHints) (seen : List (HistoryEntry Content Frame Report))
    (entry : HistoryEntry Content Frame Report) (s : Segmenter Content Frame Report) : Prop :=
  ∃ done cur, s.At done cur ∧ Follows hints (seen ++ [entry]) done cur

lemma append_follows (hat : s.At done cur) (h : Follows hints seen done cur) (origin : TurnOrigin)
    (hplace : (outline hints seen).phase.place hints entry = match (outline hints seen).phase with
      | .running => .joins
      | _ => .opens)
    (hphase : (outline hints seen).phase.next hints entry = .running)
    (hrep : reportsOf entry = []) : StepFollows hints seen entry (s.append entry origin) := by
  have hcur := h.current
  cases hp : (outline hints seen).phase with
  | idle =>
    rw [hp] at hcur
    obtain rfl : cur = none := hcur
    refine ⟨done, _, hat.append_closed entry origin, h.start_closed origin ?_ hphase hrep⟩
    rw [hplace, hp]
  | waiting wakes =>
    rw [hp] at hcur
    obtain ⟨c, rfl, hnil, -, -⟩ := hcur
    refine ⟨done, _, hat.append_open entry origin, h.append ?_ hphase hrep⟩
    rw [hplace, hp, if_pos hnil]
  | running =>
  rw [hp] at hcur
  obtain ⟨c, rfl, hne⟩ := hcur
  refine ⟨done, _, hat.append_open entry origin, h.append ?_ hphase hrep⟩
  rw [hplace, hp, if_neg hne]

variable {timestampMs : Int}

variable {uuid : String} {queued : Bool}

lemma prompt_follows (hat : s.At done cur) (h : Follows hints seen done cur) {content : Content}
    (hmark : hints.marks (.prompt content queued timestampMs uuid :
      HistoryEntry Content Frame Report) = false) :
    StepFollows hints seen (.prompt content queued timestampMs uuid)
      (s.addPlain hints (.prompt content queued timestampMs uuid)) := by
  have hnext : (outline hints seen).phase.next hints
      (.prompt content queued timestampMs uuid) = .running := by
    simp [Phase.next, hmark]
  have hcur := h.current
  unfold Segmenter.addPlain
  simp only
  by_cases happ : uuid ∈ hints.continuations ∨ (queued = true ∧ s.opened.isSome = true)
  · rw [if_pos happ]
    refine append_follows hat h .user ?_ hnext rfl
    have hjoins : uuid ∈ hints.continuations ∨ queued = true := by
      rcases happ with hcont | hq
      · exact .inl hcont
      · exact .inr hq.1
    cases hp : (outline hints seen).phase with
    | idle | waiting wakes => simp [Phase.place, hmark]
    | running => simp [Phase.place, hmark, hjoins]
  rw [if_neg happ]
  refine ⟨_, _, (hat.start .user _).1, h.start .user ?_ hnext (.inr rfl)⟩
  cases hp : (outline hints seen).phase with
  | idle | waiting wakes => simp [Phase.place, hmark]
  | running =>
  rw [hp] at hcur
  obtain ⟨c, rfl, -⟩ := hcur
  have hopened : s.opened.isSome = true := by rw [hat.opened]; rfl
  have hno : ¬(uuid ∈ hints.continuations ∨ queued = true) := by
    rintro (hcont | hq)
    · exact happ (.inl hcont)
    · exact happ (.inr ⟨hq, hopened⟩)
  simp [Phase.place, hmark, hno]

lemma interrupt_follows (hat : s.At done cur) (h : Follows hints seen done cur)
    (hmark : hints.marks (.interrupt timestampMs uuid : HistoryEntry Content Frame Report) = false) :
    StepFollows hints seen (.interrupt timestampMs uuid)
      (s.interrupt (.interrupt timestampMs uuid)) := by
  have hnext : (outline hints seen).phase.next hints
      (.interrupt timestampMs uuid : HistoryEntry Content Frame Report) = .idle := by
    simp [Phase.next, hmark]
  have hcur := h.current
  cases hp : (outline hints seen).phase with
  | idle =>
    rw [hp] at hcur
    obtain rfl : cur = none := hcur
    exact ⟨done, none, hat.interrupt_closed _, h.drop (by simp [Phase.place, hmark, hp]) hnext rfl⟩
  | waiting wakes =>
    rw [hp] at hcur
    obtain ⟨c, rfl, hnil, -, -⟩ := hcur
    exact ⟨_, none, hat.interrupt_open _,
      h.interrupt (by simp [Phase.place, hmark, hp, hnil]) hnext rfl⟩
  | running =>
  rw [hp] at hcur
  obtain ⟨c, rfl, hne⟩ := hcur
  exact ⟨_, none, hat.interrupt_open _,
    h.interrupt (by simp [Phase.place, hmark, hp, hne]) hnext rfl⟩

variable {reports : List Report}

lemma next_waits {phase : Phase Content Frame Report}
    (hmark : hints.marks (.wake reports queued timestampMs uuid :
      HistoryEntry Content Frame Report) = false)
    (hplace : phase.place hints (.wake reports queued timestampMs uuid) = .waits) :
    phase.next hints (.wake reports queued timestampMs uuid) =
      .waiting (phase.wakes ++ [.wake reports queued timestampMs uuid]) := by
  simp [Phase.next, hmark, hplace]

lemma wake_follows (hat : s.At done cur) (h : Follows hints seen done cur)
        (hmark : hints.marks (.wake reports queued timestampMs uuid :
      HistoryEntry Content Frame Report) = false) :
    StepFollows hints seen (.wake reports queued timestampMs uuid) (s.wake queued reports) := by
  have hcur := h.current
  cases hp : (outline hints seen).phase with
  | idle =>
    rw [hp] at hcur
    obtain rfl : cur = none := hcur
    have hplace : (outline hints seen).phase.place hints
        (.wake reports queued timestampMs uuid) = .waits := by simp [Phase.place, hmark, hp]
    refine ⟨_, _, hat.wake_started (fun c hc => (nomatch hc)) reports,
      h.wait (fun c hc => (nomatch hc)) hmark hplace ?_⟩
    rw [next_waits hmark hplace, hp]
    rfl
  | waiting wakes =>
    rw [hp] at hcur
    obtain ⟨c, rfl, hnil, hwakes, hzero⟩ := hcur
    have hplace : (outline hints seen).phase.place hints
        (.wake reports queued timestampMs uuid) = .waits := by simp [Phase.place, hmark, hp]
    refine ⟨_, _, hat.wake_collected hnil queued reports,
      h.addReports (.wake reports queued timestampMs uuid) hmark .wake
        (fun report hrepo => Nat.le_of_eq (hzero report hrepo)) (Nat.zero_le _)
        (.inr hplace) ?_⟩
    have hnext : (outline hints seen).phase.next hints (.wake reports queued timestampMs uuid) =
        .waiting (wakes ++ [.wake reports queued timestampMs uuid]) := by
      rw [next_waits hmark hplace, hp]
      rfl
    rw [hnext]
    refine ⟨_, rfl, hnil, ?_, ?_⟩
    · have hold : c.reports.map SegmentReport.report = wakes.flatMap reportsOf := hwakes
      simp [deliveredReports, hold, reportsOf, comp_def]
    intro r hr
    rcases mem_append.mp hr with hr | hr
    · exact hzero r hr
    · obtain ⟨report, -, rfl⟩ := mem_map.mp hr
      rfl
  | running =>
  rw [hp] at hcur
  obtain ⟨c, rfl, hne⟩ := hcur
  cases queued with
  | true =>
    have hplace : (outline hints seen).phase.place hints
        (.wake reports true timestampMs uuid) = .delivered := by simp [Phase.place, hmark, hp]
    have hins := (h.inPlace c (mem_append_right _ (mem_singleton_self c))).inside
    refine ⟨_, _, hat.wake_delivered hne reports,
      h.addReports (.wake reports true timestampMs uuid) hmark .midTurn hins
        (Nat.le_refl _) (.inl hplace) ?_⟩
    have hnext : (outline hints seen).phase.next hints (.wake reports true timestampMs uuid) =
        .running := by
      simp [Phase.next, hmark, hplace]
    rw [hnext]
    exact ⟨_, rfl, hne⟩
  | false =>
  have hplace : (outline hints seen).phase.place hints
      (.wake reports false timestampMs uuid) = .waits := by simp [Phase.place, hmark, hp]
  have hrun : ∀ c', some c = some c' → c'.entries ≠ [] := by
    rintro c' ⟨rfl⟩
    exact hne
  refine ⟨_, _, hat.wake_started (fun c' hc' => ⟨hrun c' hc', rfl⟩) reports,
    h.wait hrun hmark hplace ?_⟩
  rw [next_waits hmark hplace, hp]
  rfl

lemma addPlain_follows (hat : s.At done cur) (h : Follows hints seen done cur)
    (hmark : hints.marks entry = false) :
    StepFollows hints seen entry (s.addPlain hints entry) := by
  cases entry with
  | prompt content queued timestampMs uuid => exact prompt_follows hat h hmark
  | interrupt timestampMs uuid => exact interrupt_follows hat h hmark
  | wake reports queued timestampMs uuid => exact wake_follows hat h hmark
  | compaction timestampMs uuid | frame frame timestampMs uuid =>
    refine append_follows hat h .provider ?_ (by simp [Phase.next, hmark]) rfl
    cases hp : (outline hints seen).phase <;> simp [Phase.place, hmark]

/-- One entry keeps the segments on the outline, unless it repeats a message. -/
lemma add_follows (hat : s.At done cur) (h : Follows hints seen done cur)
    (hnew : ∀ c, cur = some c → ∀ first ∈ c.entries, first.uuid ≠ entry.uuid) :
    StepFollows hints seen entry (s.add hints entry) := by
  unfold Segmenter.add
  cases hstart : hints.start? entry.uuid with
  | none => exact addPlain_follows hat h (by simp [SegmentHints.marks, hstart])
  | some origin =>
  have hmark : hints.marks entry = true := by simp [SegmentHints.marks, hstart]
  have hfirst : s.alreadyFirst entry.uuid = false := by
    unfold Segmenter.alreadyFirst
    rw [hat.opened]
    cases cur with
    | none => rfl
    | some c =>
    simp only [map_some, hat.entriesAt]
    cases hc : c.entries with
    | nil => rfl
    | cons first rest =>
      have hne := hnew c rfl first (by rw [hc]; exact mem_cons_self)
      simpa using hne
  simp only [hfirst, Bool.false_eq_true, if_false]
  refine ⟨_, _, (hat.start origin _).1, h.start origin ?_ ?_ (.inl hmark)⟩
  · simp [Phase.place, hmark]
  · simp [Phase.next, hmark]

end Follows

/-! ## The outline's stretches -/

section Outline

variable (hints : SegmentHints) (entries : List (HistoryEntry Content Frame Report))

structure OutlineKeeps (hints : SegmentHints) (seen : List (HistoryEntry Content Frame Report))
    (o : Outline Content Frame Report) : Prop where
  sublist : o.turns.flatten.Sublist seen
  messages : o.turns.flatten.filter HistoryEntry.isMessage = seen.filter HistoryEntry.isMessage
  nonempty : ∀ turn ∈ o.turns, turn ≠ []
  starts : ∀ entry ∈ seen, hints.marks entry = true → ∃ turn ∈ o.turns, turn.head? = some entry
  running : o.phase = .running → o.turns ≠ []
  suffix : o.phase.wakes <:+ seen
  wakes : ∀ entry ∈ o.phase.wakes, entry.isWake = true ∧ hints.marks entry = false

variable {hints} {seen : List (HistoryEntry Content Frame Report)}
  {o : Outline Content Frame Report} {entry : HistoryEntry Content Frame Report}

lemma running_of_joins (h : o.phase.place hints entry = .joins) :
    o.phase = .running ∧ hints.marks entry = false ∧ entry.isMessage = true := by
  unfold Phase.place at h
  split at h
  · cases h
  rename_i hmark
  have hmark : hints.marks entry = false := by simpa using hmark
  split at h
  · exact ⟨by assumption, hmark, rfl⟩
  · cases h
  · exact ⟨by assumption, hmark, rfl⟩
  · cases h
  · exact ⟨by assumption, hmark, rfl⟩
  · cases h
  · cases h
  · cases h
  · split at h <;> cases h
  · cases h

lemma not_message_of_place (hopens : o.phase.place hints entry ≠ .opens)
    (hjoins : o.phase.place hints entry ≠ .joins) :
    entry.isMessage = false ∧ hints.marks entry = false := by
  unfold Phase.place at hopens hjoins
  split at hopens
  · exact absurd rfl hopens
  rename_i hmark
  rw [if_neg hmark] at hjoins
  have hmark : hints.marks entry = false := by simpa using hmark
  refine ⟨?_, hmark⟩
  cases entry with
  | prompt content queued timestampMs uuid =>
    cases hp : o.phase with
    | running =>
      rw [hp] at hopens hjoins
      simp only at hopens hjoins
      split at hopens
      · rename_i hcond
        exact absurd (if_pos hcond) hjoins
      · exact absurd rfl hopens
    | idle | waiting wakes => rw [hp] at hopens; exact absurd rfl hopens
  | interrupt timestampMs uuid | wake reports queued timestampMs uuid => rfl
  | compaction timestampMs uuid | frame frame timestampMs uuid =>
  cases hp : o.phase with
  | running => rw [hp] at hjoins; exact absurd rfl hjoins
  | idle | waiting wakes => rw [hp] at hopens; exact absurd rfl hopens

lemma next_spec (hints : SegmentHints) (phase : Phase Content Frame Report)
    (entry : HistoryEntry Content Frame Report) :
    (phase.place hints entry = .waits ∧ entry.isWake = true ∧ hints.marks entry = false ∧
        phase.next hints entry = .waiting (phase.wakes ++ [entry])) ∨
      (phase.place hints entry = .dropped ∧ phase.next hints entry = .idle) ∨
      (phase.place hints entry = .opens ∧ (phase.next hints entry).wakes = []) ∨
      (phase.place hints entry = .joins ∧ (phase.next hints entry).wakes = []) ∨
      (phase.place hints entry = .delivered ∧ phase = .running ∧
        (phase.next hints entry).wakes = []) := by
  unfold Phase.place Phase.next
  by_cases hmark : hints.marks entry = true
  · simp [hmark, Phase.wakes]
  rw [if_neg hmark, if_neg hmark]
  have hmark : hints.marks entry = false := by simpa using hmark
  cases entry with
  | prompt content queued timestampMs uuid =>
    cases phase with
    | running => by_cases h : uuid ∈ hints.continuations ∨ queued = true <;> simp [h, Phase.wakes]
    | idle | waiting wakes => simp [Phase.wakes]
  | interrupt timestampMs uuid | compaction timestampMs uuid
  | frame frame timestampMs uuid => cases phase <;> simp [Phase.wakes]
  | wake reports queued timestampMs uuid =>
  cases phase with
  | running => cases queued <;> simp [Phase.place, hmark, Phase.wakes, HistoryEntry.isWake]
  | idle | waiting wakes => simp [Phase.place, hmark, HistoryEntry.isWake]

lemma OutlineKeeps.opens (h : OutlineKeeps hints seen o)
    (hplace : o.phase.place hints entry = .opens)
    (hwakes : (o.phase.next hints entry).wakes = []) :
    OutlineKeeps hints (seen ++ [entry]) (o.step hints entry) := by
  unfold Outline.step
  simp only [hplace]
  refine ⟨?_, ?_, ?_, ?_, ?_, ?_, ?_⟩
  · simpa using h.sublist.append (List.Sublist.refl [entry])
  · simp [filter_append, h.messages]
  · intro turn hturn
    rcases mem_concat.mp hturn with hturn | hturn
    · exact h.nonempty turn hturn
    · rw [hturn]
      exact cons_ne_nil _ _
  · intro e he hmark
    rcases mem_concat.mp he with he | he
    · obtain ⟨turn, hturn, hhead⟩ := h.starts e he hmark
      exact ⟨turn, mem_append_left _ hturn, hhead⟩
    · rw [he]
      exact ⟨[entry], mem_concat_self, rfl⟩
  · intro _
    simp
  · rw [hwakes]
    exact nil_suffix
  · rw [hwakes]
    exact fun e he => (nomatch he)

lemma OutlineKeeps.joins (h : OutlineKeeps hints seen o)
    (hplace : o.phase.place hints entry = .joins)
    (hwakes : (o.phase.next hints entry).wakes = []) :
    OutlineKeeps hints (seen ++ [entry]) (o.step hints entry) := by
  obtain ⟨hrun, hmark, hmsg⟩ := running_of_joins hplace
  obtain ⟨front, last, hlast⟩ : ∃ front last, o.turns = front ++ [last] := by
    rcases eq_nil_or_concat o.turns with hnil | ⟨front, last, heq⟩
    · exact absurd hnil (h.running hrun)
    · exact ⟨front, last, by simpa using heq⟩
  have hjoined : joinLast o.turns entry = front ++ [last ++ [entry]] := by
    rw [hlast, joinLast_append]
  have hflatten : (front ++ [last ++ [entry]]).flatten = o.turns.flatten ++ [entry] := by
    rw [hlast]
    simp
  unfold Outline.step
  simp only [hplace, hjoined]
  refine ⟨?_, ?_, ?_, ?_, ?_, ?_, ?_⟩
  · rw [hflatten]
    exact h.sublist.append (List.Sublist.refl [entry])
  · rw [hflatten, filter_append, filter_append, h.messages]
  · intro turn hturn
    rcases mem_concat.mp hturn with hturn | hturn
    · exact h.nonempty turn (by rw [hlast]; exact mem_append_left _ hturn)
    · rw [hturn]
      simp
  · intro e he hmarks
    rcases mem_concat.mp he with he | he
    · obtain ⟨turn, hturn, hhead⟩ := h.starts e he hmarks
      rw [hlast] at hturn
      rcases mem_concat.mp hturn with hturn | hturn
      · exact ⟨turn, mem_append_left _ hturn, hhead⟩
      rw [hturn] at hhead
      refine ⟨last ++ [entry], mem_concat_self, ?_⟩
      rw [head?_append, hhead]
      rfl
    · rw [he, hmark] at hmarks
      cases hmarks
  · intro _
    simp
  · rw [hwakes]
    exact nil_suffix
  · rw [hwakes]
    exact fun e he => (nomatch he)

lemma OutlineKeeps.aside (h : OutlineKeeps hints seen o)
    (hopens : o.phase.place hints entry ≠ .opens) (hjoins : o.phase.place hints entry ≠ .joins)
    (hrun : o.phase.next hints entry = .running → o.phase = .running)
    (hwakes : (o.phase.next hints entry).wakes = [] ∨
      (entry.isWake = true ∧ (o.phase.next hints entry).wakes = o.phase.wakes ++ [entry])) :
    OutlineKeeps hints (seen ++ [entry]) (o.step hints entry) := by
  obtain ⟨hmsg, hmark⟩ := not_message_of_place hopens hjoins
  have hturns : (o.step hints entry).turns = o.turns := by
    unfold Outline.step
    cases hplace : o.phase.place hints entry with
    | opens => exact absurd hplace hopens
    | joins => exact absurd hplace hjoins
    | _ => rfl
  refine ⟨?_, ?_, ?_, ?_, ?_, ?_, ?_⟩
  · rw [hturns]
    exact h.sublist.trans (sublist_append_left _ _)
  · rw [hturns, filter_append, h.messages]
    simp [hmsg]
  · rw [hturns]
    exact h.nonempty
  · intro e he hmarks
    rw [hturns]
    rcases mem_concat.mp he with he | he
    · exact h.starts e he hmarks
    · rw [he, hmark] at hmarks
      cases hmarks
  · intro hnext
    rw [hturns]
    exact h.running (hrun hnext)
  · change (o.phase.next hints entry).wakes <:+ _
    rcases hwakes with hnil | ⟨-, happ⟩
    · rw [hnil]
      exact nil_suffix
    · rw [happ]
      obtain ⟨before, hbef⟩ := h.suffix
      exact ⟨before, by rw [← hbef, append_assoc]⟩
  change ∀ e ∈ (o.phase.next hints entry).wakes, _
  rcases hwakes with hnil | ⟨hwake, happ⟩
  · rw [hnil]
    exact fun e he => (nomatch he)
  rw [happ]
  intro e he
  rcases mem_concat.mp he with he | he
  · exact h.wakes e he
  · rw [he]
    exact ⟨hwake, hmark⟩

lemma OutlineKeeps.step (h : OutlineKeeps hints seen o)
    (entry : HistoryEntry Content Frame Report) :
    OutlineKeeps hints (seen ++ [entry]) (o.step hints entry) := by
  rcases next_spec hints o.phase entry with ⟨hplace, hwake, -, hnext⟩ | ⟨hplace, hnext⟩ |
      ⟨hplace, hnext⟩ | ⟨hplace, hnext⟩ | ⟨hplace, hphase, hnext⟩
  · refine h.aside (by simp [hplace]) (by simp [hplace]) ?_ (.inr ⟨hwake, ?_⟩)
    · rw [hnext]
      exact fun heq => (nomatch heq)
    · rw [hnext]
      rfl
  · refine h.aside (by simp [hplace]) (by simp [hplace]) ?_ (.inl ?_)
    · rw [hnext]
      exact fun heq => (nomatch heq)
    · rw [hnext]
      rfl
  · exact h.opens hplace hnext
  · exact h.joins hplace hnext
  · exact h.aside (by simp [hplace]) (by simp [hplace]) (fun _ => hphase) (.inl hnext)

lemma outline_keeps (hints : SegmentHints) (entries : List (HistoryEntry Content Frame Report)) :
    OutlineKeeps hints entries (outline hints entries) := by
  induction entries using reverseRecOn with
  | nil =>
    exact ⟨List.Sublist.refl _, rfl, fun turn hturn => (nomatch hturn),
      fun e he => (nomatch he), fun h => (nomatch h), nil_suffix, fun e he => (nomatch he)⟩
  | append_singleton entries entry ih =>
    rw [outline_snoc]
    exact ih.step entry

end Outline

/-! ## The segments of a transcript -/

section Segments

variable (hints : SegmentHints) {entries : List (HistoryEntry Content Frame Report)}

lemma segmenter_follows (hnodup : (entries.map HistoryEntry.uuid).Nodup) :
    ∃ done cur, (entries.foldl (Segmenter.add hints) Segmenter.initial).At done cur ∧
      Follows hints entries done cur := by
  induction entries using reverseRecOn with
  | nil =>
    refine ⟨[], none, ⟨rfl, rfl⟩, ⟨rfl, rfl, fun c hc => (nomatch hc), rfl,
      fun c hc => (nomatch hc)⟩⟩
  | append_singleton seen entry ih =>
  rw [map_append, nodup_append] at hnodup
  obtain ⟨hseen, -, hnew⟩ := hnodup
  obtain ⟨done, cur, hat, h⟩ := ih hseen
  rw [foldl_append]
  refine add_follows hat h fun c hc first hfirst heq => ?_
  have hturn : c.entries ∈ (outline hints seen).turns := by
    rw [← h.turns, stretches, hc]
    refine mem_filter.mpr ⟨?_, ?_⟩
    · simp
    · cases hent : c.entries with
      | nil => rw [hent] at hfirst; cases hfirst
      | cons e rest => rfl
  have hmem : first ∈ seen :=
    (outline_keeps hints seen).sublist.subset (mem_flatten.mpr ⟨_, hturn, hfirst⟩)
  exact hnew first.uuid (mem_map_of_mem hmem) entry.uuid (by simp) heq

lemma historySegments_spec (hnodup : (entries.map HistoryEntry.uuid).Nodup) :
    (historySegments entries hints).map HistorySegment.entries = (outline hints entries).turns ∧
      (historySegments entries hints).flatMap deliveredReports ++
          (waiting hints entries).flatMap reportsOf =
        (entries.filter (fun entry => !hints.marks entry)).flatMap reportsOf ∧
      ∀ segment ∈ historySegments entries hints, InPlace segment := by
  obtain ⟨done, cur, hat, h⟩ := segmenter_follows hints hnodup
  have hsegments : historySegments entries hints =
      (done ++ cur.toList).filter (fun segment => !segment.entries.isEmpty) := by
    rw [historySegments, hat.segments]
  refine ⟨?_, ?_, ?_⟩
  · rw [hsegments, ← h.turns, stretches, filter_map]
    rfl
  · rw [← h.reports, hsegments, filter_append, flatMap_append, flatMap_append]
    have hdone : (done.filter (fun segment => !segment.entries.isEmpty)).flatMap deliveredReports =
        done.flatMap deliveredReports := by
      have hset := h.settled
      clear hat h hsegments
      induction done with
      | nil => rfl
      | cons c done ih =>
      have ih := ih fun c' hc' => hset c' (mem_cons_of_mem _ hc')
      by_cases hc : c.entries = []
      · have hrep : deliveredReports c = [] := by
          simp [deliveredReports, hset c mem_cons_self hc]
        simp [hc, ih, hrep]
      · simp [hc, ih]
    rw [hdone, append_assoc]
    congr 1
    have hcur := h.current
    unfold waiting
    cases hp : (outline hints entries).phase with
    | idle =>
      rw [hp] at hcur
      obtain rfl : cur = none := hcur
      rfl
    | waiting wakes =>
      rw [hp] at hcur
      obtain ⟨c, rfl, hnil, hwakes, -⟩ := hcur
      simp [hnil, Phase.wakes, hwakes]
    | running =>
    rw [hp] at hcur
    obtain ⟨c, rfl, hne⟩ := hcur
    simp [hne, Phase.wakes]
  · intro segment hsegment
    rw [hsegments] at hsegment
    exact h.inPlace segment (mem_filter.mp hsegment).1

/-! ## Turn names -/

def namer (records : List TurnRecord) (turn : List (HistoryEntry Content Frame Report)) :
    Option TurnRecord :=
  (recordOf (turn.map HistoryEntry.uuid) records).filter
    (fun record => (parseTurnId record.turnId).isSome)

def ownId (turn : List (HistoryEntry Content Frame Report)) : String :=
  let first := match turn with
    | entry :: _ => entry.uuid
    | [] => ""
  (parseTurnId first).getD "turn"

/-- Two stretches the index tells apart. -/
structure Apart (records : List TurnRecord)
    (a b : List (HistoryEntry Content Frame Report)) : Prop where
  record : ∀ r, namer records a = some r → namer records b ≠ some r
  ids : ∀ r r', namer records a = some r → namer records b = some r' → r ≠ r' → r.turnId ≠ r'.turnId
  left : ∀ r, namer records a = some r → namer records b = none → r.turnId ≠ ownId b
  right : ∀ r, namer records b = some r → namer records a = none → r.turnId ≠ ownId a
  own : namer records a = none → namer records b = none → ownId a = "turn" → ownId b ≠ "turn"

def nameOf (records : List TurnRecord) (turn : List (HistoryEntry Content Frame Report)) :
    String :=
  match namer records turn with
  | some record => record.turnId
  | none => ownId turn

lemma parseTurnId_eq {value id : String} (h : parseTurnId value = some id) : id = value := by
  unfold parseTurnId at h
  split at h
  · exact (Option.some.inj h).symm
  · cases h

variable (records : List TurnRecord)

lemma turnIdentity_name (segment : Segment Content Frame Report) :
    (turnIdentity segment (recordOf (segment.entries.map HistoryEntry.uuid) records)).2 =
      nameOf records segment.entries := by
  unfold turnIdentity nameOf namer
  cases hrecord : recordOf (segment.entries.map HistoryEntry.uuid) records with
  | none => rfl
  | some record =>
  cases hparse : parseTurnId record.turnId with
  | none =>
    simp only [Option.bind_some, hparse, map_none, Option.filter_some, Option.isSome_none,
      Bool.false_eq_true, if_false]
    rfl
  | some id =>
  simp only [Option.bind_some, hparse, map_some, Option.filter_some, Option.isSome_some, if_true]
  exact parseTurnId_eq hparse

lemma nameOf_ne_iff {a b : List (HistoryEntry Content Frame Report)}
    (hfirst : ∀ x y, a.head? = some x → b.head? = some y → x.uuid ≠ y.uuid) (ha : a ≠ [])
    (hb : b ≠ []) : nameOf records a ≠ nameOf records b ↔ Apart records a b := by
  obtain ⟨x, resta, rfl⟩ := exists_cons_of_ne_nil ha
  obtain ⟨y, restb, rfl⟩ := exists_cons_of_ne_nil hb
  have hxy : x.uuid ≠ y.uuid := hfirst x y rfl rfl
  unfold nameOf
  constructor
  · intro hne
    constructor
    · intro r hr hr'
      rw [hr, hr'] at hne
      exact hne rfl
    · intro r r' hr hr' _
      rw [hr, hr'] at hne
      exact hne
    · intro r hr hnone
      rw [hr, hnone] at hne
      exact hne
    · intro r hr hnone
      rw [hr, hnone] at hne
      exact hne.symm
    · intro hna hnb hta htb
      rw [hna, hnb] at hne
      exact hne (hta.trans htb.symm)
  intro h
  cases hna : namer records (x :: resta) with
  | some r =>
    cases hnb : namer records (y :: restb) with
    | some r' =>
      have hrr : r ≠ r' := by
        rintro rfl
        exact h.record r hna hnb
      exact h.ids r r' hna hnb hrr
    | none => exact h.left r hna hnb
  | none =>
  cases hnb : namer records (y :: restb) with
  | some r => exact (h.right r hnb hna).symm
  | none =>
  intro heq
  have heq : ownId (x :: resta) = ownId (y :: restb) := heq
  by_cases hturn : ownId (x :: resta) = "turn"
  · exact h.own hna hnb hturn (heq.symm.trans hturn)
  unfold ownId at heq hturn
  simp only at heq hturn
  cases hpx : parseTurnId x.uuid with
  | none => rw [hpx] at hturn; exact hturn rfl
  | some idx =>
  cases hpy : parseTurnId y.uuid with
  | none =>
    rw [hpx, hpy] at heq
    rw [hpx] at hturn
    exact hturn heq
  | some idy =>
  rw [hpx, hpy] at heq
  simp only [Option.getD_some] at heq
  rw [parseTurnId_eq hpx, parseTurnId_eq hpy] at heq
  exact hxy heq

/-! ## The segmentation of a transcript -/

/-- Nothing is lost, and every turn has a name of its own. -/
structure Segmented (entries : List (HistoryEntry Content Frame Report))
    (records : List TurnRecord) (segments : List (Segment Content Frame Report)) : Prop where
  order : (segments.flatMap HistorySegment.entries).Sublist entries
  messages : (segments.flatMap HistorySegment.entries).filter HistoryEntry.isMessage =
    entries.filter HistoryEntry.isMessage
  /-- The reports are those of the wakes, but of the last ones, that no turn took. -/
  reports : segments.flatMap deliveredReports ++
    (waiting (segmentHints records) entries).flatMap reportsOf = entries.flatMap reportsOf
  last : waiting (segmentHints records) entries <:+ entries ∧
    ∀ entry ∈ waiting (segmentHints records) entries, entry.isWake = true
  inPlace : ∀ segment ∈ segments, InPlace segment
  /-- A turn the index knows starts with its first message. -/
  starts : ∀ record ∈ records, ∀ entry ∈ entries, record.startAnchor = some entry.uuid →
    ∃ segment ∈ segments, segment.entries.head? = some entry
  names : (segments.map (fun segment => (turnIdentity segment
    (recordOf (segment.entries.map HistoryEntry.uuid) records)).2)).Nodup

lemma start?_addHints (hints : SegmentHints) (record : TurnRecord) {uuid : String}
    (h : (hints.start? uuid).isSome = true ∨ record.startAnchor = some uuid) :
    ((addHints hints record).start? uuid).isSome = true := by
  unfold addHints SegmentHints.start? at *
  cases hstart : record.startAnchor with
  | none =>
    rw [hstart] at h
    rcases h with h | h
    · exact h
    · cases h
  | some start =>
  simp only [lookup_cons]
  split
  · rfl
  rename_i hne
  rcases h with h | h
  · exact h
  · rw [hstart] at h
    cases h
    simp at hne

lemma marks_of_startAnchor {records : List TurnRecord} {record : TurnRecord}
    (hmem : record ∈ records) {entry : HistoryEntry Content Frame Report}
    (h : record.startAnchor = some entry.uuid) : (segmentHints records).marks entry = true := by
  unfold SegmentHints.marks segmentHints
  generalize ({ continuations := [], starts := [] } : SegmentHints) = hints
  have hkeep : ∀ (records : List TurnRecord) (hints : SegmentHints),
      (hints.start? entry.uuid).isSome = true →
      ((records.foldl addHints hints).start? entry.uuid).isSome = true := by
    intro records
    induction records with
    | nil => exact fun hints h => h
    | cons r records ih => exact fun hints h => ih _ (start?_addHints hints r (.inl h))
  induction records generalizing hints with
  | nil => cases hmem
  | cons r records ih =>
  rcases mem_cons.mp hmem with rfl | hmem
  · exact hkeep records _ (start?_addHints hints _ (.inr h))
  · exact ih hmem _

/-- A wake that the index marks as the start of a turn carries no report. -/
def MarkedWakesEmpty (records : List TurnRecord)
    (entries : List (HistoryEntry Content Frame Report)) : Prop :=
  ∀ entry ∈ entries, (segmentHints records).marks entry = true → reportsOf entry = []

lemma reports_eq_iff (hints : SegmentHints) (entries : List (HistoryEntry Content Frame Report)) :
    (entries.filter (fun entry => !hints.marks entry)).flatMap reportsOf =
        entries.flatMap reportsOf ↔
      ∀ entry ∈ entries, hints.marks entry = true → reportsOf entry = [] := by
  constructor
  · intro heq
    have hleng : ∀ (l : List (HistoryEntry Content Frame Report)),
        ((l.filter (fun entry => !hints.marks entry)).flatMap reportsOf).length ≤
          (l.flatMap reportsOf).length := by
      intro l
      induction l with
      | nil => exact Nat.le_refl _
      | cons e l ih =>
      by_cases hmark : hints.marks e = true
      · simp only [filter_cons, hmark, Bool.not_true, Bool.false_eq_true, if_false,
          flatMap_cons, length_append]
        omega
      · simp only [filter_cons, hmark, Bool.not_false, if_true, flatMap_cons, length_append]
        omega
    intro entry hmem hmark
    obtain ⟨before, after, rfl⟩ := append_of_mem hmem
    have hlen := congrArg length heq
    have hb := hleng before
    have ha := hleng after
    simp only [filter_append, filter_cons, hmark, Bool.not_true, Bool.false_eq_true,
      if_false, flatMap_append, flatMap_cons, length_append] at hlen
    have hzero : (reportsOf entry).length = 0 := by omega
    exact eq_nil_of_length_eq_zero hzero
  intro h
  induction entries with
  | nil => rfl
  | cons entry entries ih =>
  have ih := ih fun e he => h e (mem_cons_of_mem _ he)
  by_cases hmark : hints.marks entry = true
  · simp [hmark, ih, h entry mem_cons_self hmark]
  · simp [hmark, ih]

lemma turns_first (hints : SegmentHints) {entries : List (HistoryEntry Content Frame Report)}
    (hnodup : (entries.map HistoryEntry.uuid).Nodup) :
    (outline hints entries).turns.Pairwise (fun a b =>
      ∀ x y, a.head? = some x → b.head? = some y → x.uuid ≠ y.uuid) := by
  have hsub := (outline_keeps hints entries).sublist.map HistoryEntry.uuid
  have hflat := hnodup.sublist hsub
  rw [map_flatten, nodup_flatten] at hflat
  refine (pairwise_map.mp hflat.2).imp fun {a b} hab x y hx hy heq => ?_
  have hxa : x.uuid ∈ a.map HistoryEntry.uuid := mem_map_of_mem (mem_of_mem_head? hx)
  have hyb : y.uuid ∈ b.map HistoryEntry.uuid := mem_map_of_mem (mem_of_mem_head? hy)
  exact hab hxa (heq ▸ hyb)

lemma turns_apart_iff (hnodup : (entries.map HistoryEntry.uuid).Nodup) :
    (outline hints entries).turns.Pairwise (Apart records) ↔
      ((outline hints entries).turns.map (nameOf records)).Nodup := by
  rw [List.Nodup, pairwise_map]
  have hfirst := turns_first hints hnodup
  have hnonempty := (outline_keeps hints entries).nonempty
  constructor
  · intro h
    refine (pairwise_and_iff.mpr ⟨h, hfirst⟩).imp_of_mem fun {a b} ha hb hab => ?_
    exact (nameOf_ne_iff records hab.2 (hnonempty a ha) (hnonempty b hb)).mpr hab.1
  · intro h
    refine (pairwise_and_iff.mpr ⟨h, hfirst⟩).imp_of_mem fun {a b} ha hb hab => ?_
    exact (nameOf_ne_iff records hab.2 (hnonempty a ha) (hnonempty b hb)).mp hab.1

/-- A transcript is segmented without loss exactly when the index tells the stretches apart. -/
theorem historySegments_segmented_iff (records : List TurnRecord)
    (hnodup : (entries.map HistoryEntry.uuid).Nodup) :
    Segmented entries records (historySegments entries (segmentHints records)) ↔
      MarkedWakesEmpty records entries ∧
        (outline (segmentHints records) entries).turns.Pairwise (Apart records) := by
  obtain ⟨hturns, hrep, hplaces⟩ := historySegments_spec (segmentHints records) hnodup
  have hkeeps := outline_keeps (segmentHints records) entries
  have hflat : (historySegments entries (segmentHints records)).flatMap HistorySegment.entries =
      (outline (segmentHints records) entries).turns.flatten := by
    rw [← hturns, flatMap_def]
  have hlost : (historySegments entries (segmentHints records)).flatMap deliveredReports ++
      (waiting (segmentHints records) entries).flatMap reportsOf = entries.flatMap reportsOf ↔
        MarkedWakesEmpty records entries := by
    rw [hrep]
    exact reports_eq_iff _ _
  have hnames : ((historySegments entries (segmentHints records)).map (fun segment =>
      (turnIdentity segment (recordOf (segment.entries.map HistoryEntry.uuid) records)).2)).Nodup ↔
      (outline (segmentHints records) entries).turns.Pairwise (Apart records) := by
    have hmap : (historySegments entries (segmentHints records)).map (fun segment =>
        (turnIdentity segment (recordOf (segment.entries.map HistoryEntry.uuid) records)).2) =
        (outline (segmentHints records) entries).turns.map (nameOf records) := by
      rw [← hturns, map_map]
      exact map_congr_left fun segment _ => turnIdentity_name records segment
    rw [hmap]
    exact (turns_apart_iff _ records hnodup).symm
  constructor
  · intro h
    exact ⟨hlost.mp h.reports, hnames.mp h.names⟩
  rintro ⟨hmarked, happart⟩
  refine ⟨?_, ?_, hlost.mpr hmarked, ⟨hkeeps.suffix, fun e he => (hkeeps.wakes e he).1⟩, hplaces,
    ?_, hnames.mpr happart⟩
  · rw [hflat]
    exact hkeeps.sublist
  · rw [hflat]
    exact hkeeps.messages
  intro record hmem entry hentry hstart
  obtain ⟨turn, hturn, hhead⟩ :=
    hkeeps.starts entry hentry (marks_of_startAnchor hmem hstart)
  rw [← hturns] at hturn
  obtain ⟨segment, hsegment, rfl⟩ := mem_map.mp hturn
  exact ⟨segment, hsegment, hhead⟩

end Segments

/-! ## A record with anchors on both sides of an interrupt -/

abbrev PlainEntry := HistoryEntry Unit Unit String

def steeredRecord : TurnRecord :=
  { anchors := ["u1", "a1", "s1"], origin := .user,
    prompts := [{ role := .first, uuid := some "u1" }, { role := .steer, uuid := some "s1" }],
    turnId := "turn-1" }

/-- The steer aborted the request: Claude wrote an interrupt marker before it. -/
def steeredEntries : List PlainEntry :=
  [.prompt () false 1 "u1", .frame () 2 "a1", .interrupt 3 "i1", .prompt () false 4 "s1",
    .frame () 5 "a2"]

/-- The marker ends the turn, the steer opens another, and both have the record's id. -/
theorem steered_turn_twice :
    (steeredEntries.map HistoryEntry.uuid).Nodup ∧
      rebuiltTurnIds steeredEntries [steeredRecord] = ["turn-1", "turn-1"] ∧
      ¬ Segmented steeredEntries [steeredRecord]
        (historySegments steeredEntries (segmentHints [steeredRecord])) := by
  have hids : rebuiltTurnIds steeredEntries [steeredRecord] = ["turn-1", "turn-1"] := by
    decide
  refine ⟨by decide, hids, fun h => ?_⟩
  have hnodup := h.names
  change (rebuiltTurnIds steeredEntries [steeredRecord]).Nodup at hnodup
  rw [hids] at hnodup
  exact absurd hnodup (by decide)

/-- A wake's turn between two turns of the person. -/
def wokenEntries : List PlainEntry :=
  [.prompt () false 1 "u1", .frame () 2 "a1", .wake ["built"] false 3 "w1", .frame () 4 "a2",
    .prompt () false 5 "u2", .wake ["tested"] true 6 "w2", .wake ["late"] false 7 "w3"]

theorem wokenEntries_segmented :
    Segmented wokenEntries [steeredRecord]
      (historySegments wokenEntries (segmentHints [steeredRecord])) := by
  refine (historySegments_segmented_iff [steeredRecord] (by decide)).mpr ⟨?_, ?_⟩
  · unfold MarkedWakesEmpty
    decide
  · refine (turns_apart_iff _ [steeredRecord] (by decide)).mpr ?_
    decide

end CodeWide.Transcript
