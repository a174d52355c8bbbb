import Mathlib.Data.List.Basic

/-!
# The turns of a stored transcript

`transcript/segments.rs` derives the turns from the classified entries and the turn index
(`transcript/turn_index.rs`); `transcript/reconstruct.rs` names them.
-/

namespace CodeWide.Transcript

inductive TurnOrigin where
  | user
  | provider
deriving DecidableEq

inductive TaskNotificationDelivery where
  | wake
  | midTurn
deriving DecidableEq

inductive HistoryEntry (Content Frame Report : Type) where
  | prompt (content : Content) (queued : Bool) (timestampMs : Int) (uuid : String)
  | interrupt (timestampMs : Int) (uuid : String)
  | wake (reports : List Report) (queued : Bool) (timestampMs : Int) (uuid : String)
  | compaction (timestampMs : Int) (uuid : String)
  | frame (frame : Frame) (timestampMs : Int) (uuid : String)

variable {Content Frame Report : Type}

def HistoryEntry.uuid : HistoryEntry Content Frame Report → String
  | .prompt _ _ _ uuid => uuid
  | .interrupt _ uuid => uuid
  | .wake _ _ _ uuid => uuid
  | .compaction _ uuid => uuid
  | .frame _ _ uuid => uuid

structure SegmentReport (Report : Type) where
  delivery : TaskNotificationDelivery
  report : Report
  position : Nat

structure HistorySegment (Content Frame Report : Type) where
  entries : List (HistoryEntry Content Frame Report)
  interrupted : Bool
  origin : TurnOrigin
  reports : List (SegmentReport Report)

structure SegmentHints where
  continuations : List String
  starts : List (String × TurnOrigin)

def SegmentHints.start? (hints : SegmentHints) (uuid : String) : Option TurnOrigin :=
  hints.starts.lookup uuid

def afterPrompt : Nat := 1

structure Segmenter (Content Frame Report : Type) where
  segments : List (HistorySegment Content Frame Report)
  opened : Option Nat

namespace Segmenter

def entriesAt (s : Segmenter Content Frame Report) (index : Nat) :
    List (HistoryEntry Content Frame Report) :=
  match s.segments[index]? with
  | some segment => segment.entries
  | none => []

def openWithoutMessages (s : Segmenter Content Frame Report) : Option Nat :=
  s.opened.filter (fun index => (s.entriesAt index).isEmpty)

def delivered (origin : TurnOrigin) (reports : List (SegmentReport Report)) :
    List (SegmentReport Report) :=
  match origin with
  | .provider => reports
  | .user => reports.map (fun report =>
      { report with delivery := .midTurn, position := afterPrompt })

def carried (s : Segmenter Content Frame Report) (origin : TurnOrigin) :
    Segmenter Content Frame Report × List (SegmentReport Report) :=
  match s.openWithoutMessages with
  | none => (s, [])
  | some previous =>
    let reports := match s.segments[previous]? with
      | some segment => segment.reports
      | none => []
    ({ s with segments := s.segments.modify previous (fun segment => { segment with reports := [] }) },
      delivered origin reports)

def start (s : Segmenter Content Frame Report) (origin : TurnOrigin)
    (first : Option (HistoryEntry Content Frame Report)) : Segmenter Content Frame Report × Nat :=
  let (s, reports) := s.carried origin
  let entries := first.toList
  let interrupted := false
  let index := s.segments.length
  ({ segments := s.segments ++ [{ entries, interrupted, origin, reports }], opened := some index },
    index)

def append (s : Segmenter Content Frame Report) (entry : HistoryEntry Content Frame Report)
    (origin : TurnOrigin) : Segmenter Content Frame Report :=
  match s.opened with
  | some index =>
    { s with
      segments := s.segments.modify index
        (fun segment => { segment with entries := segment.entries ++ [entry] }) }
  | none => (s.start origin (some entry)).1

def openWithMessages (s : Segmenter Content Frame Report) : Option Nat :=
  s.opened.filter (fun index => !(s.entriesAt index).isEmpty)

def addReports (s : Segmenter Content Frame Report) (index : Nat)
    (reports : List (SegmentReport Report)) : Segmenter Content Frame Report :=
  { s with
    segments := s.segments.modify index
      (fun segment => { segment with reports := segment.reports ++ reports }) }

def wake (s : Segmenter Content Frame Report) (queued : Bool) (reports : List Report) :
    Segmenter Content Frame Report :=
  match (if queued then s.openWithMessages else none) with
  | some index =>
    let delivery := TaskNotificationDelivery.midTurn
    let position := (s.entriesAt index).length
    s.addReports index (reports.map (fun report => { delivery, report, position }))
  | none =>
    let (s, woken) := match s.openWithoutMessages with
      | some index => (s, index)
      | none => s.start .provider none
    let delivery := TaskNotificationDelivery.wake
    let position := 0
    s.addReports woken (reports.map (fun report => { delivery, report, position }))

def interrupt (s : Segmenter Content Frame Report) (marker : HistoryEntry Content Frame Report) :
    Segmenter Content Frame Report :=
  match s.opened with
  | some index =>
    { segments := s.segments.modify index (fun segment =>
        { segment with
          interrupted := true
          entries := if segment.entries.isEmpty then [marker] else segment.entries }),
      opened := none }
  | none => s

def alreadyFirst (s : Segmenter Content Frame Report) (uuid : String) : Bool :=
  match s.opened with
  | some index => (s.entriesAt index).head?.any (fun first => decide (first.uuid = uuid))
  | none => false

def addPlain (s : Segmenter Content Frame Report) (hints : SegmentHints)
    (entry : HistoryEntry Content Frame Report) : Segmenter Content Frame Report :=
  match entry with
  | .prompt _ queued _ uuid =>
    if uuid ∈ hints.continuations ∨ (queued ∧ s.opened.isSome) then s.append entry .user
    else (s.start .user (some entry)).1
  | .wake reports queued _ _ => s.wake queued reports
  | .interrupt _ _ => s.interrupt entry
  | .compaction _ _ => s.append entry .provider
  | .frame _ _ _ => s.append entry .provider

def add (hints : SegmentHints) (s : Segmenter Content Frame Report)
    (entry : HistoryEntry Content Frame Report) : Segmenter Content Frame Report :=
  match hints.start? entry.uuid with
  | some origin =>
    if s.alreadyFirst entry.uuid then s.addPlain hints entry
    else (s.start origin (some entry)).1
  | none => s.addPlain hints entry

def initial : Segmenter Content Frame Report := { segments := [], opened := none }

end Segmenter

def historySegments (entries : List (HistoryEntry Content Frame Report)) (hints : SegmentHints) :
    List (HistorySegment Content Frame Report) :=
  (entries.foldl (Segmenter.add hints) Segmenter.initial).segments.filter
    (fun segment => !segment.entries.isEmpty)

inductive PromptRole where
  | first
  | resend
  | steer
deriving DecidableEq

structure PromptRecord where
  role : PromptRole
  uuid : Option String

/-- What the index knows of a turn, as far as segments and names need it. -/
structure TurnRecord where
  anchors : List String
  origin : TurnOrigin
  prompts : List PromptRecord
  turnId : String

def TurnRecord.startAnchor (record : TurnRecord) : Option String :=
  match record.origin with
  | .user =>
    (record.prompts.find? (fun prompt => decide (prompt.role = .first))).bind PromptRecord.uuid
  | .provider =>
    record.anchors.find? (fun anchor =>
      !record.prompts.any (fun prompt => decide (prompt.uuid = some anchor)))

def TurnRecord.continuations (record : TurnRecord) : List String :=
  record.prompts.filterMap (fun prompt => if prompt.role = .first then none else prompt.uuid)

def addHints (hints : SegmentHints) (record : TurnRecord) : SegmentHints :=
  let starts := match record.startAnchor with
    | some start => (start, record.origin) :: hints.starts
    | none => hints.starts
  let continuations := hints.continuations ++ record.continuations
  { continuations, starts }

def segmentHints (records : List TurnRecord) : SegmentHints :=
  records.foldl addHints { continuations := [], starts := [] }

def recordOf (uuids : List String) (records : List TurnRecord) : Option TurnRecord :=
  records.find? (fun record => record.anchors.any (fun anchor => decide (anchor ∈ uuids)))

def parseTurnId (value : String) : Option String :=
  if value ≠ "" ∧ value.utf8ByteSize ≤ 512 then some value else none

def turnIdentity (segment : HistorySegment Content Frame Report) (record : Option TurnRecord) :
    TurnOrigin × String :=
  match record.bind (fun record => (parseTurnId record.turnId).map (fun id => (record.origin, id))) with
  | some identity => identity
  | none =>
    let first := match segment.entries with
      | entry :: _ => entry.uuid
      | [] => ""
    (segment.origin, (parseTurnId first).getD "turn")

def rebuiltTurnIds (entries : List (HistoryEntry Content Frame Report))
    (records : List TurnRecord) : List String :=
  (historySegments entries (segmentHints records)).map (fun segment =>
    (turnIdentity segment (recordOf (segment.entries.map HistoryEntry.uuid) records)).2)

end CodeWide.Transcript
