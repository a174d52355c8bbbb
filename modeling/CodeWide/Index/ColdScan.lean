import CodeWide.Index.Records
import CodeWide.Lib.Timeline

/-!
# The cold reverse scan

`visit_logical_turns_reverse` reads a file newest record first, without an index.
-/

namespace CodeWide.Index

open Lib Lib.Saturating List

/-- Whether records may still be appended after the end of the scanned file. -/
inductive FileEnd where
  | live
  | frozen

/-- Where the newest turn ends while nothing closes it. -/
def FileEnd.openEnd (fileEnd : FileEnd) (durable : Nat) : Nat :=
  match fileEnd with
  | .live => 0
  | .frozen => durable

def visitTurns {σ : Type} (visit : σ → TurnRef → σ × Bool) :
    Backward → List TurnRef → List Placed → σ → σ
  | _, pending, [], acc => (drain visit pending acc).1
  | b, pending, r :: older, acc =>
    match r.line with
    | .standalone id =>
      let turn : TurnRef :=
        { id := id, startOffset := r.start, endOffset := r.stop, completed := true }
      visitTurns visit b (pending ++ [turn]) older acc
    | .boundary (.rollback count) =>
      visitTurns visit { b with skipped := add64 b.skipped count } pending older acc
    | .boundary (.terminal turnId completed) =>
      match drain visit pending acc with
      | (acc, true) =>
        visitTurns visit { b with terminal := some (turnId, r.stop, completed) } [] older acc
      | (acc, false) => acc
    | .boundary (.started id) =>
      if 0 < b.skipped then visitTurns visit (b.afterStart r.start) [] older acc
      else
        match visit acc (b.turn id r.start) with
        | (acc, true) => visitTurns visit (b.afterStart r.start) [] older acc
        | (acc, false) => acc
    | .other => visitTurns visit b pending older acc

def visitLogicalTurnsReverse {σ : Type} (visit : σ → TurnRef → σ × Bool) (fileEnd : FileEnd)
    (durable : Nat) (records : List Placed) (acc : σ) : σ :=
  visitTurns visit { skipped := 0, nextStart := fileEnd.openEnd durable, terminal := none } []
    records acc

def visited (fileEnd : FileEnd) (durable : Nat) (records : List Placed) : List TurnRef :=
  visitLogicalTurnsReverse (fun turns turn => (turns ++ [turn], true)) fileEnd durable records []

/-- The state of a backward reading once `newer` is read; `newer` is in file order. -/
def backwardOf (openEnd : Nat) : List Placed → Backward
  | [] => { skipped := 0, nextStart := openEnd, terminal := none }
  | r :: newer =>
    let b := backwardOf openEnd newer
    match r.line with
    | .boundary (.rollback count) => { b with skipped := add64 b.skipped count }
    | .boundary (.terminal turnId completed) => { b with terminal := some (turnId, r.stop, completed) }
    | .boundary (.started _) => b.afterStart r.start
    | _ => b

/-- Whether, going back, a terminal or the start of the file is met before a turn start. -/
def afterTerminal : List Placed → Bool
  | [] => true
  | r :: older =>
    match r.line with
    | .boundary (.terminal _ _) => true
    | .boundary (.started _) => false
    | _ => afterTerminal older

def taskView (openEnd : Nat) (_older newer : List Placed) (r : Placed) : Option TurnRef :=
  match r.line with
  | .boundary (.started id) =>
    if 0 < (backwardOf openEnd newer).skipped then none
    else some ((backwardOf openEnd newer).turn id r.start)
  | _ => none

def coldView (openEnd : Nat) (older newer : List Placed) (r : Placed) : Option TurnRef :=
  match r.line with
  | .standalone id =>
    if afterTerminal older then
      some { id := id, startOffset := r.start, endOffset := r.stop, completed := true }
    else none
  | _ => taskView openEnd older newer r

section Drain

variable {σ : Type} {visit : σ → TurnRef → σ × Bool}

lemma drain_append (ts us : List TurnRef) (acc : σ) : drain visit (ts ++ us) acc =
      if (drain visit ts acc).2 then drain visit us (drain visit ts acc).1
      else drain visit ts acc := by
  induction ts generalizing acc with
  | nil => simp [drain]
  | cons t ts ih =>
  rw [cons_append, drain, drain]
  rcases visit acc t with ⟨acc', _ | _⟩
  · simp
  · exact ih acc'

lemma drain_collect (ts acc : List TurnRef) :
    drain (fun turns turn => (turns ++ [turn], true)) ts acc = (acc ++ ts, true) := by
  induction ts generalizing acc with
  | nil => simp [drain]
  | cons t ts ih => simp [drain, ih]

end Drain

section Visits

variable {σ : Type} (visit : σ → TurnRef → σ × Bool) (openEnd : Nat)

variable (older newer : List Placed)

lemma visitTaskTurns_eq (acc : σ) : visitTaskTurns visit (backwardOf openEnd newer) older acc =
      (drain visit (timeline (taskView openEnd) older newer) acc).1 := by
  induction older generalizing newer acc with
  | nil => rfl
  | cons r older ih =>
  have hrest := ih (r :: newer)
  rw [visitTaskTurns, timeline]
  rcases hl : r.line with (⟨id⟩ | ⟨id, completed⟩ | count) | id | _
  · have hb : backwardOf openEnd (r :: newer) = (backwardOf openEnd newer).afterStart r.start := by
      simp [backwardOf, hl]
    rw [hb] at hrest
    simp only [taskView, hl]
    split
    · simpa using hrest acc
    simp only [Option.toList_some, cons_append, nil_append, drain]
    rcases visit acc ((backwardOf openEnd newer).turn id r.start) with ⟨acc', _ | _⟩
    · rfl
    · exact hrest acc'
  all_goals simpa [backwardOf, taskView, hl] using hrest acc

lemma visitTurns_eq (pending : List TurnRef) (acc : σ) :
    visitTurns visit (backwardOf openEnd newer) pending older acc =
      (drain visit ((if afterTerminal older then pending else []) ++
        timeline (coldView openEnd) older newer) acc).1 := by
  induction older generalizing newer pending acc with
  | nil => simp [visitTurns, afterTerminal, timeline]
  | cons r older ih =>
  rw [visitTurns, timeline]
  rcases hl : r.line with (⟨id⟩ | ⟨id, completed⟩ | count) | id | _
  · have hb : backwardOf openEnd (r :: newer) = (backwardOf openEnd newer).afterStart r.start := by
      simp [backwardOf, hl]
    have hrest := ih (r :: newer) []
    rw [hb] at hrest
    simp only [coldView, taskView, afterTerminal, hl, ite_self, nil_append,
      Bool.false_eq_true, if_false] at hrest ⊢
    split
    · simpa using hrest acc
    simp only [Option.toList_some, cons_append, nil_append, drain]
    rcases visit acc ((backwardOf openEnd newer).turn id r.start) with ⟨acc', _ | _⟩
    · rfl
    · exact hrest acc'
  · -- a terminal shows the standalone records that wait
    have hrest := ih (r :: newer) []
    simp only [backwardOf, hl, ite_self, nil_append] at hrest
    simp only [coldView, taskView, afterTerminal, hl, if_true, Option.toList_none,
      nil_append, drain_append]
    rcases drain visit pending acc with ⟨acc', _ | _⟩
    · rfl
    · exact hrest acc'
  · simpa [backwardOf, coldView, taskView, afterTerminal, hl] using ih (r :: newer) pending acc
  · have hrest := ih (r :: newer)
      (pending ++ [{ id := id, startOffset := r.start, endOffset := r.stop, completed := true }])
      acc
    simp only [backwardOf, hl] at hrest
    refine hrest.trans ?_
    simp only [coldView, afterTerminal, hl]
    cases afterTerminal older <;> simp
  · simpa [backwardOf, coldView, taskView, afterTerminal, hl] using ih (r :: newer) pending acc

end Visits

lemma visitLogicalTaskTurnsReverse_eq {σ : Type} (visit : σ → TurnRef → σ × Bool)
    (records : List Placed) (acc : σ) :
    visitLogicalTaskTurnsReverse visit records acc =
      (drain visit (timeline (taskView 0) records []) acc).1 :=
  visitTaskTurns_eq visit 0 records [] acc

lemma visited_eq (fileEnd : FileEnd) (durable : Nat) (records : List Placed) :
    visited fileEnd durable records = timeline (coldView (fileEnd.openEnd durable)) records [] := by
  have h := visitTurns_eq (fun turns turn => (turns ++ [turn], true)) (fileEnd.openEnd durable)
    records [] [] []
  simp only [ite_self, nil_append, drain_collect] at h
  exact h

lemma visitLogicalTurnsReverse_eq {σ : Type} (visit : σ → TurnRef → σ × Bool)
    (fileEnd : FileEnd) (durable : Nat) (records : List Placed) (acc : σ) :
    visitLogicalTurnsReverse visit fileEnd durable records acc =
      (drain visit (visited fileEnd durable records) acc).1 := by
  have h := visitTurns_eq visit (fileEnd.openEnd durable) records [] [] acc
  simp only [ite_self, nil_append] at h
  rw [visited_eq]
  exact h

end CodeWide.Index
