import CodeWide.Lib.Run
import CodeWide.Lib.Text
import CodeWide.ThreadList.Rows

/-!
# The text of streaming answers

`thread_list/preview.rs`: the streamed text of the answer in each thread, up to a number of
characters, is the preview of the thread's row.
-/

namespace CodeWide.ThreadList

open Lib Table Option

def maxPreviewChars : Nat := 2000

/-- The agent message that streams in a thread; `chars` counts the characters of `text`. -/
structure StreamingAnswer where
  itemId : String
  text : List Char := []
  chars : Nat := 0

namespace StreamingAnswer

def append (a : StreamingAnswer) (delta : List Char) : StreamingAnswer :=
  { a with
    text := a.text ++ delta.take (maxPreviewChars - a.chars)
    chars := a.chars + (delta.take (maxPreviewChars - a.chars)).length }

def preview? (before after : StreamingAnswer) : Option String :=
  if after.chars ≠ before.chars ∧ Text.trimChars after.text ≠ [] then some (String.ofList after.text)
  else none

end StreamingAnswer

abbrev PreviewTracker : Type := Table String StreamingAnswer

inductive PreviewSignal where
  | delta
  | itemCompleted
  | ended
  | other
deriving DecidableEq

def PreviewSignal.ofMethod (method : String) : PreviewSignal :=
  if method = "item/agentMessage/delta" then .delta
  else if method = "item/completed" then .itemCompleted
  else if method = "turn/completed" ∨ method = "thread/deleted" then .ended
  else .other

namespace PreviewTracker

/-- The table a delta of the thread finds: emptied when the thread is new and it is full. -/
def makeRoom (t : PreviewTracker) (threadId : String) : PreviewTracker :=
  if t.contains threadId = false ∧ maxTrackedRows ≤ t.size then ∅ else t

def openAnswer (t : PreviewTracker) (threadId itemId : String) : StreamingAnswer :=
  ((t.get? threadId).filter (fun a => decide (a.itemId = itemId))).getD { itemId := itemId }

def push (t : PreviewTracker) (threadId itemId : String) (delta : List Char) :
    PreviewTracker × Option String :=
  let room := t.makeRoom threadId
  let answer := room.openAnswer threadId itemId
  (room.insert threadId (answer.append delta), answer.preview? (answer.append delta))

end PreviewTracker

def PreviewTracker.observe (t : PreviewTracker) (payload : Json) : PreviewTracker × Option String :=
  match payload.method?, payload.get? "params" with
  | some method, some params =>
    match (params.get? "threadId").bind Json.asStr? with
    | none => (t, none)
    | some threadId =>
      match PreviewSignal.ofMethod method with
      | .delta =>
        match (params.get? "itemId").bind Json.asStr?, (params.get? "delta").bind Json.asStr? with
        | some itemId, some delta => t.push threadId itemId delta.toList
        | _, _ => (t, none)
      | .itemCompleted =>
        if (t.get? threadId).any (fun answer => decide (some answer.itemId =
            ((params.get? "item").bind (·.get? "id")).bind Json.asStr?)) then
          (t.erase threadId, none)
        else (t, none)
      | .ended => (t.erase threadId, none)
      | .other => (t, none)
  | _, _ => (t, none)

structure PreviewFeed where
  tracker : PreviewTracker := ∅
  shown : String → Option String := fun _ => none

def feedPreview (f : PreviewFeed) (payload : Json) : PreviewFeed :=
  { tracker := (f.tracker.observe payload).1
    shown :=
      match ((payload.get? "params").bind (·.get? "threadId")).bind Json.asStr?,
        (f.tracker.observe payload).2 with
      | some threadId, some preview => Function.update f.shown threadId (some preview)
      | _, _ => f.shown }

lemma StreamingAnswer.append_append (a : StreamingAnswer) (d e : List Char) :
    (a.append d).append e = a.append (d ++ e) := by
  unfold append
  dsimp only
  rw [Text.take_append_take d e, ← Nat.sub_sub, List.append_assoc, List.length_append, Nat.add_assoc]

lemma StreamingAnswer.preview?_append (a : StreamingAnswer) (d e : List Char) :
    a.preview? (a.append (d ++ e)) =
      ((a.append d).preview? ((a.append d).append e)).or (a.preview? (a.append d)) := by
  rw [← append_append]
  have hfirst : (a.append d).chars = a.chars + (d.take (maxPreviewChars - a.chars)).length := rfl
  generalize hb : a.append d = b at hfirst ⊢
  have hchars : (b.append e).chars = b.chars + (e.take (maxPreviewChars - b.chars)).length := rfl
  by_cases hgrew : (b.append e).chars = b.chars
  · -- Nothing was appended.
    have hnil : e.take (maxPreviewChars - b.chars) = [] := List.length_eq_zero_iff.mp (by omega)
    have hsame : b.append e = b := by
      unfold append
      rw [hnil, List.append_nil]
      rfl
    rw [hsame]
    conv_rhs => arg 1; unfold preview?
    rw [if_neg (fun h => h.1 rfl), none_or]
  by_cases hblank : Text.trimChars (b.append e).text = []
  · have hbef : Text.trimChars b.text = [] := Text.trimChars_eq_nil_of_append hblank
    unfold preview?
    rw [if_neg (fun h => h.2 hblank), if_neg (fun h => h.2 hblank), if_neg (fun h => h.2 hbef)]
    rfl
  · unfold preview?
    rw [if_pos ⟨by omega, hblank⟩, if_pos ⟨hgrew, hblank⟩, some_or]

namespace PreviewTracker

lemma openAnswer_itemId (t : PreviewTracker) (threadId itemId : String) :
    (t.openAnswer threadId itemId).itemId = itemId := by
  unfold openAnswer
  cases hfound : (t.get? threadId).filter (fun a => decide (a.itemId = itemId)) with
  | none => rfl
  | some a => exact of_decide_eq_true (filter_eq_some_iff.mp hfound).2

lemma openAnswer_insert {t : PreviewTracker} {threadId itemId : String} {a : StreamingAnswer}
    (h : a.itemId = itemId) :
    openAnswer (makeRoom (t.insert threadId a) threadId) threadId itemId = a ∧
      makeRoom (t.insert threadId a) threadId = t.insert threadId a := by
  have hget : (t.insert threadId a).get? threadId = some a := get?_insert_self t threadId a
  have hroom : makeRoom (t.insert threadId a) threadId = t.insert threadId a := by
    unfold makeRoom
    rw [contains, hget]
    exact if_neg (by simp)
  refine ⟨?_, hroom⟩
  unfold openAnswer
  rw [hroom, hget, filter_some, if_pos (decide_eq_true h), getD_some]

lemma push_push (t : PreviewTracker) (threadId itemId : String) (d e : List Char) :
    ((t.push threadId itemId d).1.push threadId itemId e).1 = (t.push threadId itemId (d ++ e)).1 ∧
      (t.push threadId itemId (d ++ e)).2 =
        ((t.push threadId itemId d).1.push threadId itemId e).2.or
          (t.push threadId itemId d).2 := by
  unfold push
  dsimp only
  have hid := openAnswer_itemId (t.makeRoom threadId) threadId itemId
  generalize (t.makeRoom threadId).openAnswer threadId itemId = answer at hid ⊢
  obtain ⟨hopen, hroom⟩ := @openAnswer_insert (t.makeRoom threadId) threadId itemId
    (answer.append d) hid
  rw [hopen, hroom, StreamingAnswer.preview?_append, StreamingAnswer.append_append]
  refine ⟨ext_get? (fun id => ?_), rfl⟩
  rw [get?_insert, get?_insert, get?_insert]
  split <;> rfl

end PreviewTracker

end CodeWide.ThreadList
