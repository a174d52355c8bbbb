import CodeWide.Activity.Published

/-!
# A summary text in pieces

The tracker keeps the beginning of a reasoning summary until it finds a header in it or the window
is full.
-/

namespace CodeWide.Activity

open Lib Option Table ThreadState

lemma firstBold_append {text : List Char} {title : String} (h : firstBold text = some title)
    (more : List Char) : firstBold (text ++ more) = some title := by
  unfold firstBold at h ⊢
  obtain ⟨⟨before, rest⟩, hfirst, h⟩ := bind_eq_some_iff.mp h
  obtain ⟨⟨bold, after⟩, hsnd, hlabel⟩ := bind_eq_some_iff.mp h
  dsimp only at hsnd hlabel
  rw [Text.splitOnce_append hfirst, bind_some, Text.splitOnce_append hsnd, bind_some]
  exact hlabel

def ReasoningPart.forget (part : ReasoningPart) : ReasoningPart :=
  if part.settled then { part with text := [] } else part

def ThreadState.forget (s : ThreadState) : ThreadState :=
  { s with reasoning := s.reasoning.map ReasoningPart.forget }

variable (part : ReasoningPart)

lemma ReasoningPart.forget_forget : part.forget.forget = part.forget := by
  obtain ⟨itemId, summaryIndex, text, settled⟩ := part
  cases settled <;> rfl

variable (s : ThreadState)

lemma ThreadState.forget_forget : s.forget.forget = s.forget := by
  unfold forget
  rw [map_map]
  congr 2
  funext part
  exact part.forget_forget

@[simp] lemma ThreadState.forget_published : s.forget.published = s.published := rfl

@[simp] lemma ThreadState.forget_effective : s.forget.effective = s.effective := rfl

@[simp] lemma ThreadState.forget_isIdle : s.forget.isIdle = s.isIdle := by
  unfold isIdle forget
  dsimp only
  rw [isNone_map]

lemma ThreadState.forget_publish : s.publish.forget = s.forget.publish := rfl

lemma ReasoningPart.extend_forget (delta : List Char) :
    (part.forget.extend delta).1.forget = (part.extend delta).1.forget ∧
      (part.forget.extend delta).2 = (part.extend delta).2 := by
  by_cases hset : part.settled = true
  · have hforget : part.forget = { part with text := [] } := if_pos hset
    unfold extend
    rw [if_pos hset, if_pos (by rw [hforget]; exact hset)]
    exact ⟨part.forget_forget, rfl⟩
  · have hsame : part.forget = part := if_neg hset
    rw [hsame]
    exact ⟨rfl, rfl⟩

variable (reasoning : Option ReasoningPart)

lemma openPart_forget (part : String × Int) :
    openPart (reasoning.map ReasoningPart.forget) part = (openPart reasoning part).forget := by
  cases reasoning with
  | none => rfl
  | some p =>
  have hids : p.forget.itemId = p.itemId ∧ p.forget.summaryIndex = p.summaryIndex := by
    unfold ReasoningPart.forget
    split <;> exact ⟨rfl, rfl⟩
  dsimp only [openPart, map_some]
  rw [hids.1, hids.2]
  split <;> rfl

lemma reduce_forget (signal : Signal) (params : Json) :
    (reduce s.forget signal params).forget = (reduce s signal params).forget := by
  have htwice := s.forget_forget
  cases signal with
  | turnStarted | turnCompleted => rfl
  | statusChanged | itemStarted =>
    dsimp only [reduce]
    split
    · exact htwice
    · rfl
  | summaryPartAdded =>
    dsimp only [reduce]
    split
    · rfl
    · exact htwice
  | summaryTextDelta =>
    dsimp only [reduce, observeReasoningDelta]
    split
    · rename_i part delta hpart hdelta
      have hopen : openPart s.forget.reasoning part = (openPart s.reasoning part).forget :=
        openPart_forget s.reasoning part
      obtain ⟨hpart', htitle⟩ := (openPart s.reasoning part).extend_forget delta.toList
      rw [hopen]
      unfold extendPart forget
      dsimp only [map_some]
      rw [hpart', htitle]
    · exact htwice
  | planUpdated =>
    dsimp only [reduce]
    have hplan : s.forget.planStep = s.planStep := rfl
    rw [hplan]
    split
    · exact htwice
    have hreasoning := congrArg reasoning htwice
    unfold forget at hreasoning ⊢
    dsimp only at hreasoning ⊢
    rw [hreasoning]
  | other => exact htwice

lemma ReasoningPart.extend_ids (delta : List Char) : (part.extend delta).1.itemId = part.itemId ∧
      (part.extend delta).1.summaryIndex = part.summaryIndex := by
  unfold extend
  split
  · exact ⟨rfl, rfl⟩
  · dsimp only
    split <;> exact ⟨rfl, rfl⟩

lemma ReasoningPart.extend_extend (d e : List Char) :
    ((part.extend d).1.extend e).1.forget = (part.extend (d ++ e)).1.forget ∧
      ((part.extend d).2 = none ∧ ((part.extend d).1.extend e).2 = (part.extend (d ++ e)).2 ∨
        (part.extend d).2 = (part.extend (d ++ e)).2 ∧ ((part.extend d).1.extend e).2 = none) := by
  by_cases hset : part.settled = true
  · have hkept : ∀ text, part.extend text = (part, none) := fun text => if_pos hset
    rw [hkept, hkept, hkept]
    exact ⟨rfl, .inl ⟨rfl, rfl⟩⟩
  obtain ⟨itemId, summaryIndex, text, settled⟩ := part
  obtain rfl : settled = false := eq_false_of_ne_true hset
  have hpieces := Text.take_append_take d e (reasoningHeaderWindowChars - text.length)
  generalize hfirst : text ++ d.take (reasoningHeaderWindowChars - text.length) = first
  have hlen : first.length =
      text.length + (d.take (reasoningHeaderWindowChars - text.length)).length := by
    rw [← hfirst, List.length_append]
  have hboth : text ++ (d ++ e).take (reasoningHeaderWindowChars - text.length) =
      first ++ e.take (reasoningHeaderWindowChars - first.length) := by
    rw [hpieces, ← List.append_assoc, hfirst, hlen, Nat.sub_sub]
  unfold extend
  dsimp only
  rw [if_neg Bool.false_ne_true, hfirst, if_neg Bool.false_ne_true, hboth]
  cases htitle : firstBold first with
  | some title =>
    -- The first piece closes the header; the rest of the text does not change it.
    rw [firstBold_append htitle]
    exact ⟨rfl, .inr ⟨rfl, rfl⟩⟩
  | none =>
  dsimp only
  by_cases hfull : reasoningHeaderWindowChars ≤ first.length
  · rw [if_pos (decide_eq_true hfull), show reasoningHeaderWindowChars - first.length = 0 by omega,
      List.take_zero, List.append_nil, htitle]
    exact ⟨rfl, .inl ⟨rfl, rfl⟩⟩
  · rw [if_neg (by simpa using hfull)]
    exact ⟨rfl, .inl ⟨rfl, rfl⟩⟩

lemma openPart_ids (part : String × Int) :
    (openPart reasoning part).itemId = part.1 ∧ (openPart reasoning part).summaryIndex = part.2 := by
  unfold openPart
  split
  · split
    · rename_i h
      exact h
    · exact ⟨rfl, rfl⟩
  · exact ⟨rfl, rfl⟩

lemma openPart_of_ids {open' : ReasoningPart} {part : String × Int}
    (h : open'.itemId = part.1 ∧ open'.summaryIndex = part.2) :
    openPart (some open') part = open' := if_pos h

lemma extendPart_extendPart {s s₁ s₂ s₃ : ThreadState} (hs : s.published = s.effective)
    {part : String × Int} {d e : List Char} (h₁ : s₁ = extendPart s (openPart s.reasoning part) d)
    (h₂ : s₂ = extendPart s₁.publish (openPart s₁.publish.reasoning part) e)
    (h₃ : s₃ = extendPart s (openPart s.reasoning part) (d ++ e)) :
    s₂.publish.forget = s₃.publish.forget ∧
      (changeOf s₁.published s₁.effective).toList ++ (changeOf s₂.published s₂.effective).toList =
        (changeOf s₃.published s₃.effective).toList := by
  subst h₁ h₂ h₃
  have hids := openPart_ids s.reasoning part
  generalize openPart s.reasoning part = open' at hids ⊢
  obtain ⟨hforget, htitles⟩ := open'.extend_extend d e
  have hopen : openPart (extendPart s open' d).publish.reasoning part = (open'.extend d).1 := by
    obtain ⟨hitem, hindex⟩ := open'.extend_ids d
    exact openPart_of_ids ⟨hitem.trans hids.1, hindex.trans hids.2⟩
  have hnone : ∀ a, changeOf a a = none := fun a => if_pos rfl
  rw [hopen]
  unfold extendPart publish forget effective
  dsimp only [map_some]
  rw [hforget, hs]
  rcases htitles with ⟨hfirst, hsnd⟩ | ⟨hfirst, hsnd⟩
  · rw [hfirst, hsnd]
    simp only [map_none, none_or]
    refine ⟨trivial, ?_⟩
    unfold effective
    rw [hnone]
    rfl
  rw [hfirst, hsnd]
  simp only [map_none, none_or]
  refine ⟨trivial, ?_⟩
  rw [hnone]
  exact List.append_nil _

/-- The same changes were published, and the states differ in the text of settled parts
only. -/
structure Alike (f g : Feed) : Prop where
  published : f.published = g.published
  states : ∀ threadId, (f.tracker.get? threadId).map ThreadState.forget =
    (g.tracker.get? threadId).map ThreadState.forget

lemma alike_equivalence : Equivalence Alike where
  refl _ := ⟨rfl, fun _ => rfl⟩
  symm h := ⟨h.published.symm, fun id => (h.states id).symm⟩
  trans h h' := ⟨h.published.trans h'.published, fun id => (h.states id).trans (h'.states id)⟩

lemma Alike.activityOf {f g : Feed} (h : Alike f g) (threadId : String) :
    activityOf f.tracker threadId = activityOf g.tracker threadId := by
  have hstates := h.states threadId
  unfold Activity.activityOf
  cases hf : f.tracker.get? threadId with
  | none =>
    rw [hf] at hstates
    rw [map_eq_none_iff.mp hstates.symm]
  | some s =>
  rw [hf] at hstates
  obtain ⟨s', hs', heq⟩ := map_eq_some_iff.mp hstates.symm
  rw [hs']
  exact (congrArg effective heq).symm

section Congruence

variable {t u : Tracker}
  (h : ∀ threadId, (t.get? threadId).map ThreadState.forget =
    (u.get? threadId).map ThreadState.forget)

include h

lemma contains_of_alike (threadId : String) : t.contains threadId = u.contains threadId := by
  have hstate := congrArg isSome (h threadId)
  rw [isSome_map, isSome_map] at hstate
  exact hstate

lemma size_of_alike : t.size = u.size :=
  size_eq_of_keys (fun id => contains_of_alike h id)

lemma makeRoom_alike (threadId id : String) :
    ((makeRoom t threadId).get? id).map ThreadState.forget =
      ((makeRoom u threadId).get? id).map ThreadState.forget := by
  unfold makeRoom
  rw [contains_of_alike h, size_of_alike h]
  split
  · rfl
  · exact h id

lemma settle_alike (threadId : String) {s s' : ThreadState} (hs : s.forget = s'.forget) :
    (settle t threadId s).2 = (settle u threadId s').2 ∧
      ∀ id, ((settle t threadId s).1.get? id).map ThreadState.forget =
        ((settle u threadId s').1.get? id).map ThreadState.forget := by
  have hpublished : s.published = s'.published := by
    rw [← s.forget_published, hs, s'.forget_published]
  have heffective : s.effective = s'.effective := by
    rw [← s.forget_effective, hs, s'.forget_effective]
  have hkept : s.publish.forget = s'.publish.forget := by
    rw [s.forget_publish, hs, s'.forget_publish]
  have hidle : s.publish.isIdle = s'.publish.isIdle := by
    rw [← s.publish.forget_isIdle, hkept, s'.publish.forget_isIdle]
  unfold settle
  dsimp only
  rw [hpublished, heffective, hidle]
  refine ⟨rfl, fun id => ?_⟩
  split
  · rw [get?_erase, get?_erase]
    split
    · rfl
    · exact h id
  rw [get?_insert, get?_insert]
  split
  · rw [map_some, map_some, hkept]
  · exact h id

end Congruence

lemma Alike.feed {f g : Feed} (h : Alike f g) (payload : Json) :
    Alike (feed f payload) (feed g payload) := by
  have hobs : (observe f.tracker payload).2 = (observe g.tracker payload).2 ∧
      ∀ id, ((observe f.tracker payload).1.get? id).map forget =
        ((observe g.tracker payload).1.get? id).map forget := by
    unfold observe
    split
    · exact ⟨rfl, h.states⟩
    rename_i signal params threadId htarget
    rw [contains_of_alike h.states]
    split
    · exact ⟨rfl, h.states⟩
    refine settle_alike (makeRoom_alike h.states threadId) threadId ?_
    have hroom := makeRoom_alike h.states threadId threadId
    rw [← reduce_forget, ← reduce_forget (((makeRoom g.tracker threadId).get? threadId).getD {})]
    have hget : ∀ o : Option ThreadState, (o.getD {}).forget = (o.map forget).getD {} := by
      intro o
      cases o <;> rfl
    rw [hget, hget, hroom]
  refine ⟨?_, hobs.2⟩
  unfold Activity.feed
  dsimp only
  rw [h.published, hobs.1]

end CodeWide.Activity
