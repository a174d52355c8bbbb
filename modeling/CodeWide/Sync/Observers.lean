import CodeWide.Activity.Pieces
import CodeWide.Sync.Coalesce
import CodeWide.ThreadList.Preview
import Mathlib.Data.List.Induction

/-!
# Observers of a coalesced stream

An observer that takes two text deltas of one envelope like one with both texts sees no difference
between a batch and any other that says the same (`Piecewise`).
-/

namespace CodeWide.Sync

open Lib List Option Table

/-- An observer for which, up to `R` and in states with `I`, two pieces of a text are the
text. -/
structure Piecewise {σ : Type} (step : σ → Json → σ) (I : σ → Prop) (R : σ → σ → Prop) : Prop where
  equivalence : Equivalence R
  keeps : ∀ s payload, I s → I (step s payload)
  congr : ∀ s t payload, R s t → R (step s payload) (step t payload)
  join : ∀ s payload delta first second, I s → isCoalescible payload = true →
    deltaOf payload = some delta →
    R (step (step s (setDelta payload first)) (setDelta payload second))
      (step s (setDelta payload (first ++ second)))

variable {σ : Type} {step : σ → Json → σ} {I : σ → Prop} {R : σ → σ → Prop}

def observeSegment (step : σ → Json → σ) (s : σ) : Segment → σ
  | .other payload => step s payload
  | .text envelope text => step s (setDelta envelope (String.ofList text))

lemma textDelta?_some {payload envelope : Json} {text : List Char} (hpay : Payload payload)
    (h : textDelta? payload = some (envelope, text)) :
    isCoalescible envelope = true ∧ (∃ delta, deltaOf envelope = some delta) ∧
      setDelta envelope (String.ofList text) = payload := by
  unfold textDelta? at h
  split at h
  · rename_i hmeth
    obtain ⟨delta, hdelta, heq⟩ := map_eq_some_iff.mp h
    cases heq
    obtain ⟨hkept, hblank, hover⟩ := setDelta_fields hdelta ""
    refine ⟨?_, ⟨"", hblank⟩, ?_⟩
    · unfold isCoalescible at hmeth ⊢
      rw [hkept]
      exact hmeth
    · rw [hover, String.ofList_toList, setDelta_self hpay hdelta]
  · cases h

lemma Piecewise.exec_segments (h : Piecewise step I R) {s : σ} (hs : I s) {payloads : List Json}
    (hpayloads : ∀ p ∈ payloads, Payload p) :
    R (exec step s payloads) ((segments payloads).foldl (observeSegment step) s) := by
  have hkept : ∀ said : List Segment, I (said.foldl (observeSegment step) s) := by
    intro said
    induction said using reverseRecOn with
    | nil => exact hs
    | append_singleton said segment ih =>
      rw [foldl_concat]
      cases segment <;> exact h.keeps _ _ ih
  induction payloads using reverseRecOn with
  | nil => exact h.equivalence.refl s
  | append_singleton payloads payload ih =>
  have hlast := hpayloads payload (by simp)
  have hbef := ih (fun p hp => hpayloads p (mem_append_left _ hp))
  have hstep := h.congr _ _ payload hbef
  rw [exec_append, segments_concat]
  refine h.equivalence.trans hstep ?_
  unfold pushSegment
  cases htext : textDelta? payload with
  | none =>
    dsimp only
    rw [foldl_concat]
    exact h.equivalence.refl _
  | some found =>
  obtain ⟨envelope, text⟩ := found
  obtain ⟨hmeth, ⟨delta, hdelta⟩, hself⟩ := textDelta?_some hlast htext
  -- Unless the delta continues a run, it is a segment of its own.
  have happ : ∀ said : List Segment, R (step (said.foldl (observeSegment step) s) payload)
        ((said ++ [Segment.text envelope text]).foldl (observeSegment step) s) := by
    intro said
    rw [foldl_concat, observeSegment, hself]
    exact h.equivalence.refl _
  dsimp only
  unfold pushText
  split
  · rename_i last before hget
    split
    · rename_i heq
      subst heq
      have hrun : (segments payloads).foldl (observeSegment step) s =
          step ((segments payloads).dropLast.foldl (observeSegment step) s)
            (setDelta last (String.ofList before)) := by
        conv_lhs => rw [← dropLast_append_getLast? _ hget, foldl_concat]
        rfl
      rw [foldl_concat, hrun, observeSegment, String.ofList_append]
      conv => arg 1; rw [← hself]
      exact h.join _ _ _ _ _ (hkept _) hmeth hdelta
    · exact happ _
  · exact happ _

lemma Piecewise.exec_of_segments (h : Piecewise step I R) {s : σ} (hs : I s) {xs ys : List Json}
    (hxs : ∀ p ∈ xs, Payload p) (hys : ∀ p ∈ ys, Payload p) (hsame : segments xs = segments ys) :
    R (exec step s xs) (exec step s ys) := by
  have hx := h.exec_segments hs hxs
  rw [hsame] at hx
  exact h.equivalence.trans hx (h.equivalence.symm (h.exec_segments hs hys))

lemma textDelta_reads {payload : Json} {delta : String} (hmeth : isCoalescible payload = true)
    (hdelta : deltaOf payload = some delta) :
    ∃ (method : String) (params : Json), method ∈ ["item/agentMessage/delta",
        "item/commandExecution/outputDelta", "item/plan/delta", "item/reasoning/summaryTextDelta",
        "item/reasoning/textDelta"] ∧
      params.isObj = true ∧ ∀ text, (setDelta payload text).method? = some method ∧
        (setDelta payload text).get? "params" = some (params.insert "delta" (.str text)) := by
  obtain ⟨method, hname, hmember⟩ := (any_eq_true _ _).mp hmeth
  obtain ⟨params, -, hobj, hset⟩ := setDelta_params hdelta
  refine ⟨method, params, of_decide_eq_true hmember, hobj, fun text => ⟨?_, hset text⟩⟩
  rw [(setDelta_fields hdelta text).1, hname]

section Params

variable {params : Json}

lemma get?_insert_delta {k : String} (hk : k ≠ "delta") (x : Json) :
    (params.insert "delta" x).get? k = params.get? k := Json.get?_insert_of_ne _ _ hk

lemma get?_delta (hpar : params.isObj = true) (x : Json) :
    (params.insert "delta" x).get? "delta" = some x := by
  rw [Json.get?_insert hpar, if_pos rfl]

end Params

open ThreadList in
lemma preview_of_textDelta {payload : Json} {delta : String}
    (hmeth : isCoalescible payload = true) (hdelta : deltaOf payload = some delta) :
    (∀ f text, feedPreview f (setDelta payload text) = f) ∨ ∃ threadId itemId, ∀ text,
        (((setDelta payload text).get? "params").bind (·.get? "threadId")).bind Json.asStr? =
            some threadId ∧
          ∀ t : PreviewTracker, t.observe (setDelta payload text) =
            t.push threadId itemId text.toList := by
  obtain ⟨method, params, hmem, hobj, hread⟩ := textDelta_reads hmeth hdelta
  have hthr : ∀ text : String, (params.insert "delta" (.str text)).get? "threadId" =
      params.get? "threadId" := fun text => get?_insert_delta (by decide) _
  have hitem : ∀ text : String, (params.insert "delta" (.str text)).get? "itemId" =
      params.get? "itemId" := fun text => get?_insert_delta (by decide) _
  -- Without a change of the tracker or a preview the feed stays as it is.
  have hsame : (∀ (t : PreviewTracker) text, t.observe (setDelta payload text) = (t, none)) →
      ∀ f text, feedPreview f (setDelta payload text) = f := by
    intro hnone f text
    unfold feedPreview
    rw [hnone]
    split
    · rename_i h
      cases h
    · rfl
  cases hid : (params.get? "threadId").bind Json.asStr? with
  | none =>
    refine .inl (hsame (fun t text => ?_))
    unfold PreviewTracker.observe
    rw [(hread text).1, (hread text).2]
    dsimp only
    rw [hthr, hid]
  | some threadId =>
  have hother : PreviewSignal.ofMethod method = .other →
      ∀ (t : PreviewTracker) text, t.observe (setDelta payload text) = (t, none) := by
    intro hsignal t text
    unfold PreviewTracker.observe
    rw [(hread text).1, (hread text).2]
    dsimp only
    rw [hthr, hid]
    dsimp only
    rw [hsignal]
  simp only [mem_cons, not_mem_nil, or_false] at hmem
  rcases hmem with rfl | rfl | rfl | rfl | rfl
  · cases hitemId : (params.get? "itemId").bind Json.asStr? with
    | none =>
      refine .inl (hsame (fun t text => ?_))
      unfold PreviewTracker.observe
      rw [(hread text).1, (hread text).2]
      dsimp only
      rw [hthr, hid, hitem, hitemId]
      rfl
    | some itemId =>
    refine .inr ⟨threadId, itemId, fun text => ⟨?_, fun t => ?_⟩⟩
    · rw [(hread text).2, bind_some, hthr, hid]
    unfold PreviewTracker.observe
    rw [(hread text).1, (hread text).2]
    dsimp only
    rw [hthr, hid, hitem, hitemId, get?_delta hobj]
    rfl
  · exact .inl (hsame (hother (by decide)))
  · exact .inl (hsame (hother (by decide)))
  · exact .inl (hsame (hother (by decide)))
  · exact .inl (hsame (hother (by decide)))

open ThreadList in
lemma piecewise_preview : Piecewise feedPreview (fun _ => True) Eq where
  equivalence := ⟨fun _ => rfl, Eq.symm, Eq.trans⟩
  keeps _ _ _ := trivial
  congr s t payload h := by rw [h]
  join f payload delta first second _ hmeth hdelta := by
    rcases preview_of_textDelta hmeth hdelta with hsame | ⟨threadId, itemId, hpush⟩
    · rw [hsame, hsame, hsame]
    obtain ⟨htracker, hpreview⟩ :=
      f.tracker.push_push threadId itemId first.toList second.toList
    unfold feedPreview
    rw [(hpush first).1, (hpush second).1, (hpush (first ++ second)).1]
    dsimp only
    rw [(hpush first).2, (hpush second).2, (hpush (first ++ second)).2, String.toList_append,
      hpreview, htracker]
    refine congrArg (PreviewFeed.mk _) ?_
    cases (PreviewTracker.push (PreviewTracker.push f.tracker threadId itemId first.toList).1
        threadId itemId second.toList).2 with
    | none => rw [none_or]
    | some preview =>
    rw [some_or]
    cases (PreviewTracker.push f.tracker threadId itemId first.toList).2 with
    | none => rfl
    | some earlier => exact Function.update_idem _ _ _

section Activity

open Activity

lemma target_of_textDelta {payload : Json} {delta : String}
    (hmeth : isCoalescible payload = true) (hdelta : deltaOf payload = some delta) :
    (∀ text, target? (setDelta payload text) = none) ∨
      ∃ (signal : Signal) (params : Json) (threadId : String),
        (signal = .summaryTextDelta ∨ signal = .other) ∧ params.isObj = true ∧
        ∀ text, target? (setDelta payload text) =
          some (signal, params.insert "delta" (.str text), threadId) := by
  obtain ⟨method, params, hmem, hobj, hread⟩ := textDelta_reads hmeth hdelta
  have htarget : ∀ text, target? (setDelta payload text) =
      (textField params "threadId").map (fun threadId =>
        (Signal.ofMethod method, params.insert "delta" (.str text), threadId)) := by
    intro text
    unfold target? textField
    rw [(hread text).1, (hread text).2, bind_eq_bind, bind_some, bind_eq_bind,
      bind_some, get?_insert_delta (by decide)]
    cases (params.get? "threadId").bind Json.asStr? <;> rfl
  cases hid : textField params "threadId" with
  | none =>
    refine .inl (fun text => ?_)
    rw [htarget, hid]
    rfl
  | some threadId =>
  refine .inr ⟨Signal.ofMethod method, params, threadId, ?_, hobj, fun text => ?_⟩
  · simp only [mem_cons, not_mem_nil, or_false] at hmem
    rcases hmem with rfl | rfl | rfl | rfl | rfl
    · exact .inr (by decide)
    · exact .inr (by decide)
    · exact .inr (by decide)
    · exact .inl (by decide)
    · exact .inr (by decide)
  · rw [htarget, hid]
    rfl

lemma observe_of_idle {t : Tracker} (htidy : Tidy t) {payload params : Json} {signal : Signal}
    {threadId : String} (htarget : target? payload = some (signal, params, threadId))
    (hsame : ∀ s, reduce s signal params = s) {s : ThreadState}
    (hget : t.get? threadId = some s) : observe t payload = (t, none) := by
  obtain ⟨hpublished, hbusy⟩ := htidy.kept threadId s hget
  have hcont : t.contains threadId = true := by
    rw [Table.contains, hget]
    rfl
  have hpublish : s.publish = s := by
    unfold ThreadState.publish
    rw [← hpublished]
  unfold observe
  rw [htarget]
  dsimp only
  rw [if_neg (by rw [hcont]; simp), makeRoom_of_tracked (by rw [hcont]; simp), hget,
    getD_some, hsame]
  unfold settle
  rw [hpublish, if_neg (by rw [hbusy]; simp), insert_of_some hget, ← hpublished]
  exact congrArg (Prod.mk t) (if_pos rfl)

lemma publication_of_target {payload params : Json} {signal : Signal} {threadId : String}
    (h : target? payload = some (signal, params, threadId)) (change : Option LiveActivityChange) :
    publication payload change = change.toList.map (fun c => (threadId, c)) := by
  unfold publication
  rw [h]
  cases change <;> rfl

lemma get?_makeRoom_none {t : Tracker} {threadId : String} (h : t.get? threadId = none) :
    (makeRoom t threadId).get? threadId = none := by
  unfold makeRoom
  split
  · rfl
  · exact h

lemma makeRoom_makeRoom (t : Tracker) (threadId : String) :
    makeRoom (makeRoom t threadId) threadId = makeRoom t threadId := by
  refine makeRoom_of_tracked ?_
  rintro ⟨huntr, hfull⟩
  rw [Table.contains, isSome_eq_false_iff, isNone_iff_eq_none] at huntr
  have := makeRoom_room huntr
  omega

section Reasoning

variable {payload params : Json} {threadId text : String}
  (htarget : target? payload = some (.summaryTextDelta, params.insert "delta" (.str text), threadId))

include htarget

lemma feed_of_no_part {f : Feed} (htidy : Tidy f.tracker) (hpart : reasoningPartId params = none) :
    feed f payload = ⟨if f.tracker.contains threadId = true then f.tracker
      else makeRoom f.tracker threadId, f.published⟩ := by
  have hsame : ∀ s, reduce s .summaryTextDelta (params.insert "delta" (.str text)) = s := by
    intro s
    have hpart' : reasoningPartId (params.insert "delta" (.str text)) = none := by
      rw [← hpart]
      unfold reasoningPartId textField
      rw [get?_insert_delta (by decide), get?_insert_delta (by decide)]
    dsimp only [reduce, observeReasoningDelta]
    rw [hpart']
  cases hget : f.tracker.get? threadId with
  | some s =>
    have hcont : f.tracker.contains threadId = true := by
      rw [Table.contains, hget]
      rfl
    rw [feed_of_unchanged (observe_of_idle htidy htarget hsame hget), if_pos hcont]
  | none =>
  have hcont : f.tracker.contains threadId = false := by
    rw [Table.contains, hget]
    rfl
  have hroom := get?_makeRoom_none hget
  have hobs : observe f.tracker payload = (makeRoom f.tracker threadId, none) := by
    unfold observe
    rw [htarget]
    dsimp only
    rw [if_neg (fun h => Bool.noConfusion h.2), hroom, getD_none, hsame]
    exact Prod.ext (erase_of_none hroom) rfl
  unfold feed
  rw [hobs, publication_of_target htarget, if_neg (by rw [hcont]; simp)]
  exact congrArg (Feed.mk _) (append_nil _)

lemma observe_of_part (t : Tracker) (hobj : params.isObj = true) {part : String × Int}
    (hpart : reasoningPartId params = some part) {s s' : ThreadState}
    (hs : s = ((makeRoom t threadId).get? threadId).getD {})
    (hs' : s' = extendPart s (openPart s.reasoning part) text.toList) :
    observe t payload = ((makeRoom t threadId).insert threadId s'.publish,
      changeOf s'.published s'.effective) := by
  have hpart' : reasoningPartId (params.insert "delta" (.str text)) = some part := by
    rw [← hpart]
    unfold reasoningPartId textField
    rw [get?_insert_delta (by decide), get?_insert_delta (by decide)]
  have htext : textField (params.insert "delta" (.str text)) "delta" = some text := by
    unfold textField
    rw [get?_delta hobj]
    rfl
  have hreduce : reduce s .summaryTextDelta (params.insert "delta" (.str text)) = s' := by
    dsimp only [reduce, observeReasoningDelta]
    rw [hpart', htext, hs']
  have hbusy : s'.publish.isIdle = false := by
    rw [hs']
    unfold ThreadState.isIdle ThreadState.publish extendPart
    simp
  unfold observe
  rw [htarget]
  dsimp only
  rw [if_neg (fun h => Bool.noConfusion h.2), ← hs, hreduce]
  unfold settle
  rw [if_neg (by rw [hbusy]; simp)]

end Reasoning

lemma join_of_part {f : Feed} (htidy : Tidy f.tracker) {payload params : Json} {threadId : String}
    (htarget : ∀ text, target? (setDelta payload text) =
      some (.summaryTextDelta, params.insert "delta" (.str text), threadId))
    (hobj : params.isObj = true) {part : String × Int} (hpart : reasoningPartId params = some part)
    (first second : String) :
    Alike (feed (feed f (setDelta payload first)) (setDelta payload second))
      (feed f (setDelta payload (first ++ second))) := by
  generalize hs : ((makeRoom f.tracker threadId).get? threadId).getD {} = s
  have hsett : s.published = s.effective := by
    rw [← hs]
    cases hget : (makeRoom f.tracker threadId).get? threadId with
    | none => rfl
    | some old => exact ((htidy.makeRoom threadId).kept threadId old hget).published
  generalize hs₁ : extendPart s (openPart s.reasoning part) first.toList = s₁
  generalize hs₂ : extendPart s₁.publish (openPart s₁.publish.reasoning part) second.toList = s₂
  generalize hs₃ : extendPart s (openPart s.reasoning part) (first.toList ++ second.toList) = s₃
  obtain ⟨hforget, hchg⟩ := extendPart_extendPart hsett hs₁.symm hs₂.symm hs₃.symm
  have hfirst := observe_of_part (htarget first) f.tracker hobj hpart hs.symm hs₁.symm
  have hroom : makeRoom ((makeRoom f.tracker threadId).insert threadId s₁.publish) threadId =
      (makeRoom f.tracker threadId).insert threadId s₁.publish := by
    refine makeRoom_of_tracked ?_
    rw [Table.contains, get?_insert_self]
    simp
  have hsnd := observe_of_part (htarget second)
    ((makeRoom f.tracker threadId).insert threadId s₁.publish) hobj hpart
    (by rw [hroom, get?_insert_self]; rfl) hs₂.symm
  rw [hroom] at hsnd
  have hs₃' : s₃ = extendPart s (openPart s.reasoning part) (first ++ second).toList := by
    rw [String.toList_append, hs₃]
  have hwhole := observe_of_part (htarget (first ++ second)) f.tracker hobj hpart hs.symm hs₃'
  unfold feed
  dsimp only
  rw [hfirst, hsnd, hwhole, publication_of_target (htarget first),
    publication_of_target (htarget second), publication_of_target (htarget (first ++ second))]
  refine ⟨?_, fun id => ?_⟩
  · dsimp only
    rw [append_assoc, ← map_append, hchg]
  dsimp only
  rw [get?_insert, get?_insert, get?_insert]
  split
  · rw [map_some, map_some, hforget]
  · rfl

lemma piecewise_activity : Piecewise feed (fun f => Tidy f.tracker) Alike where
  equivalence := alike_equivalence
  keeps _ payload h := h.observe payload
  congr _ _ payload h := h.feed payload
  join f payload delta first second htidy hmeth hdelta := by
    -- A text delta that leaves every tidy feed as it is.
    have hidle : (∀ g : Feed, Tidy g.tracker → ∀ text, feed g (setDelta payload text) = g) →
        Alike (feed (feed f (setDelta payload first)) (setDelta payload second))
          (feed f (setDelta payload (first ++ second))) := by
      intro hsame
      rw [hsame f htidy, hsame f htidy, hsame f htidy]
      exact alike_equivalence.refl f
    rcases target_of_textDelta hmeth hdelta with hnone | ⟨signal, params, threadId, hsignal, hobj,
      htarget⟩
    · refine hidle (fun g _ text => feed_of_unchanged ?_)
      unfold observe
      rw [hnone]
    rcases hsignal with rfl | rfl
    · cases hpart : reasoningPartId params with
      | some part => exact join_of_part htidy htarget hobj hpart first second
      | none =>
      rw [feed_of_no_part (htarget first) htidy hpart,
        feed_of_no_part (htarget (first ++ second)) htidy hpart]
      have htidy' : Tidy (if f.tracker.contains threadId = true then f.tracker
          else makeRoom f.tracker threadId) := by
        split
        · exact htidy
        · exact htidy.makeRoom threadId
      rw [feed_of_no_part (htarget second) htidy' hpart]
      dsimp only
      by_cases hcont : f.tracker.contains threadId = true
      · rw [if_pos hcont, if_pos hcont]
        exact alike_equivalence.refl _
      · rw [if_neg hcont, makeRoom_makeRoom, ite_self]
        exact alike_equivalence.refl _
    refine hidle (fun g hg text => feed_of_unchanged ?_)
    cases hget : g.tracker.get? threadId with
    | some s => exact observe_of_idle hg (htarget text) (fun _ => rfl) hget
    | none =>
    unfold observe
    rw [htarget]
    dsimp only
    rw [if_pos ⟨by rw [Table.contains, hget]; rfl, rfl⟩]

end Activity

/-- A batch and its coalesced form leave the same activities and answers, and the devices agree. -/
theorem observers_of_coalesced (earlier payloads : List Json)
    (hpayloads : ∀ p ∈ payloads, Payload p) :
    ∃ out, (∀ fuel, (∀ p ∈ payloads, ((deltaOf p).getD "").toList.length ≤ fuel) →
        coalesceStreamTextDeltas fuel payloads = some out) ∧
      (∀ threadId,
        Activity.activityOf (exec Activity.feed {} (earlier ++ out)).tracker threadId =
            Activity.activityOf (exec Activity.feed {} (earlier ++ payloads)).tracker threadId ∧
          (exec Activity.feed {} (earlier ++ out)).shown threadId =
            (exec Activity.feed {} (earlier ++ payloads)).shown threadId ∧
          (exec ThreadList.feedPreview {} (earlier ++ out)).tracker.get? threadId =
            (exec ThreadList.feedPreview {} (earlier ++ payloads)).tracker.get? threadId ∧
          (exec ThreadList.feedPreview {} (earlier ++ out)).shown threadId =
            (exec ThreadList.feedPreview {} (earlier ++ payloads)).shown threadId) := by
  obtain ⟨out, hrun, hout, hsame⟩ := coalesce_spec hpayloads
  have hact := piecewise_activity.exec_of_segments (Activity.tidy_run earlier)
    (fun q hq => (hout q hq).1) hpayloads hsame
  have hpreview := piecewise_preview.exec_of_segments
    (s := exec ThreadList.feedPreview {} earlier) trivial (fun q hq => (hout q hq).1) hpayloads hsame
  rw [← exec_append, ← exec_append] at hact hpreview
  refine ⟨out, hrun, fun threadId => ⟨hact.activityOf threadId, ?_, ?_, ?_⟩⟩
  · unfold Activity.Feed.shown Activity.Feed.lastChange
    rw [hact.published]
  · rw [hpreview]
  · rw [hpreview]

def summaryDelta (text : String) : Json :=
  .ofFields [("method", .str "item/reasoning/summaryTextDelta"),
    ("params", .ofFields [("delta", .str text), ("itemId", .str "r"), ("summaryIndex", .int 0),
      ("threadId", .str "t")])]

/-- A header that closes in the second piece is shown with and without coalescing. -/
theorem observers_of_header :
    (∀ p ∈ [summaryDelta "**Insp", summaryDelta "ect**"], Payload p) ∧
      ∃ out, out = [summaryDelta "**Inspect**"] ∧
        Activity.activityOf (exec Activity.feed {} out).tracker "t" =
          Activity.activityOf (exec Activity.feed {}
            [summaryDelta "**Insp", summaryDelta "ect**"]).tracker "t" ∧
        Activity.activityOf (exec Activity.feed {} out).tracker "t" = some (.reasoning "Inspect") := by
  have hpayloads : ∀ p ∈ [summaryDelta "**Insp", summaryDelta "ect**"], Payload p := by
    intro p hp
    simp only [mem_cons, not_mem_nil, or_false] at hp
    rcases hp with rfl | rfl <;> exact payload_message _ _
  obtain ⟨out, hrun, hsame⟩ := observers_of_coalesced [] _ hpayloads
  have hgives : coalesceStreamTextDeltas 6 [summaryDelta "**Insp", summaryDelta "ect**"] =
      some [summaryDelta "**Inspect**"] := by decide
  have hout : out = [summaryDelta "**Inspect**"] :=
    some.inj ((hrun 6 (by decide)).symm.trans hgives)
  refine ⟨hpayloads, out, hout, (hsame "t").1, ?_⟩
  rw [hout]
  decide

end CodeWide.Sync
