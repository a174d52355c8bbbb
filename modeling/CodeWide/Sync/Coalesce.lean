import CodeWide.Lib.Json
import CodeWide.Lib.Text

/-!
# Coalescing streamed text

Adjacent text deltas of a batch that agree in everything but their text are joined, up to a byte
limit.
-/

namespace CodeWide.Sync

open Lib List Json Option Text

def maxCoalescedTextDeltaBytes : Nat := 16 * 1024

def isCoalescibleTextDeltaMethod (method : String) : Bool :=
  decide (method ∈ ["item/agentMessage/delta", "item/commandExecution/outputDelta",
    "item/plan/delta", "item/reasoning/summaryTextDelta", "item/reasoning/textDelta"])

def deltaOf (payload : Json) : Option String :=
  ((payload.get? "params").bind (·.get? "delta")).bind asStr?

def setDelta (payload : Json) (text : String) : Json :=
  match payload.get? "params" with
  | none => payload
  | some params =>
    if (params.get? "delta").isSome then
      payload.insert "params" (params.insert "delta" (.str text))
    else payload

def isCoalescible (payload : Json) : Bool := payload.method?.any isCoalescibleTextDeltaMethod

def backToBoundary (delta : List Char) (start : Nat) : Nat → Nat
  | 0 => 0
  | stop + 1 =>
    if decide (start < stop + 1) && !Text.isCharBoundary delta (stop + 1) then
      backToBoundary delta start stop
    else stop + 1

def cutLoop (limit : Nat) (delta : List Char) (fuel start : Nat) : Option (List (List Char)) :=
  if start < Text.utf8Len delta then
    match fuel with
    | 0 => none
    | fuel + 1 => do
      let stop := backToBoundary delta start (min (start + limit) (Text.utf8Len delta))
      let chunk ← Text.slice? delta start stop
      let rest ← cutLoop limit delta fuel stop
      some (chunk :: rest)
  else some []

def splitStreamTextDelta (fuel : Nat) (payload : Json) : Option (List Json) :=
  match (deltaOf payload).filter
      (fun delta => decide (maxCoalescedTextDeltaBytes < Text.utf8Len delta.toList)) with
  | none => some [payload]
  | some delta =>
    if isCoalescible payload then
      (cutLoop maxCoalescedTextDeltaBytes delta.toList fuel 0).map
        (fun chunks => chunks.map (fun chunk => setDelta payload (String.ofList chunk)))
    else some [payload]

def sameStreamTextDeltaParams (left right : Json) : Bool :=
  match left, right with
  | .obj l, .obj r =>
    if l.length ≠ r.length ∨ ((left.get? "delta").bind asStr?).isNone ∨
        ((right.get? "delta").bind asStr?).isNone then false
    else l.all (fun f => decide (f.1 = "delta") || decide (lookupField f.1 r = some f.2))
  | _, _ => false

def sameStreamTextDeltaEnvelope (left right : Json) : Bool :=
  if left.method? ≠ right.method? ∨ isCoalescible left = false then false
  else match left, right with
  | .obj l, .obj r =>
    if l.length ≠ r.length then false
    else l.all (fun f =>
      match lookupField f.1 r with
      | none => false
      | some w => if f.1 = "params" then sameStreamTextDeltaParams f.2 w else decide (f.2 = w))
  | _, _ => false

/-- The previous payload with the next one's text appended, if both may be joined. -/
def mergeAdjacentStreamTextDelta (previous next : Json) : Option Json :=
  if sameStreamTextDeltaEnvelope previous next then
    match deltaOf next, deltaOf previous with
    | some nextDelta, some previousDelta =>
      if maxCoalescedTextDeltaBytes <
          Text.utf8Len previousDelta.toList + Text.utf8Len nextDelta.toList then none
      else some (setDelta previous (previousDelta ++ nextDelta))
    | _, _ => none
  else none

def pushCoalesced (coalesced : List Json) (payload : Json) : List Json :=
  match coalesced.getLast? with
  | none => coalesced ++ [payload]
  | some previous =>
    match mergeAdjacentStreamTextDelta previous payload with
    | some merged => coalesced.dropLast ++ [merged]
    | none => coalesced ++ [payload]

def coalesceStreamTextDeltas (fuel : Nat) (payloads : List Json) : Option (List Json) :=
  (payloads.mapM (splitStreamTextDelta fuel)).map (fun parts => parts.flatten.foldl pushCoalesced [])

inductive Segment where
  | other (payload : Json)
  | text (envelope : Json) (text : List Char)

def textDelta? (payload : Json) : Option (Json × List Char) :=
  if isCoalescible payload then
    (deltaOf payload).map (fun delta => (setDelta payload "", delta.toList))
  else none

/-- Appends text to what a batch says: it continues the run it follows when the envelopes
are equal. -/
def pushText (said : List Segment) (envelope : Json) (text : List Char) : List Segment :=
  match said.getLast? with
  | some (.text last before) =>
    if last = envelope then said.dropLast ++ [.text last (before ++ text)]
    else said ++ [.text envelope text]
  | _ => said ++ [.text envelope text]

def pushSegment (said : List Segment) (payload : Json) : List Segment :=
  match textDelta? payload with
  | none => said ++ [.other payload]
  | some (envelope, text) => pushText said envelope text

/-- The other payloads and the runs of text deltas of a batch, in order. -/
def segments (payloads : List Json) : List Segment := payloads.foldl pushSegment []

def Segment.other? : Segment → Option Json
  | .other payload => some payload
  | .text _ _ => none

def others (payloads : List Json) : List Json := payloads.filter (fun p => (textDelta? p).isNone)

/-- A payload as the library builds it: the keys of the message and of its parameters
ascend. -/
structure Payload (payload : Json) : Prop where
  fields : payload.Ascending
  params : ∀ params, payload.get? "params" = some params → params.Ascending

lemma backToBoundary_spec {delta : List Char} {start m n : Nat} (hstart : start < m)
    (hle : m ≤ n) (hm : Text.isCharBoundary delta m = true) :
    start < backToBoundary delta start n ∧ backToBoundary delta start n ≤ n ∧
      Text.isCharBoundary delta (backToBoundary delta start n) = true := by
  induction n with
  | zero => omega
  | succ n ih =>
  rw [backToBoundary]
  by_cases hn : isCharBoundary delta (n + 1) = true
  · rw [if_neg (by simp [hn])]
    exact ⟨by omega, le_refl _, hn⟩
  rw [if_pos (by simp [hn]; omega)]
  have hne : m ≠ n + 1 := fun heq => hn (heq ▸ hm)
  obtain ⟨h1, h2, h3⟩ := ih (by omega)
  exact ⟨h1, by omega, h3⟩

lemma next_piece {limit : Nat} (hlimit : 4 ≤ limit) (a : List Char) {c : Char} {b : List Char} :
    ∃ z y, c :: b = z ++ y ∧ z ≠ [] ∧ Text.utf8Len z ≤ limit ∧
      backToBoundary (a ++ c :: b) (Text.utf8Len a)
        (min (Text.utf8Len a + limit) (Text.utf8Len (a ++ c :: b))) =
          Text.utf8Len a + Text.utf8Len z := by
  have hpos := c.utf8Size_pos
  have hfour := c.utf8Size_le_four
  have hfirst : isCharBoundary (a ++ c :: b) (utf8Len a + c.utf8Size) = true :=
    isCharBoundary_iff.mpr ⟨a ++ [c], b, by simp, by simp⟩
  have hlen : utf8Len (a ++ c :: b) = utf8Len a + (c.utf8Size + utf8Len b) := by simp
  obtain ⟨hgt, hle, hbound⟩ := @backToBoundary_spec (a ++ c :: b) (utf8Len a) _
    (min (utf8Len a + limit) (utf8Len (a ++ c :: b))) (by omega) (by omega) hfirst
  obtain ⟨x, y, hsplit, hx⟩ := isCharBoundary_iff.mp hbound
  rw [← hx] at hgt hle ⊢
  rcases append_eq_append_iff.mp hsplit with ⟨z, hz, hb⟩ | ⟨z, hz, hb⟩
  · rw [hz, utf8Len_append] at hgt hle ⊢
    refine ⟨z, y, hb, ?_, by omega, rfl⟩
    rintro rfl
    rw [utf8Len_nil] at hgt
    omega
  · rw [hz, utf8Len_append] at hgt
    omega

lemma cutLoop_done (limit : Nat) (a : List Char) (fuel : Nat) :
    cutLoop limit (a ++ []) fuel (Text.utf8Len a) = some [] := by
  rw [cutLoop.eq_def, append_nil, if_neg (lt_irrefl _)]

/-- The loop ends after at most one turn for each character. -/
lemma cutLoop_spec {limit : Nat} (hlimit : 4 ≤ limit) (n : Nat) (a b : List Char)
    (hn : b.length ≤ n) :
    ∃ chunks, (∀ fuel, b.length ≤ fuel →
        cutLoop limit (a ++ b) fuel (Text.utf8Len a) = some chunks) ∧
      chunks.flatten = b ∧ ∀ chunk ∈ chunks, Text.utf8Len chunk ≤ limit := by
  induction n generalizing a b with
  | zero =>
    have hnil : b = [] := length_eq_zero_iff.mp (by omega)
    subst hnil
    exact ⟨[], fun fuel _ => cutLoop_done limit a fuel, rfl, by simp⟩
  | succ n ih =>
  cases b with
  | nil => exact ⟨[], fun fuel _ => cutLoop_done limit a fuel, rfl, by simp⟩
  | cons c rest =>
  obtain ⟨z, y, hsplit, hz, hlen, hstop⟩ := next_piece hlimit a (c := c) (b := rest)
  have hshort : y.length < (c :: rest).length := by
    rw [hsplit, length_append]
    have := length_pos_iff.mpr hz
    omega
  obtain ⟨chunks, hloop, hflat, hbound⟩ := ih (a ++ z) y (by omega)
  refine ⟨z :: chunks, fun fuel hfuel => ?_, by rw [flatten_cons, hflat, hsplit], ?_⟩
  · obtain ⟨fuel, rfl⟩ : ∃ f, fuel = f + 1 := ⟨fuel - 1, by simp at hfuel; omega⟩
    have hpos := c.utf8Size_pos
    rw [cutLoop, if_pos (by simp; omega)]
    have hrest := hloop fuel (by omega)
    rw [utf8Len_append, append_assoc, ← hsplit] at hrest
    have hslice := slice?_append a z y
    rw [← hsplit] at hslice
    simp only [hstop, hslice, hrest, bind_eq_bind, bind_some]
  intro chunk hchunk
  rcases mem_cons.mp hchunk with rfl | hchunk
  · exact hlen
  · exact hbound chunk hchunk

lemma deltaOf_some {payload : Json} {delta : String} (h : deltaOf payload = some delta) :
    ∃ params, payload.get? "params" = some params ∧ params.get? "delta" = some (.str delta) := by
  unfold deltaOf at h
  cases hpar : payload.get? "params" with
  | none =>
    rw [hpar] at h
    cases h
  | some params =>
  rw [hpar, bind_some] at h
  cases hdelta : params.get? "delta" with
  | none =>
    rw [hdelta] at h
    cases h
  | some value =>
  rw [hdelta, bind_some] at h
  refine ⟨params, rfl, ?_⟩
  rw [hdelta]
  cases value with
  | str text =>
    cases h
    rfl
  | _ => cases h

section Overwrite

variable {payload params : Json} {delta : String}

lemma setDelta_eq (hpar : payload.get? "params" = some params)
    (hdelta : params.get? "delta" = some (.str delta)) (text : String) :
    setDelta payload text = payload.insert "params" (params.insert "delta" (.str text)) := by
  unfold setDelta
  rw [hpar]
  dsimp only
  rw [hdelta]
  rfl

lemma setDelta_fields (h : deltaOf payload = some delta) (text : String) :
    (setDelta payload text).method? = payload.method? ∧
      deltaOf (setDelta payload text) = some text ∧
      ∀ text', setDelta (setDelta payload text) text' = setDelta payload text' := by
  obtain ⟨params, hpar, hdelta⟩ := deltaOf_some h
  have hset := setDelta_eq hpar hdelta text
  have hnew : (setDelta payload text).get? "params" = some (params.insert "delta" (.str text)) := by
    rw [hset, get?_insert (isObj_of_get? hpar), if_pos rfl]
  have htext : (params.insert "delta" (.str text)).get? "delta" = some (.str text) := by
    rw [get?_insert (isObj_of_get? hdelta), if_pos rfl]
  refine ⟨?_, ?_, fun text' => ?_⟩
  · unfold method?
    rw [hset, get?_insert_of_ne _ _ (by decide)]
  · unfold deltaOf
    rw [hnew, bind_some, htext]
    rfl
  · rw [setDelta_eq hnew htext, hset, insert_insert, insert_insert, setDelta_eq hpar hdelta]

lemma setDelta_params (h : deltaOf payload = some delta) :
    ∃ params, payload.get? "params" = some params ∧ params.isObj = true ∧
      ∀ text, (setDelta payload text).get? "params" = some (params.insert "delta" (.str text)) := by
  obtain ⟨params, hpar, hdelta⟩ := deltaOf_some h
  refine ⟨params, hpar, isObj_of_get? hdelta, fun text => ?_⟩
  rw [setDelta_eq hpar hdelta, get?_insert (isObj_of_get? hpar), if_pos rfl]

lemma setDelta_self (hpay : Payload payload) (h : deltaOf payload = some delta) :
    setDelta payload delta = payload := by
  obtain ⟨params, hpar, hdelta⟩ := deltaOf_some h
  rw [setDelta_eq hpar hdelta, insert_of_get? (hpay.params params hpar) hdelta,
    insert_of_get? hpay.fields hpar]

lemma textDelta?_setDelta (hmeth : isCoalescible payload = true)
    (h : deltaOf payload = some delta) (text : String) :
    textDelta? (setDelta payload text) = some (setDelta payload "", text.toList) := by
  obtain ⟨hkept, htext, hover⟩ := setDelta_fields h text
  unfold textDelta? isCoalescible at *
  rw [hkept, if_pos hmeth, htext, hover]
  rfl

lemma Payload.setDelta (hpay : Payload payload) (text : String) :
    Payload (setDelta payload text) := by
  unfold Sync.setDelta
  split
  · exact hpay
  rename_i params hpar
  split
  · refine ⟨hpay.fields.insert _ _, fun params' hpar' => ?_⟩
    rw [get?_insert (isObj_of_get? hpar), if_pos rfl] at hpar'
    cases hpar'
    exact (hpay.params params hpar).insert _ _
  · exact hpay

end Overwrite

/-- Objects of one size agree away from one key when every other field of the left one is a
field of the right one. -/
lemma lookupField_eq_of_all {l r : List (String × Json)} {skip k : String}
    (hl : Json.Ascending (.obj l)) (hlen : l.length = r.length)
    (hskip : ∃ w, lookupField skip r = some w)
    (hall : ∀ f ∈ l, f.1 ≠ skip → lookupField f.1 r = some f.2) (hk : k ≠ skip) :
    lookupField k l = lookupField k r := by
  cases hleft : lookupField k l with
  | some v => exact (hall (k, v) (mem_of_lookupField hleft) hk).symm
  | none =>
  refine (lookupField_eq_none_of_subset hl hlen (fun f hf => ?_) hleft).symm
  by_cases hf' : f.1 = skip
  · rw [hf']
    exact hskip
  · exact ⟨f.2, hall f hf hf'⟩

lemma sameParams_blank {left right : Json} (hleft : left.Ascending) (hright : right.Ascending)
    (h : sameStreamTextDeltaParams left right = true) :
    left.insert "delta" (.str "") = right.insert "delta" (.str "") := by
  unfold sameStreamTextDeltaParams at h
  split at h
  · rename_i l r
    split at h
    · cases h
    rename_i hshape
    push Not at hshape
    obtain ⟨hlen, -, hdelta⟩ := hshape
    refine congrArg obj (obj_ext (hleft.insert _ _) (hright.insert _ _) (fun k => ?_))
    rw [lookupField_insertField, lookupField_insertField]
    split
    · rfl
    rename_i hk
    refine lookupField_eq_of_all hleft hlen ?_ (fun f hf hne => ?_) hk
    · cases hget : lookupField "delta" r with
      | some w => exact ⟨w, rfl⟩
      | none =>
      change ((lookupField "delta" r).bind asStr?).isNone ≠ true at hdelta
      rw [hget] at hdelta
      exact absurd rfl hdelta
    · have hfield := all_eq_true.mp h f hf
      rw [Bool.or_eq_true, decide_eq_true_eq, decide_eq_true_eq] at hfield
      exact hfield.resolve_left hne
  · cases h

lemma sameEnvelope_blank {left right : Json} {leftDelta rightDelta : String}
    (hleft : Payload left) (hright : Payload right) (hl : deltaOf left = some leftDelta)
    (hr : deltaOf right = some rightDelta) (h : sameStreamTextDeltaEnvelope left right = true) :
    setDelta left "" = setDelta right "" ∧ isCoalescible left = true ∧
      isCoalescible right = true := by
  obtain ⟨lparams, hlparams, hldelta⟩ := deltaOf_some hl
  obtain ⟨rparams, hrparams, hrdelta⟩ := deltaOf_some hr
  unfold sameStreamTextDeltaEnvelope at h
  split at h
  · cases h
  rename_i hmeth
  push Not at hmeth
  rw [Bool.ne_false_iff] at hmeth
  have hcoalescible : isCoalescible right = true := by
    unfold isCoalescible at hmeth ⊢
    rw [← hmeth.1]
    exact hmeth.2
  refine ⟨?_, hmeth.2, hcoalescible⟩
  rw [setDelta_eq hlparams hldelta, setDelta_eq hrparams hrdelta]
  split at h
  · rename_i l r
    split at h
    · cases h
    rename_i hlen
    have hfield := all_eq_true.mp h
    -- The parameters of both sides agree up to the text.
    have hsame : lparams.insert "delta" (.str "") = rparams.insert "delta" (.str "") := by
      have hp := hfield ("params", lparams) (mem_of_lookupField hlparams)
      dsimp only at hp
      rw [show lookupField "params" r = some rparams from hrparams] at hp
      dsimp only at hp
      rw [if_pos rfl] at hp
      exact sameParams_blank (hleft.params _ hlparams) (hright.params _ hrparams) hp
    rw [hsame]
    refine congrArg obj (obj_ext (hleft.fields.insert _ _) (hright.fields.insert _ _) (fun k => ?_))
    rw [lookupField_insertField, lookupField_insertField]
    split
    · rfl
    rename_i hk
    refine lookupField_eq_of_all hleft.fields (not_not.mp hlen) ⟨_, hrparams⟩
      (fun f hf hne => ?_) hk
    have hf' := hfield f hf
    split at hf'
    · cases hf'
    · rename_i w hw
      rw [if_neg hne, decide_eq_true_eq] at hf'
      rw [hw, hf']
  · cases h

def Bounded (payload : Json) : Prop :=
  ∀ envelope text, textDelta? payload = some (envelope, text) →
    Text.utf8Len text ≤ maxCoalescedTextDeltaBytes

lemma pushText_pushText (said : List Segment) (envelope : Json) (text text' : List Char) :
    pushText (pushText said envelope text) envelope text' =
      pushText said envelope (text ++ text') := by
  have hlast : ∀ (l : List Segment) (u : List Char),
      pushText (l ++ [.text envelope u]) envelope text' = l ++ [.text envelope (u ++ text')] := by
    intro l u
    unfold pushText
    rw [getLast?_concat, dropLast_concat]
    dsimp only
    rw [if_pos rfl]
  conv_rhs => unfold pushText
  conv_lhs => arg 1; unfold pushText
  split
  · rename_i last before hget
    split
    · rename_i heq
      subst heq
      rw [hlast, append_assoc]
    · exact hlast said text
  · exact hlast said text

lemma pushSegment_text {payload envelope : Json} {text : List Char}
    (h : textDelta? payload = some (envelope, text)) (said : List Segment) :
    pushSegment said payload = pushText said envelope text := by
  unfold pushSegment
  rw [h]

lemma foldl_pieces {payload : Json} {delta : String} (hmeth : isCoalescible payload = true)
    (h : deltaOf payload = some delta) (chunk : List Char) (chunks : List (List Char))
    (said : List Segment) :
    ((chunk :: chunks).map (fun chunk => setDelta payload (String.ofList chunk))).foldl
        pushSegment said =
      pushText said (setDelta payload "") (chunk :: chunks).flatten := by
  induction chunks generalizing chunk said with
  | nil =>
    rw [map_singleton, foldl_cons, foldl_nil, pushSegment_text (textDelta?_setDelta hmeth h _)]
    simp
  | cons next rest ih =>
  have hstep := ih next (pushSegment said (setDelta payload (String.ofList chunk)))
  rw [pushSegment_text (textDelta?_setDelta hmeth h _), pushText_pushText] at hstep
  rw [map_cons, foldl_cons, pushSegment_text (textDelta?_setDelta hmeth h _)]
  simpa using hstep

/-- Cutting a payload: enough turns always cut it, into payloads within the limit that say
what it says. -/
lemma split_spec {payload : Json} (hpay : Payload payload) :
    ∃ parts, (∀ fuel, ((deltaOf payload).getD "").toList.length ≤ fuel →
        splitStreamTextDelta fuel payload = some parts) ∧
      (∀ part ∈ parts, Payload part ∧ Bounded part) ∧
      ∀ said, parts.foldl pushSegment said = pushSegment said payload := by
  have hkeep : Bounded payload → (∀ fuel, splitStreamTextDelta fuel payload = some [payload]) →
      ∃ parts, (∀ fuel, ((deltaOf payload).getD "").toList.length ≤ fuel →
          splitStreamTextDelta fuel payload = some parts) ∧
        (∀ part ∈ parts, Payload part ∧ Bounded part) ∧
        ∀ said, parts.foldl pushSegment said = pushSegment said payload := by
    intro hbd hsplit
    refine ⟨[payload], fun fuel _ => hsplit fuel, fun part hpart => ?_, fun said => rfl⟩
    rw [mem_singleton.mp hpart]
    exact ⟨hpay, hbd⟩
  cases hdelta : deltaOf payload with
  | none =>
    rw [← hdelta]
    refine hkeep (fun envelope text htext => ?_) (fun fuel => ?_)
    · unfold textDelta? at htext
      rw [hdelta] at htext
      split at htext <;> cases htext
    · unfold splitStreamTextDelta
      rw [hdelta]
      rfl
  | some delta =>
  by_cases hmeth : isCoalescible payload = true
  · by_cases hlong : maxCoalescedTextDeltaBytes < utf8Len delta.toList
    · -- A long delta is cut.
      obtain ⟨chunks, hloop, hflat, hbound⟩ :=
        @cutLoop_spec maxCoalescedTextDeltaBytes (by decide) _ [] delta.toList le_rfl
      refine ⟨chunks.map (fun chunk => setDelta payload (String.ofList chunk)), ?_, ?_, ?_⟩
      · intro fuel hfuel
        unfold splitStreamTextDelta
        rw [hdelta, filter_some, if_pos (decide_eq_true hlong)]
        dsimp only
        have hcut := hloop fuel hfuel
        rw [nil_append, utf8Len_nil] at hcut
        rw [if_pos hmeth, hcut]
        rfl
      · intro part hpart
        obtain ⟨chunk, hchunk, rfl⟩ := mem_map.mp hpart
        refine ⟨hpay.setDelta _, fun envelope text htext => ?_⟩
        rw [textDelta?_setDelta hmeth hdelta] at htext
        cases htext
        rw [String.toList_ofList]
        exact hbound chunk hchunk
      intro said
      cases chunks with
      | nil =>
        rw [flatten_nil] at hflat
        rw [← hflat] at hlong
        exact absurd hlong (by decide)
      | cons chunk rest =>
      have hself : textDelta? payload = some (setDelta payload "", delta.toList) := by
        unfold textDelta?
        rw [if_pos hmeth, hdelta]
        rfl
      rw [foldl_pieces hmeth hdelta, pushSegment_text hself, hflat]
    rw [← hdelta]
    refine hkeep (fun envelope text htext => ?_) (fun fuel => ?_)
    · unfold textDelta? at htext
      rw [if_pos hmeth, hdelta] at htext
      cases htext
      omega
    · unfold splitStreamTextDelta
      rw [hdelta, filter_some, if_neg (by simpa using hlong)]
  rw [← hdelta]
  refine hkeep (fun envelope text htext => ?_) (fun fuel => ?_)
  · unfold textDelta? at htext
    rw [if_neg hmeth] at htext
    cases htext
  unfold splitStreamTextDelta
  split
  · rfl
  · rw [if_neg hmeth]

lemma merge_spec {previous next merged : Json} (hprev : Payload previous)
    (hnext : Payload next) (h : mergeAdjacentStreamTextDelta previous next = some merged) :
    Payload merged ∧ Bounded merged ∧
      ∀ said, pushSegment (pushSegment said previous) next = pushSegment said merged := by
  unfold mergeAdjacentStreamTextDelta at h
  split at h
  · rename_i hsame
    split at h
    · rename_i nextDelta previousDelta hn hp
      split at h
      · cases h
      rename_i hfits
      cases h
      obtain ⟨hblank, hmeth, hmeth'⟩ := sameEnvelope_blank hprev hnext hp hn hsame
      have hmerged := textDelta?_setDelta hmeth hp (previousDelta ++ nextDelta)
      have hfirst : textDelta? previous = some (setDelta previous "", previousDelta.toList) := by
        unfold textDelta?
        rw [if_pos hmeth, hp]
        rfl
      have hsnd : textDelta? next = some (setDelta previous "", nextDelta.toList) := by
        unfold textDelta?
        rw [if_pos hmeth', hn, hblank]
        rfl
      refine ⟨hprev.setDelta _, fun envelope text htext => ?_, fun said => ?_⟩
      · rw [hmerged] at htext
        cases htext
        rw [String.toList_append, utf8Len_append]
        omega
      · rw [pushSegment_text hfirst, pushSegment_text hsnd, pushText_pushText,
          pushSegment_text hmerged, String.toList_append]
    · cases h
  · cases h

lemma segments_concat (l : List Json) (payload : Json) :
    segments (l ++ [payload]) = pushSegment (segments l) payload := foldl_concat ..

lemma pushCoalesced_spec {coalesced : List Json} {payload : Json}
    (hcoal : ∀ q ∈ coalesced, Payload q ∧ Bounded q) (hpay : Payload payload)
    (hbd : Bounded payload) :
    (∀ q ∈ pushCoalesced coalesced payload, Payload q ∧ Bounded q) ∧
      segments (pushCoalesced coalesced payload) = pushSegment (segments coalesced) payload := by
  have happ : (∀ q ∈ coalesced ++ [payload], Payload q ∧ Bounded q) ∧
      segments (coalesced ++ [payload]) = pushSegment (segments coalesced) payload := by
    refine ⟨fun q hq => ?_, segments_concat _ _⟩
    rcases mem_append.mp hq with hq | hq
    · exact hcoal q hq
    · rw [mem_singleton.mp hq]
      exact ⟨hpay, hbd⟩
  unfold pushCoalesced
  split
  · exact happ
  rename_i previous hlast
  have hsplit := dropLast_append_getLast? previous hlast
  split
  · rename_i merged hmerge
    obtain ⟨hmerged, hwin, hsay⟩ := merge_spec
      (hcoal previous (mem_of_getLast? hlast)).1 hpay hmerge
    refine ⟨fun q hq => ?_, ?_⟩
    · rcases mem_append.mp hq with hq | hq
      · exact hcoal q (dropLast_subset _ hq)
      · rw [mem_singleton.mp hq]
        exact ⟨hmerged, hwin⟩
    · rw [segments_concat, ← hsay, ← segments_concat, hsplit]
  · exact happ

lemma foldl_pushCoalesced {parts coalesced : List Json}
    (hcoal : ∀ q ∈ coalesced, Payload q ∧ Bounded q)
    (hparts : ∀ q ∈ parts, Payload q ∧ Bounded q) :
    (∀ q ∈ parts.foldl pushCoalesced coalesced, Payload q ∧ Bounded q) ∧
      segments (parts.foldl pushCoalesced coalesced) =
        parts.foldl pushSegment (segments coalesced) := by
  induction parts generalizing coalesced with
  | nil => exact ⟨hcoal, rfl⟩
  | cons part rest ih =>
  obtain ⟨hpart, hbd⟩ := hparts part mem_cons_self
  obtain ⟨hall, hsay⟩ := pushCoalesced_spec hcoal hpart hbd
  have hrest := ih hall (fun q hq => hparts q (mem_cons_of_mem _ hq))
  rw [hsay] at hrest
  exact hrest

lemma mapM_split_spec {payloads : List Json} (hpayloads : ∀ p ∈ payloads, Payload p) :
    ∃ parts, (∀ fuel, (∀ p ∈ payloads, ((deltaOf p).getD "").toList.length ≤ fuel) →
        payloads.mapM (splitStreamTextDelta fuel) = some parts) ∧
      (∀ part ∈ parts.flatten, Payload part ∧ Bounded part) ∧
      ∀ said, parts.flatten.foldl pushSegment said = payloads.foldl pushSegment said := by
  induction payloads with
  | nil => exact ⟨[], fun _ _ => rfl, by simp, fun _ => rfl⟩
  | cons p rest ih =>
  obtain ⟨cut, hcut, hcutAll, hcutSay⟩ := split_spec (hpayloads p mem_cons_self)
  obtain ⟨parts, hparts, hall, hsay⟩ := ih (fun q hq => hpayloads q (mem_cons_of_mem _ hq))
  refine ⟨cut :: parts, fun fuel hfuel => ?_, fun part hpart => ?_, fun said => ?_⟩
  · have hfirst := hcut fuel (hfuel p mem_cons_self)
    have hrest := hparts fuel (fun q hq => hfuel q (mem_cons_of_mem _ hq))
    rw [mapM_cons, hfirst, hrest]
    rfl
  · rw [flatten_cons] at hpart
    rcases mem_append.mp hpart with hpart | hpart
    · exact hcutAll part hpart
    · exact hall part hpart
  · rw [flatten_cons, foldl_append, hcutSay, hsay, foldl_cons]

lemma filterMap_pushText (said : List Segment) (envelope : Json) (text : List Char) :
    (pushText said envelope text).filterMap Segment.other? = said.filterMap Segment.other? := by
  unfold pushText
  split
  · rename_i last before hlast
    split
    · conv_rhs => rw [← dropLast_append_getLast? _ hlast]
      rw [filterMap_append, filterMap_append]
      rfl
    · rw [filterMap_append]
      exact append_nil _
  · rw [filterMap_append]
    exact append_nil _

lemma others_foldl (payloads : List Json) (said : List Segment) :
    (payloads.foldl pushSegment said).filterMap Segment.other? =
      said.filterMap Segment.other? ++ others payloads := by
  induction payloads generalizing said with
  | nil => exact (append_nil _).symm
  | cons p rest ih =>
  rw [foldl_cons, ih]
  unfold pushSegment others
  cases htext : textDelta? p with
  | none =>
    rw [filterMap_append, filter_cons_of_pos (by rw [htext]; rfl), append_assoc]
    rfl
  | some text => rw [filterMap_pushText, filter_cons_of_neg (by rw [htext]; simp)]

lemma filterMap_segments (payloads : List Json) :
    (segments payloads).filterMap Segment.other? = others payloads := others_foldl payloads []

lemma coalesce_spec {payloads : List Json} (hpayloads : ∀ p ∈ payloads, Payload p) :
    ∃ out, (∀ fuel, (∀ p ∈ payloads, ((deltaOf p).getD "").toList.length ≤ fuel) →
        coalesceStreamTextDeltas fuel payloads = some out) ∧
      (∀ q ∈ out, Payload q ∧ Bounded q) ∧ segments out = segments payloads := by
  obtain ⟨parts, hparts, hall, hsay⟩ := mapM_split_spec hpayloads
  obtain ⟨hout, hsegments⟩ := @foldl_pushCoalesced parts.flatten [] (by simp) hall
  refine ⟨parts.flatten.foldl pushCoalesced [], fun fuel hfuel => ?_, hout,
    hsegments.trans (hsay [])⟩
  unfold coalesceStreamTextDeltas
  rw [hparts fuel hfuel]
  rfl

/-- The batch has the other payloads in their order, the same text in every run, and bounded deltas.
-/
theorem coalesce_segments (payloads : List Json) (hpayloads : ∀ p ∈ payloads, Payload p) :
    ∃ out, (∀ fuel, (∀ p ∈ payloads, ((deltaOf p).getD "").toList.length ≤ fuel) →
        coalesceStreamTextDeltas fuel payloads = some out) ∧
      others out = others payloads ∧ segments out = segments payloads ∧
      ∀ q ∈ out, Bounded q := by
  obtain ⟨out, hrun, hout, hsame⟩ := coalesce_spec hpayloads
  refine ⟨out, hrun, ?_, hsame, fun q hq => (hout q hq).2⟩
  rw [← filterMap_segments, hsame, filterMap_segments]

def answerDelta (item text : String) : Json :=
  .ofFields [("method", .str "item/agentMessage/delta"),
    ("params", .ofFields [("delta", .str text), ("itemId", .str item)])]

lemma payload_message (method : Json) (params : List (String × Json)) :
    Payload (.ofFields [("method", method), ("params", .ofFields params)]) := by
  refine ⟨ascending_ofFields _, fun params' hpar => ?_⟩
  rw [get?_ofFields] at hpar
  simp only [lookupField, reverse_cons, reverse_nil, nil_append,
    cons_append, if_true, some.injEq] at hpar
  subst hpar
  exact ascending_ofFields _

/-- Two pieces of one answer become one payload; the piece of another item stays apart. -/
theorem coalesce_segments_answer :
    (∀ p ∈ [answerDelta "a" "Hel", answerDelta "a" "lo", answerDelta "b" "x"], Payload p) ∧
      ∃ out, (∀ fuel, (∀ p ∈ [answerDelta "a" "Hel", answerDelta "a" "lo", answerDelta "b" "x"],
          ((deltaOf p).getD "").toList.length ≤ fuel) →
        coalesceStreamTextDeltas fuel
          [answerDelta "a" "Hel", answerDelta "a" "lo", answerDelta "b" "x"] = some out) ∧
      out = [answerDelta "a" "Hello", answerDelta "b" "x"] ∧ ∀ q ∈ out, Bounded q := by
  have hall : ∀ p ∈ [answerDelta "a" "Hel", answerDelta "a" "lo", answerDelta "b" "x"],
      Payload p := by
    intro p hp
    simp only [mem_cons, not_mem_nil, or_false] at hp
    rcases hp with rfl | rfl | rfl <;> exact payload_message _ _
  obtain ⟨out, hrun, -, -, hbd⟩ := coalesce_segments _ hall
  refine ⟨hall, out, hrun, ?_, hbd⟩
  have hout := hrun 3 (by decide)
  have hgives : coalesceStreamTextDeltas 3
      [answerDelta "a" "Hel", answerDelta "a" "lo", answerDelta "b" "x"] =
        some [answerDelta "a" "Hello", answerDelta "b" "x"] := by decide
  exact some.inj (hout.symm.trans hgives)

end CodeWide.Sync
