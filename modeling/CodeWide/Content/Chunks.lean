import CodeWide.Lib.Saturating
import CodeWide.Lib.Text
import CodeWide.Lib.Utf8
import Mathlib

/-!
# Chunks of a content

Both ends of a range of a text are moved forward to the start of a character, so a range inside one
character begins nowhere.
-/

namespace CodeWide.Content

open Lib List Saturating Text

def maxChunkBytes : Nat := 256 * 1024

def maxTextPageBytes : Nat := 2 * 1024 * 1024

structure ContentQuery where
  offset : Option Nat
  limit : Option Nat

structure RequestedRange where
  start : Nat
  stop : Nat
  isPartial : Bool

inductive ContentError where
  | invalidRange

def parseUsize (raw : List Char) : Option Nat :=
  let digits := if raw.head? = some '+' then raw.tail else raw
  if digits ≠ [] ∧ digits.all Char.isDigit ∧ Nat.ofDigits 10 (digits.reverse.map
      fun c => c.toNat - '0'.toNat) ≤ max64 then
    some (Nat.ofDigits 10 (digits.reverse.map fun c => c.toNat - '0'.toNat))
  else none

def headerRange (raw : String) (total : Nat) : Option (Nat × Nat) := do
  let rest ← if "bytes=".toList.isPrefixOf raw.toList then some (raw.toList.drop 6) else none
  let (rawStart, rawStop) ← splitOnce ['-'] rest
  let start ← parseUsize rawStart
  if rawStop = [] then some (start, total)
  else (parseUsize rawStop).map fun stop => (start, add64 stop 1)

def requestedRange (query : ContentQuery) (header : Option String) (total : Nat) :
    Except ContentError RequestedRange :=
  let start := query.offset.getD 0
  let asked := match header with
    | none => some (start, add64 start (query.limit.getD maxChunkBytes))
    | some raw => headerRange raw total
  match asked with
  | none => .error .invalidRange
  | some (start, stop) =>
    if total ≤ start ∨ stop ≤ start then .error .invalidRange
    else
      let stop := min (min stop total) (add64 start maxChunkBytes)
      .ok ⟨start, stop, query.offset.isSome || query.limit.isSome || header.isSome ||
        decide (start ≠ 0) || decide (stop ≠ total)⟩

def requestedTextRange (query : ContentQuery) (total : Nat) : Except ContentError RequestedRange :=
  let start := query.offset.getD 0
  let limit := query.limit.getD maxTextPageBytes
  if total ≤ start ∨ limit = 0 ∨ maxTextPageBytes < limit then .error .invalidRange
  else
    let stop := min (add64 start limit) total
    .ok ⟨start, stop, decide (start ≠ 0) || decide (stop ≠ total)⟩

def continues (bytes : List Byte) (i : Nat) : Bool :=
  (bytes[i]?).any fun byte => byte.val &&& 0b11000000 = 0b10000000

/-- A loop over at most `gap` bytes that go on with a character. -/
def forward (bytes : List Byte) : Nat → Nat → Nat
  | 0, i => i
  | gap + 1, i => if continues bytes i then forward bytes gap (i + 1) else i

def alignUtf8Range (bytes : List Byte) (range : RequestedRange) : RequestedRange :=
  { range with
    start := if range.start = 0 then 0 else forward bytes (range.stop - range.start) range.start
    stop := forward bytes (bytes.length - range.stop) range.stop }

def slice (bytes : List Byte) (range : RequestedRange) : List Byte :=
  (bytes.take range.stop).drop range.start

structure StoredContent where
  bytes : List Byte
  fits : bytes.length ≤ max64
  -- the content type names the charset
  utf8 : Bool

structure ChunkRequest where
  query : ContentQuery
  range : Option String

def serve (content : StoredContent) (request : ChunkRequest) : Except ContentError (List Byte) := do
  let range ← requestedRange request.query request.range content.bytes.length
  return slice content.bytes (if content.utf8 then alignUtf8Range content.bytes range else range)

structure TextPage where
  offset : Nat
  totalBytes : Nat
  complete : Bool
  nextOffset : Option Nat
  body : List Byte

def serveText (content : StoredContent) (query : ContentQuery) : Except ContentError TextPage := do
  let bytes := content.bytes
  let range ← if bytes = [] then .ok ⟨0, 0, false⟩ else requestedTextRange query bytes.length
  let range := alignUtf8Range bytes range
  return ⟨range.start, bytes.length, decide (bytes.length ≤ range.stop),
    if range.stop < bytes.length then some range.stop else none, slice bytes range⟩

/-! ## Requests that cover a content -/

def Covers (total : Nat) : Nat → List ChunkRequest → Prop
  | start, [] => start = total
  | start, request :: rest => ∃ range, requestedRange request.query request.range total = .ok range ∧
      range.start = start ∧ Covers total range.stop rest

def Inside (bytes : List Byte) (request : ChunkRequest) : Prop :=
  ∃ range, requestedRange request.query request.range bytes.length = .ok range ∧
    0 < range.start ∧ ∀ i, range.start ≤ i → i ≤ range.stop → continues bytes i = true

def chunks (content : StoredContent) : List ChunkRequest → Except ContentError (List Byte)
  | [] => .ok []
  | request :: rest => do
    let body ← serve content request
    let more ← chunks content rest
    return body ++ more

def follow (content : StoredContent) (limit : Nat → Option Nat) : Nat → Nat → Nat → Option (List Byte)
  | 0, _, _ => none
  | fuel + 1, page, offset =>
    match serveText content ⟨some offset, limit page⟩ with
    | .error _ => none
    | .ok answer =>
      match answer.nextOffset with
      | none => some answer.body
      | some next => (follow content limit fuel (page + 1) next).map (answer.body ++ ·)

/-! ## Moving forward -/

variable {bytes : List Byte} {gap i : Nat}

lemma le_forward : i ≤ forward bytes gap i := by
  induction gap generalizing i with
  | zero => exact Nat.le_refl _
  | succ gap ih =>
  rw [forward]
  split
  · exact Nat.le_trans (Nat.le_succ i) ih
  · exact Nat.le_refl _

lemma forward_eq_min (more : Nat) :
    forward bytes gap i = min (forward bytes (gap + more) i) (i + gap) := by
  induction gap generalizing i with
  | zero => exact (Nat.min_eq_right le_forward).symm
  | succ gap ih =>
  rw [Nat.add_right_comm, forward, forward]
  split
  · rw [ih, Nat.add_right_comm, Nat.add_assoc i gap 1]
  · exact (Nat.min_eq_left (Nat.le_add_right _ _)).symm

lemma continues_of_lt_forward {j : Nat} (hle : i ≤ j) (hlt : j < forward bytes gap i) :
    continues bytes j = true := by
  induction gap generalizing i with
  | zero => exact absurd hlt (Nat.not_lt_of_le hle)
  | succ gap ih =>
  rw [forward] at hlt
  split at hlt
  · next hcontinues =>
    rcases Nat.eq_or_lt_of_le hle with rfl | hlt'
    · exact hcontinues
    · exact ih hlt' hlt
  · exact absurd hlt (Nat.not_lt_of_le hle)

lemma forward_stops : forward bytes gap i = i + gap ∨ continues bytes (forward bytes gap i) = false := by
  induction gap generalizing i with
  | zero => exact .inl rfl
  | succ gap ih =>
  rw [forward]
  split
  · rw [Nat.add_comm gap 1, ← Nat.add_assoc]
    exact ih
  · next hstops => exact .inr (Bool.eq_false_iff.mpr hstops)

lemma lt_of_continues (h : continues bytes i = true) : i < bytes.length := by
  by_contra hge
  rw [continues, getElem?_eq_none (Nat.le_of_not_lt hge)] at h
  cases h

def boundary (bytes : List Byte) (i : Nat) : Nat := forward bytes (bytes.length - i) i

lemma boundary_stops (i : Nat) : continues bytes (boundary bytes i) = false := by
  rcases @forward_stops bytes (bytes.length - i) i with hend | hstops
  · rw [Bool.eq_false_iff]
    intro hcontinues
    have hlt := lt_of_continues hcontinues
    rw [boundary, hend] at hlt
    omega
  · exact hstops

lemma boundary_le (hle : i ≤ bytes.length) : boundary bytes i ≤ bytes.length := by
  by_contra hgt
  have hlast := continues_of_lt_forward hle (Nat.lt_of_not_le hgt)
  exact absurd (lt_of_continues hlast) (Nat.lt_irrefl _)

lemma boundary_eq {j : Nat} (hle : i ≤ j) (hlt : j ≤ boundary bytes i) :
    boundary bytes j = boundary bytes i := by
  rcases Nat.lt_trichotomy (boundary bytes j) (boundary bytes i) with hless | heq | hmore
  · have hgoes : continues bytes (boundary bytes j) = true :=
      continues_of_lt_forward (Nat.le_trans hle le_forward) hless
    rw [boundary_stops] at hgoes
    cases hgoes
  · exact heq
  · have hgoes : continues bytes (boundary bytes i) = true := continues_of_lt_forward hlt hmore
    rw [boundary_stops] at hgoes
    cases hgoes

def served (bytes : List Byte) (start : Nat) : Nat := if start = 0 then 0 else boundary bytes start

section Ranges

variable {total start : Nat} {request : ChunkRequest} {range : RequestedRange}

lemma requestedRange_spec (htotal : total ≤ max64)
    (h : requestedRange request.query request.range total = .ok range) :
    range.start < range.stop ∧ range.stop ≤ total := by
  unfold requestedRange at h
  dsimp only at h
  split at h
  · cases h
  split at h
  · cases h
  next hbounds =>
  cases h
  rw [not_or, Nat.not_le, Nat.not_le] at hbounds
  refine ⟨Nat.lt_min.mpr ⟨Nat.lt_min.mpr ⟨hbounds.2, hbounds.1⟩, ?_⟩, ?_⟩
  · refine Nat.lt_min.mpr ⟨Nat.lt_add_of_pos_right (by decide), ?_⟩
    exact Nat.lt_of_lt_of_le hbounds.1 htotal
  · exact (Nat.min_le_left _ _).trans (Nat.min_le_right _ _)

lemma inside_iff (h : requestedRange request.query request.range bytes.length = .ok range) :
    Inside bytes request ↔ 0 < range.start ∧ range.stop < boundary bytes range.start := by
  constructor
  · rintro ⟨other, hother, hpos, hgoes⟩
    rw [h] at hother
    cases hother
    refine ⟨hpos, Nat.lt_of_not_le fun hle => ?_⟩
    have hstart := hgoes _ le_forward hle
    rw [show forward _ _ _ = boundary bytes range.start from rfl, boundary_stops] at hstart
    cases hstart
  · rintro ⟨hpos, hlt⟩
    exact ⟨range, h, hpos, fun j hle hlast =>
      continues_of_lt_forward hle (Nat.lt_of_le_of_lt hlast hlt)⟩

/-- An aligned chunk goes on where those before it end, unless its range lies inside a character. -/
lemma slice_alignUtf8Range (hlt : range.start < range.stop) (hle : range.stop ≤ bytes.length) :
    (0 < range.start ∧ range.stop < boundary bytes range.start ∧
      slice bytes (alignUtf8Range bytes range) =
        (bytes.take (served bytes range.stop)).drop range.stop ∧
      served bytes range.stop = served bytes range.start) ∨
    (¬ (0 < range.start ∧ range.stop < boundary bytes range.start) ∧
      served bytes range.start ≤ served bytes range.stop ∧
      slice bytes (alignUtf8Range bytes range) =
        (bytes.take (served bytes range.stop)).drop (served bytes range.start)) := by
  have hstop : served bytes range.stop = boundary bytes range.stop := if_neg (by omega)
  have hpast : range.stop ≤ boundary bytes range.stop := le_forward
  rw [hstop]
  by_cases hzero : range.start = 0
  · refine .inr ⟨by omega, ?_, ?_⟩
    · rw [served, if_pos hzero]
      exact Nat.zero_le _
    · simp only [slice, alignUtf8Range, served, if_pos hzero]
      rfl
  have hstart : served bytes range.start = boundary bytes range.start := if_neg hzero
  have haligned : forward bytes (range.stop - range.start) range.start =
      min (boundary bytes range.start) range.stop := by
    rw [forward_eq_min (bytes.length - range.stop), boundary]
    congr 2 <;> omega
  have hslice : slice bytes (alignUtf8Range bytes range) =
      (bytes.take (boundary bytes range.stop)).drop (min (boundary bytes range.start) range.stop) := by
    simp only [slice, alignUtf8Range, if_neg hzero, haligned]
    rfl
  rw [hslice, hstart]
  by_cases hins : range.stop < boundary bytes range.start
  · refine .inl ⟨Nat.pos_of_ne_zero hzero, hins, ?_, boundary_eq (Nat.le_of_lt hlt)
      (Nat.le_of_lt hins)⟩
    rw [Nat.min_eq_right (Nat.le_of_lt hins)]
  · have hle' := Nat.le_of_not_lt hins
    refine .inr ⟨fun h => hins h.2, hle'.trans hpast, ?_⟩
    rw [Nat.min_eq_left hle']

lemma served_length : served bytes bytes.length = bytes.length := by
  unfold served
  split
  · next hzero => exact hzero.symm
  · exact Nat.le_antisymm (boundary_le (Nat.le_refl _)) le_forward

lemma drop_append_chunk {a b : Nat} (hab : a ≤ b) :
    (bytes.take b).drop a ++ bytes.drop b = bytes.drop a := by
  rw [← drop_take_append_drop bytes a (b - a), Nat.add_sub_cancel' hab, drop_take]

variable {content : StoredContent}

lemma chunks_cons {rest : List ChunkRequest} {out : List Byte}
    (h : requestedRange request.query request.range content.bytes.length = .ok range)
    (hrest : chunks content rest = .ok out) :
    chunks content (request :: rest) = .ok (slice content.bytes
      (if content.utf8 then alignUtf8Range content.bytes range else range) ++ out) := by
  simp only [chunks, serve, h, hrest]
  rfl

variable {requests : List ChunkRequest}

lemma chunks_of_covers (content : StoredContent) (hutf8 : content.utf8 = true) (hcovers : Covers content.bytes.length start requests) :
    ∃ out, chunks content requests = .ok out ∧
      content.bytes.length - served content.bytes start ≤ out.length ∧
      ((∃ request ∈ requests, Inside content.bytes request) →
        content.bytes.length - served content.bytes start < out.length) ∧
      ((∀ request ∈ requests, ¬ Inside content.bytes request) →
        out = content.bytes.drop (served content.bytes start)) := by
  induction requests generalizing start with
  | nil =>
    obtain rfl : start = content.bytes.length := hcovers
    rw [served_length, drop_length]
    exact ⟨[], rfl, by simp, by simp, fun _ => rfl⟩
  | cons request rest ih =>
  obtain ⟨range, hrange, rfl, hrest⟩ := hcovers
  obtain ⟨hlt, hle⟩ := requestedRange_spec content.fits hrange
  obtain ⟨out, hout, hlength, hmore, hexact⟩ := ih hrest
  refine ⟨_, chunks_cons hrange hout, ?_⟩
  rw [if_pos hutf8, length_append]
  have hserved : served content.bytes range.stop ≤ content.bytes.length := by
    rw [served, if_neg (by omega)]
    exact boundary_le hle
  have hins := inside_iff hrange
  simp only [mem_cons, exists_eq_or_imp, forall_eq_or_imp]
  rcases slice_alignUtf8Range hlt hle with ⟨hpos, hwin, hslice, hsame⟩ | ⟨hnot, hforward, hslice⟩
  · rw [hslice, ← hsame, length_drop, length_take, Nat.min_eq_left hserved]
    have hpast : range.stop < served content.bytes range.stop := by
      rw [hsame, served, if_neg (by omega)]
      exact hwin
    exact ⟨by omega, fun _ => by omega, fun h => absurd (hins.mpr ⟨hpos, hwin⟩) h.1⟩
  rw [hslice, length_drop, length_take, Nat.min_eq_left hserved]
  refine ⟨by omega, fun h => ?_, fun h => ?_⟩
  · have := hmore (h.resolve_left fun h => hnot (hins.mp h))
    omega
  · rw [hexact h.2]
    exact drop_append_chunk hforward

lemma chunks_of_covers_bytes (content : StoredContent) (hutf8 : content.utf8 = false) (hcovers : Covers content.bytes.length start requests) :
    chunks content requests = .ok (content.bytes.drop start) := by
  induction requests generalizing start with
  | nil =>
    obtain rfl : start = content.bytes.length := hcovers
    rw [drop_length]
    rfl
  | cons request rest ih =>
  obtain ⟨range, hrange, rfl, hrest⟩ := hcovers
  rw [chunks_cons hrange (ih hrest), hutf8]
  refine congrArg Except.ok (drop_append_chunk ?_)
  exact Nat.le_of_lt (requestedRange_spec content.fits hrange).1

lemma forward_of_stops (h : continues bytes i = false) : forward bytes gap i = i := by
  cases gap with
  | zero => rfl
  | succ gap => rw [forward, h, if_neg Bool.false_ne_true]

lemma serveText_of_stops (content : StoredContent) {offset : Nat} {limit : Option Nat}
    (hlimit : ∀ l, limit = some l → 0 < l ∧ l ≤ maxTextPageBytes)
    (hoffset : offset < content.bytes.length)
    (hstops : offset = 0 ∨ continues content.bytes offset = false) :
    ∃ stop, offset < stop ∧ stop ≤ content.bytes.length ∧ serveText content ⟨some offset, limit⟩ =
      .ok ⟨offset, content.bytes.length, decide (content.bytes.length ≤ boundary content.bytes stop),
        if boundary content.bytes stop < content.bytes.length then
          some (boundary content.bytes stop) else none,
        (content.bytes.take (boundary content.bytes stop)).drop offset⟩ := by
  have hl : 0 < limit.getD maxTextPageBytes ∧ limit.getD maxTextPageBytes ≤ maxTextPageBytes := by
    cases limit with
    | none => exact ⟨by decide, Nat.le_refl _⟩
    | some l => exact hlimit l rfl
  have hne : content.bytes ≠ [] := ne_nil_of_length_pos (Nat.lt_of_le_of_lt (Nat.zero_le _) hoffset)
  have hstart : ∀ gap, (if offset = 0 then 0 else forward content.bytes gap offset) = offset := by
    intro gap
    rcases hstops with rfl | hstops
    · rfl
    · rw [forward_of_stops hstops, ite_eq_right_iff]
      exact Eq.symm
  refine ⟨min (add64 offset (limit.getD maxTextPageBytes)) content.bytes.length,
    Nat.lt_min.mpr ⟨Nat.lt_min.mpr ⟨by omega, Nat.lt_of_lt_of_le hoffset content.fits⟩, hoffset⟩,
    Nat.min_le_right _ _, ?_⟩
  have hrange : requestedTextRange ⟨some offset, limit⟩ content.bytes.length =
      .ok ⟨offset, min (add64 offset (limit.getD maxTextPageBytes)) content.bytes.length, _⟩ :=
    if_neg (by simp only [Option.getD_some]; omega)
  rw [serveText, if_neg hne, hrange]
  simp only [bind, Except.bind, alignUtf8Range, hstart]
  rfl

lemma follow_eq {limit : Nat → Option Nat}
    (hlimit : ∀ page l, limit page = some l → 0 < l ∧ l ≤ maxTextPageBytes) {fuel page offset : Nat}
    (hoffset : offset < content.bytes.length)
    (hstops : offset = 0 ∨ continues content.bytes offset = false)
    (hfuel : content.bytes.length < fuel + offset) :
    follow content limit fuel page offset = some (content.bytes.drop offset) := by
  induction fuel generalizing page offset with
  | zero => omega
  | succ fuel ih =>
  obtain ⟨stop, hlt, hle, hans⟩ := serveText_of_stops content (hlimit page) hoffset hstops
  have hpast : stop ≤ boundary content.bytes stop := le_forward
  rw [follow, hans]
  dsimp only
  by_cases hmore : boundary content.bytes stop < content.bytes.length
  · rw [if_pos hmore]
    dsimp only
    rw [ih hmore (.inr (boundary_stops stop)) (by omega)]
    exact congrArg some (drop_append_chunk (by omega))
  · rw [if_neg hmore]
    dsimp only
    rw [take_of_length_le (Nat.le_of_not_lt hmore)]

end Ranges

/-- The chunks of a text are the text exactly when no range starts and ends inside one character. -/
theorem chunks_concatenate_iff (bytes : List Byte) (fits : bytes.length ≤ max64)
    (requests : List ChunkRequest) (hcovers : Covers bytes.length 0 requests)
    (limit : Nat → Option Nat)
    (hlimit : ∀ page l, limit page = some l → 0 < l ∧ l ≤ maxTextPageBytes) :
    (chunks ⟨bytes, fits, true⟩ requests = .ok bytes ↔
      ∀ request ∈ requests, ¬ Inside bytes request) ∧
    chunks ⟨bytes, fits, false⟩ requests = .ok bytes ∧
    follow ⟨bytes, fits, true⟩ limit (bytes.length + 1) 0 0 = some bytes := by
  refine ⟨?_, chunks_of_covers_bytes ⟨bytes, fits, false⟩ rfl hcovers, ?_⟩
  · obtain ⟨out, hout, -, hmore, hexact⟩ := chunks_of_covers ⟨bytes, fits, true⟩ rfl hcovers
    rw [hout]
    constructor
    · intro heq request hmem hins
      have hlt := hmore ⟨request, hmem, hins⟩
      cases heq
      exact absurd hlt (Nat.lt_irrefl _)
    · intro hnone
      exact congrArg Except.ok (hexact hnone)
  by_cases hempty : bytes = []
  · subst hempty
    rfl
  · exact follow_eq hlimit (length_pos_of_ne_nil hempty) (.inl rfl) (by simp)

def face : List Byte := [0xf0, 0x9f, 0x98, 0x80]

def byteRange (start stop : Nat) : ChunkRequest := ⟨⟨some start, some (stop - start)⟩, none⟩

theorem chunks_concatenate_of_face :
    chunks ⟨face, by decide, false⟩ [byteRange 0 2, byteRange 2 4] = .ok face ∧
      follow ⟨face, by decide, true⟩ (fun _ => some 1) 5 0 0 = some face :=
  (chunks_concatenate_iff face (by decide) [byteRange 0 2, byteRange 2 4]
    ⟨⟨0, 2, true⟩, rfl, rfl, ⟨2, 4, true⟩, rfl, rfl, rfl⟩ (fun _ => some 1)
    (fun _ l h => by cases h; decide)).2

theorem split_character_served_twice :
    chunks ⟨face, by decide, true⟩ [byteRange 0 1, byteRange 1 2, byteRange 2 3, byteRange 3 4] ≠
      .ok face :=
  fun h => absurd (congrArg Except.toOption h) (by decide)

end CodeWide.Content
