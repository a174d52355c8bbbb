import CodeWide.Agent.ListCursor
import CodeWide.Lib.Text

/-!
# Request ids on the wire

The ids of the primary provider are sent as they are; those of another one as a text that names the
provider in front of a colon, and then the JSON text of the native id.
-/

namespace CodeWide.Agent.RequestIds

open Lib List Listing.CursorText
open Option (bind_some map_some map_none some.inj)

def maxIdBytes : Nat := 512

structure ProviderId where
  text : String
  valid : text ≠ "" ∧ text.utf8ByteSize ≤ maxIdBytes
deriving DecidableEq

def ProviderId.parse (value : String) : Option ProviderId :=
  if h : value ≠ "" ∧ value.utf8ByteSize ≤ maxIdBytes then some ⟨value, h⟩ else none

inductive NativeRequestId where
  | text (text : String)
  | number (number : Int) (range : -(2 ^ 63) ≤ number ∧ number < 2 ^ 63)

lemma ProviderId.ext_text {provider other : ProviderId} (h : provider.text = other.text) :
    provider = other := by
  cases provider
  cases other
  cases h
  rfl

namespace NativeRequestId

def fromJson : Json → Option NativeRequestId
  | .str value => if value.utf8ByteSize ≤ maxIdBytes then some (.text value) else none
  | .int value => if h : -(2 ^ 63) ≤ value ∧ value < 2 ^ 63 then some (.number value h) else none
  | _ => none

def toJson : NativeRequestId → Json
  | .text value => .str value
  | .number value _ => .int value

def jsonText : NativeRequestId → List Char
  | .text value => writeText value.toList
  | .number value _ => value.repr.toList

def Bounded : NativeRequestId → Prop
  | .text value => value.utf8ByteSize ≤ maxIdBytes
  | .number .. => True

end NativeRequestId

structure RuntimeRequestId where
  provider : ProviderId
  nativeId : NativeRequestId

def prefixText : List Char := "cw-".toList

def encode (id : RuntimeRequestId) (primary : ProviderId) : Json :=
  if id.provider = primary then id.nativeId.toJson
  else .str (String.ofList (prefixText ++ (id.provider.text.toList ++ ':' :: id.nativeId.jsonText)))

/-- The text behind the marker of an id that is not the primary provider's. -/
def marked (id : Json) : Option (List Char) := id.asStr?.bind fun text => strip prefixText text.toList

def isAmbiguousPrimaryId (id : Json) : Bool := (marked id).isSome

def decode (parseJson : String → Option Json) (id : Json) (primary : ProviderId) :
    Option RuntimeRequestId :=
  match marked id with
  | none => (NativeRequestId.fromJson id).map fun nativeId => ⟨primary, nativeId⟩
  | some text => do
    let (provider, native) ← Text.splitOnce [':'] text
    let provider ← ProviderId.parse (String.ofList provider)
    if provider = primary then none
    else do
      let native ← parseJson (String.ofList native)
      (NativeRequestId.fromJson native).map fun nativeId => ⟨provider, nativeId⟩

/-! ## Texts with quotes escaped -/

/-- No quote stands at the start or behind a colon. -/
def Quoted (l : List Char) : Prop :=
  l.IsChain (fun a b => a = ':' → b ≠ '"') ∧ ∀ c ∈ l.head?, c ≠ '"'

lemma Quoted.append {l m : List Char} (hl : Quoted l) (hm : Quoted m) : Quoted (l ++ m) := by
  refine ⟨isChain_append.mpr ⟨hl.1, hm.1, fun _ _ c hc _ => hm.2 c hc⟩, ?_⟩
  cases l with
  | nil => exact hm.2
  | cons c l => exact hl.2

lemma quoted_escape (c : Char) : Quoted (escape c) := by
  have hdigit : ∀ n ∈ range 32, hexDigit (n / 16) ≠ ':' := by decide
  unfold escape Quoted
  split_ifs with hquote _ _ _ _ _ _ hcontrol
  iterate 7 · simp
  · simp [hdigit _ (mem_range.mpr hcontrol)]
  · simp [hquote]

lemma Quoted.not_split {l : List Char} (h : Quoted l) (front back : List Char) :
    '"' :: l ≠ front ++ ':' :: '"' :: back := by
  intro heq
  have hchain : ('"' :: l).IsChain (fun a b => a = ':' → b ≠ '"') :=
    isChain_cons.mpr ⟨fun _ _ hcolon => absurd hcolon (by decide), h.1⟩
  rw [heq] at hchain
  exact (isChain_cons_cons.mp (isChain_append.mp hchain).2.1).1 rfl rfl

lemma quoted_flatMap (s : List Char) : Quoted (s.flatMap escape) := by
  induction s with
  | nil => exact ⟨.nil, fun _ h => by cases h⟩
  | cons c s ih => exact (quoted_escape c).append ih

variable {parseJson : String → Option Json} {primary : ProviderId} {id other : RuntimeRequestId}

open NativeRequestId

lemma jsonText_not_split (native native' : NativeRequestId) (front : List Char) :
    native.jsonText ≠ front ++ ':' :: native'.jsonText := by
  intro heq
  have hquote : '"' ∉ (':' :: native'.jsonText) → native.jsonText.getLast? ≠ some '"' := by
    intro hnot hlast
    rw [heq, getLast?_append_of_ne_nil _ (cons_ne_nil _ _)] at hlast
    exact hnot (mem_of_getLast? hlast)
  cases native with
  | number value _ =>
    rw [jsonText] at heq
    refine not_mem_repr (by decide) (by decide) value (c := ':') ?_
    rw [heq]
    exact mem_append_right _ mem_cons_self
  | text value =>
  cases native' with
  | number value' _ =>
    refine hquote ?_ (getLast?_concat ..)
    rw [mem_cons, not_or]
    exact ⟨by decide, not_mem_repr (by decide) (by decide) value'⟩
  | text value' =>
  rw [jsonText, jsonText, writeText, writeText, ← cons_append, ← append_assoc] at heq
  exact (quoted_flatMap _).not_split _ _ (append_cancel_right heq)

/-- A marked text tells which id it names, whatever colons the provider has. -/
lemma marked_inj {front front' : List Char} {native native' : NativeRequestId}
    (heq : front ++ ':' :: native.jsonText = front' ++ ':' :: native'.jsonText) :
    front = front' ∧ native.jsonText = native'.jsonText := by
  rcases append_eq_append_iff.mp heq with ⟨rest, hrest, hback⟩ | ⟨rest, hrest, hback⟩
  all_goals cases rest with
    | nil =>
      rw [append_nil] at hrest
      exact ⟨by rw [hrest], by simpa [eq_comm] using hback⟩
    | cons c rest =>
      rw [cons_append, cons.injEq] at hback
      exact absurd hback.2 (jsonText_not_split _ _ rest)

/-! ## Encoded ids -/

lemma marked_encode (hprov : id.provider ≠ primary) :
    marked (encode id primary) = some (id.provider.text.toList ++ ':' :: id.nativeId.jsonText) := by
  unfold marked encode
  rw [if_neg hprov, Json.asStr?, bind_some, String.toList_ofList, strip_append]

lemma fromJson_toJson (native : NativeRequestId) :
    NativeRequestId.fromJson native.toJson = some native ↔ native.Bounded := by
  cases native with
  | text value =>
    change (if value.utf8ByteSize ≤ maxIdBytes then _ else none) = _ ↔ value.utf8ByteSize ≤ maxIdBytes
    by_cases hsize : value.utf8ByteSize ≤ maxIdBytes
    · exact iff_of_true (if_pos hsize) hsize
    · exact iff_of_false (by simp [hsize]) hsize
  | number value range => exact iff_of_true (dif_pos range) trivial

lemma decode_encode_other (hparse : ∀ native : NativeRequestId,
      parseJson (String.ofList native.jsonText) = some native.toJson)
    (hprov : id.provider ≠ primary) (hcolon : ':' ∉ id.provider.text.toList) :
    decode parseJson (encode id primary) primary =
      (NativeRequestId.fromJson id.nativeId.toJson).map fun nativeId => ⟨id.provider, nativeId⟩ := by
  have hsplit := Text.splitOnce_of_not_mem hcolon [] id.nativeId.jsonText
  unfold decode
  simp only [marked_encode hprov]
  rw [singleton_append] at hsplit
  rw [hsplit]
  simp only [Option.bind_eq_bind, bind_some, String.ofList_toList, hparse]
  rw [ProviderId.parse, dif_pos id.provider.valid, bind_some, if_neg hprov]

lemma decode_colon (hprov : id.provider ≠ primary) (hcolon : ':' ∈ id.provider.text.toList) :
    decode parseJson (encode id primary) primary ≠ some id := by
  obtain ⟨front, back, heq, hfront⟩ := eq_append_cons_of_mem hcolon
  have hsplit := Text.splitOnce_of_not_mem hfront [] (back ++ ':' :: id.nativeId.jsonText)
  rw [singleton_append, ← cons_append, ← append_assoc, ← heq] at hsplit
  intro h
  unfold decode at h
  simp only [marked_encode hprov, hsplit, Option.bind_eq_bind, bind_some] at h
  obtain ⟨provider, hparsed, h⟩ := Option.bind_eq_some_iff.mp h
  split at h
  · cases h
  obtain ⟨native, -, h⟩ := Option.bind_eq_some_iff.mp h
  obtain ⟨nativeId, -, rfl⟩ := Option.map_eq_some_iff.mp h
  unfold ProviderId.parse at hparsed
  split at hparsed
  · cases hparsed
    rw [String.toList_ofList] at heq
    have hlen := congrArg length heq
    rw [length_append, length_cons] at hlen
    omega
  · cases hparsed

/-- The ids that no caller takes for another provider's. -/
def Unambiguous (primary : ProviderId) (id : RuntimeRequestId) : Prop :=
  id.provider = primary → isAmbiguousPrimaryId id.nativeId.toJson = false

lemma toJson_inj {native native' : NativeRequestId} (h : native.toJson = native'.toJson) :
    native = native' := by
  cases native <;> cases native' <;> cases h <;> rfl

lemma encode_ne_toJson (hprov : id.provider ≠ primary) {native : NativeRequestId}
    (h : isAmbiguousPrimaryId native.toJson = false) : native.toJson ≠ encode id primary := by
  intro heq
  rw [heq, isAmbiguousPrimaryId, marked_encode hprov] at h
  cases h

lemma ext_of (hprov : other.provider = id.provider) (hnative : other.nativeId = id.nativeId) :
    other = id := by
  cases id
  cases other
  cases hprov
  cases hnative
  rfl

lemma encode_inj (hparse : ∀ native : NativeRequestId,
      parseJson (String.ofList native.jsonText) = some native.toJson)
    (hid : Unambiguous primary id) (hother : Unambiguous primary other)
    (heq : encode other primary = encode id primary) : other = id := by
  by_cases hprov : id.provider = primary
  · rw [encode.eq_def id, if_pos hprov] at heq
    by_cases hprov' : other.provider = primary
    · rw [encode, if_pos hprov'] at heq
      exact ext_of (hprov'.trans hprov.symm) (toJson_inj heq)
    · exact absurd heq.symm (encode_ne_toJson hprov' (hid hprov))
  by_cases hprov' : other.provider = primary
  · rw [encode, if_pos hprov'] at heq
    exact absurd heq (encode_ne_toJson hprov (hother hprov'))
  have htexts := congrArg marked heq
  rw [marked_encode hprov, marked_encode hprov'] at htexts
  obtain ⟨htext, hjson⟩ := marked_inj (some.inj htexts)
  have hnative := hparse other.nativeId
  rw [hjson, hparse] at hnative
  exact ext_of (ProviderId.ext_text (String.toList_inj.mp htext))
    (toJson_inj (some.inj hnative)).symm

def readNative (text : String) : Option Json :=
  match text.toList with
  | '"' :: rest => (readText rest).map fun read => .str (String.ofList read.1)
  | _ => text.toInt?.map .int

lemma readNative_jsonText (native : NativeRequestId) :
    readNative (String.ofList native.jsonText) = some native.toJson := by
  unfold readNative
  cases native with
  | text value =>
    have htext := readText_writeText value.toList []
    simp only [String.toList_ofList, jsonText, writeText, cons_append, htext,
      map_some, String.ofList_toList, toJson]
  | number value range =>
    rw [jsonText, String.toList_ofList, String.ofList_toList, Int.toInt?_repr]
    split
    · rename_i heq
      have hquote := not_mem_repr (c := '"') (by decide) (by decide) value
      rw [heq] at hquote
      exact absurd mem_cons_self hquote
    · rfl

/-- An id comes back exactly if its text is bounded and its provider has no colon, where the decoder
ends it. -/
theorem decode_encode_iff (parseJson : String → Option Json)
    (hparse : ∀ native : NativeRequestId,
      parseJson (String.ofList native.jsonText) = some native.toJson)
    (primary : ProviderId) (id : RuntimeRequestId) (hid : Unambiguous primary id) :
    (decode parseJson (encode id primary) primary = some id ↔
      id.nativeId.Bounded ∧ (id.provider = primary ∨ ':' ∉ id.provider.text.toList)) ∧
    ∀ other, Unambiguous primary other → encode other primary = encode id primary → other = id := by
  refine ⟨?_, fun other hother heq => encode_inj hparse hid hother heq⟩
  have hback : (fromJson id.nativeId.toJson).map (fun nativeId =>
      (⟨id.provider, nativeId⟩ : RuntimeRequestId)) = some id ↔ id.nativeId.Bounded := by
    rw [← fromJson_toJson, Option.map_eq_some_iff]
    constructor
    · rintro ⟨native, hnative, heq⟩
      have heq : native = id.nativeId := congrArg RuntimeRequestId.nativeId heq
      rw [hnative, heq]
    · exact fun h => ⟨_, h, rfl⟩
  by_cases hprov : id.provider = primary
  · have hmarked : marked id.nativeId.toJson = none :=
      Option.isNone_iff_eq_none.mp (Option.isSome_eq_false_iff.mp (hid hprov))
    rw [and_iff_left (.inl hprov), ← hback, encode, if_pos hprov, decode]
    simp only [hmarked, hprov]
  · by_cases hcolon : ':' ∈ id.provider.text.toList
    · exact iff_of_false (decode_colon hprov hcolon) fun h => h.2.elim hprov fun h => h hcolon
    · rw [decode_encode_other hparse hprov hcolon, hback, and_iff_left (.inr hcolon)]

def codex : ProviderId := ⟨"codex", by decide +kernel⟩

def claudeSeven : RuntimeRequestId :=
  ⟨⟨"claude", by decide +kernel⟩, .number 7 (by decide)⟩

theorem claudeSeven_decode_encode :
    decode readNative (encode claudeSeven codex) codex = some claudeSeven :=
  ((decode_encode_iff readNative readNative_jsonText codex claudeSeven
    (fun h => absurd h (by decide +kernel))).1).mpr ⟨trivial, .inr (by decide +kernel)⟩

def colonOne : RuntimeRequestId := ⟨⟨"a:b", by decide +kernel⟩, .number 1 (by decide)⟩

/-- The decoder ends the provider at the first colon. -/
theorem colonOne_lost : decode readNative (encode colonOne codex) codex ≠ some colonOne :=
  decode_colon (by decide +kernel) (by decide +kernel)

end CodeWide.Agent.RequestIds
