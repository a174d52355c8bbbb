import CodeWide.Lib.Json
import CodeWide.Lib.Pointer
import Mathlib

/-!
# Bounded projection of an item

Long texts are cut to a preview, wide arrays and objects to their first entries and deep values to
empty ones.
-/

namespace CodeWide.Content

open Lib Json

def maxInlineTextBytes : Nat := 16 * 1024

def maxProjectedItemBytes : Nat := 32 * 1024

def maxCollectionEntries : Nat := 128

/-- The nesting up to which a value is projected entry by entry. -/
def maxDepth : Nat := 16

def encodedCharLen (c : Char) : Nat :=
  if c = '"' ∨ c = '\\' ∨ c = '\n' ∨ c = '\r' ∨ c = '\t' ∨ c.toNat = 8 ∨ c.toNat = 12 then 2
  else if c.toNat < 32 then 6
  else c.utf8Size

def encodedStrLen (value : String) : Nat := (value.toList.map encodedCharLen).sum + 2

section EncodedLen

-- how many characters a number that is no 64-bit integer is written with
variable (floatLen : UInt64 → Nat)

mutual

/-- How many bytes a value takes as compact JSON. -/
def encodedLen : Json → Nat
  | .null => 4
  | .bool b => if b then 4 else 5
  | .int n => (toString n).length
  | .float bits => floatLen bits
  | .str s => encodedStrLen s
  -- an entry comes with the comma or the opening bracket before it
  | .arr items => max 1 (encodedLenItems items) + 1
  | .obj fields => max 1 (encodedLenFields fields) + 1

def encodedLenItems : List Json → Nat
  | [] => 0
  | v :: rest => encodedLen v + 1 + encodedLenItems rest

def encodedLenFields : List (String × Json) → Nat
  | [] => 0
  | (key, v) :: rest => encodedStrLen key + 1 + encodedLen v + 1 + encodedLenFields rest

end

end EncodedLen

inductive Stored where
  | text (value : String)
  | json (value : Json)

def Stored.value : Stored → Json
  | .text value => .str value
  | .json value => value

/-- The functions of the environment: the digest of stored bytes, and how long a number is. -/
structure Codec where
  digest : Stored → String
  floatLen : UInt64 → Nat

variable (codec : Codec)

def Codec.byteLength : Stored → Nat
  | .text value => value.utf8ByteSize
  | .json value => encodedLen codec.floatLen value

def Codec.reference (stored : Stored) (contentType : String) : Json :=
  .obj [("byteLength", .int (codec.byteLength stored)), ("contentType", .str contentType),
    ("encoding", .str "utf-8"), ("id", .str (codec.digest stored))]

/-- What a projection cut: the references by pointer, and what was stored under each reference. -/
structure Cuts where
  fields : List (String × Json)
  stored : List (Json × Json)

def Cuts.empty : Cuts := ⟨[], []⟩

def Cuts.put (cuts : Cuts) (pointer : String) (reference value : Json) : Cuts where
  fields := insertField pointer reference cuts.fields
  stored := cuts.stored ++ [(reference, value)]

def jsonContentType : String := "application/json; charset=utf-8"

def Codec.putJson (value : Json) : Json := codec.reference (.json value) jsonContentType

def Codec.putText (value : String) (contentType : String) : Json :=
  codec.reference (.text value) contentType

def contentType (pointer : String) : String :=
  if "/diff".toList <:+ pointer.toList then "text/x-diff; charset=utf-8"
  else if "/text".toList <:+ pointer.toList ∨ "/content/".toList <:+: pointer.toList then
    "text/markdown; charset=utf-8"
  else "text/plain; charset=utf-8"

def pointerOrRoot (pointer : String) : String := if pointer = "" then "/" else pointer

def utf8Prefix (bytes : Nat) : List Char → List Char
  | [] => []
  | c :: rest => if c.utf8Size ≤ bytes then c :: utf8Prefix (bytes - c.utf8Size) rest else []

def utf8Suffix (bytes : Nat) (value : List Char) : List Char :=
  (utf8Prefix bytes value.reverse).reverse

def boundedPreview (value : String) (budget : Nat) : String :=
  let marker := "\n… [" ++ toString value.utf8ByteSize ++ " bytes; full content available]"
  let available := budget - marker.utf8ByteSize
  String.ofList (utf8Prefix (available * 3 / 4) value.toList) ++ marker ++
    String.ofList (utf8Suffix (available / 4) value.toList)

mutual

def projectValue (pointer : String) (cuts : Cuts) (depth : Nat) : Json → Json × Cuts
  | .str value =>
    if value.utf8ByteSize ≤ maxInlineTextBytes then (.str value, cuts)
    else
      (.str (boundedPreview value maxInlineTextBytes),
        cuts.put (pointerOrRoot pointer) (codec.putText value (contentType pointer)) (.str value))
  | .arr values =>
    if depth < maxDepth then
      let kept := values.take maxCollectionEntries
      let listed :=
        if kept.length < values.length then
          cuts.put (pointerOrRoot pointer) (codec.putJson (.arr kept)) (.arr kept)
        else cuts
      let projected := projectItems pointer listed (depth + 1) 0 values
      (.arr projected.1, projected.2)
    else
      (.arr [], cuts.put (pointerOrRoot pointer) (codec.putJson (.arr values)) (.arr values))
  | .obj fields =>
    if depth < maxDepth then
      let projected := projectFields pointer cuts (depth + 1) 0 fields
      (.obj projected.1, projected.2)
    else
      (.obj [], cuts.put (pointerOrRoot pointer) (codec.putJson (.obj fields)) (.obj fields))
  | .null => (.null, cuts)
  | .bool b => (.bool b, cuts)
  | .int n => (.int n, cuts)
  | .float bits => (.float bits, cuts)

def projectItems (pointer : String) (cuts : Cuts) (depth index : Nat) :
    List Json → List Json × Cuts
  | [] => ([], cuts)
  | value :: rest =>
    if maxCollectionEntries ≤ index then ([], cuts)
    else
      let first := projectValue (Pointer.child pointer index.repr) cuts depth value
      let others := projectItems pointer first.2 depth (index + 1) rest
      (first.1 :: others.1, others.2)

def projectFields (pointer : String) (cuts : Cuts) (depth index : Nat) :
    List (String × Json) → List (String × Json) × Cuts
  | [] => ([], cuts)
  | (key, value) :: rest =>
    if maxCollectionEntries ≤ index then ([], cuts)
    else
      let first := projectValue (Pointer.child pointer (Pointer.escape key)) cuts depth value
      let others := projectFields pointer first.2 depth (index + 1) rest
      ((key, first.1) :: others.1, others.2)

end

/-- The fields, with the added ones in place of those with the same key. -/
def extend (fields added : List (String × Json)) : List (String × Json) :=
  added.foldl (fun fields field => insertField field.1 field.2 fields) fields

def attachContentMetadata (value : Json) (fields : List (String × Json)) (whole : Option Json) :
    Json :=
  match value with
  | .obj object =>
    if fields = [] ∧ whole = none then value
    else
      let metadata := match lookupField "codewideContent" object with
        | some (.obj metadata) => metadata
        | _ => []
      let combined := match lookupField "fields" metadata with
        | some (.obj combined) => combined
        | _ => []
      let listed := insertField "fields" (.obj (extend combined fields))
        (insertField "version" (.int 1) (eraseField "fields" metadata))
      let metadata := match whole with
        | some whole => insertField "whole" whole listed
        | none => listed
      .obj (insertField "codewideContent" (.obj metadata) (eraseField "codewideContent" object))
  | value => value

def attachWhole (value whole : Json) : Json := attachContentMetadata value [] (some whole)

def isScalar : Json → Bool
  | .arr _ => false
  | .obj _ => false
  | _ => true

def scalarFields : Json → List (String × Json)
  | .obj fields => fields.filter fun field => isScalar field.2
  | _ => []

def projectInline (value : Json) : Json × Cuts :=
  let projected := projectValue codec "" Cuts.empty 0 value
  (if projected.2.fields = [] then projected.1
    else attachContentMetadata projected.1 projected.2.fields none, projected.2)

def projectBounded (value : Json) (budget : Nat) : Json × List (Json × Json) :=
  let inlined := projectInline codec value
  if encodedLen codec.floatLen inlined.1 ≤ budget then (inlined.1, inlined.2.stored)
  else
    let whole := codec.putJson value
    (attachWhole (.obj (scalarFields inlined.1)) whole, inlined.2.stored ++ [(whole, value)])

def externalizeTextField (value : Json) (field : String) : Json × List (Json × Json) :=
  match (value.get? field).bind asStr? with
  | none => (value, [])
  | some text =>
    if text = "" then (value, [])
    else
      let reference := codec.putText text "text/plain; charset=utf-8"
      (attachContentMetadata (value.insert field (.str "")) [("/" ++ field, reference)] none,
        [(reference, .str text)])

/-- The fields that the projection of a long item still shows. -/
def minimalKeys : List String :=
  ["id", "type", "status", "command", "text", "aggregatedOutput", "codewideOutputFootprint",
    "content", "codewideAttachments", "codewideAsset", "savedPath", "changes"]

def minimalItem (item : Json) : Json :=
  minimalKeys.foldl
    (fun minimal key =>
      match item.get? key with
      | some value => minimal.insert key value
      | none => minimal)
    (.obj (scalarFields item))

def isCommandExecution (item : Json) : Bool :=
  decide ((item.get? "type").bind asStr? = some "commandExecution")

def externalized (item : Json) : Json × List (Json × Json) :=
  if isCommandExecution item then externalizeTextField codec item "aggregatedOutput"
  else (item, [])

/-- The projection of an item once its images and its output footprint are compacted. -/
def projectItem (item : Json) : Json × List (Json × Json) :=
  let hidden := externalized codec item
  let projected := projectBounded codec hidden.1 maxProjectedItemBytes
  if encodedLen codec.floatLen projected.1 ≤ maxProjectedItemBytes then
    (projected.1, hidden.2 ++ projected.2)
  else
    let whole := codec.putJson hidden.1
    let minimal := projectBounded codec (minimalItem hidden.1) maxProjectedItemBytes
    (attachWhole minimal.1 whole, hidden.2 ++ projected.2 ++ [(whole, hidden.1)] ++ minimal.2)

section Fill

-- the content for a pointer
variable (content : String → Option Json)

mutual

def fill (pointer : String) : Json → Json
  | .arr items => (content pointer).getD (.arr (fillItems pointer 0 items))
  | .obj fields => (content pointer).getD (.obj (fillFields pointer fields))
  | .str value => (content pointer).getD (.str value)
  | .null => (content pointer).getD .null
  | .bool b => (content pointer).getD (.bool b)
  | .int n => (content pointer).getD (.int n)
  | .float bits => (content pointer).getD (.float bits)

def fillItems (pointer : String) (index : Nat) : List Json → List Json
  | [] => []
  | value :: rest =>
    fill (Pointer.child pointer index.repr) value :: fillItems pointer (index + 1) rest

def fillFields (pointer : String) : List (String × Json) → List (String × Json)
  | [] => []
  | (key, value) :: rest =>
    (key, fill (Pointer.child pointer (Pointer.escape key)) value) :: fillFields pointer rest

end

end Fill

def listedContent (read : Json → Option Json) (references : List (String × Json))
    (pointer : String) : Option Json :=
  (lookupField pointer references).bind read

mutual

/-- No array and no object that is projected entry by entry is over the limit. -/
def narrow (depth : Nat) : Json → Bool
  | .arr items =>
    !decide (depth < maxDepth) ||
      decide (items.length ≤ maxCollectionEntries) && narrowItems (depth + 1) items
  | .obj fields =>
    !decide (depth < maxDepth) ||
      decide (fields.length ≤ maxCollectionEntries) && narrowFields (depth + 1) fields
  | _ => true

def narrowItems (depth : Nat) : List Json → Bool
  | [] => true
  | value :: rest => narrow depth value && narrowItems depth rest

def narrowFields (depth : Nat) : List (String × Json) → Bool
  | [] => true
  | (_, value) :: rest => narrow depth value && narrowFields depth rest

end

mutual

def Ordered : Json → Prop
  | .arr items => OrderedItems items
  | .obj fields => (obj fields).Ascending ∧ OrderedFields fields
  | _ => True

def OrderedItems : List Json → Prop
  | [] => True
  | value :: rest => Ordered value ∧ OrderedItems rest

def OrderedFields : List (String × Json) → Prop
  | [] => True
  | (_, value) :: rest => Ordered value ∧ OrderedFields rest

end

/-- A reader of the references gets what was stored under them. -/
def Reads (read : Json → Option Json) (stored : List (Json × Json)) : Prop :=
  ∀ entry ∈ stored, read entry.1 = some entry.2

end CodeWide.Content
