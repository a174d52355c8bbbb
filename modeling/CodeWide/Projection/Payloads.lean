import CodeWide.Lib.Json

/-!
# Validated figures of a projection patch

Each reader answers the value it rebuilt from the fields it checked, or nothing.
-/

namespace CodeWide.Projection

open Lib

def asObject (value : Option Json) : Option Json := value.filter Json.isObj

def strField (value : Json) (k : String) : Option String := (value.get? k).bind Json.asStr?

def orNull (value : Option Json) : Json := value.getD .null

def present (value : Option Json) : Option Json := value.filter (fun v => !v.isNull)

def isSafeInteger : Json → Bool
  | .int n => decide (n.natAbs ≤ 2 ^ 53 - 1)
  | _ => false

def count? (value : Option Json) : Option Nat :=
  match value with
  | some (.int n) => if 0 ≤ n ∧ n.natAbs ≤ 2 ^ 53 - 1 then some n.toNat else none
  | _ => none

def isCost : Json → Bool
  | .int n => decide (0 ≤ n)
  | .float bits => decide (bits.toNat < 0x7FF0000000000000)
  | _ => false

def isDigestChar (c : Char) : Bool :=
  (decide ('a' ≤ c) && decide (c ≤ 'f')) || (decide ('0' ≤ c) && decide (c ≤ '9'))

def isDigest (s : String) : Bool := decide (s.toList.length = 64) && s.toList.all isDigestChar

def reference (value : Option Json) : Option Json := do
  let data ← asObject value
  let id ← strField data "id"
  let byteLength ← count? (data.get? "byteLength")
  let contentType ← strField data "contentType"
  if isDigest id ∧ data.get? "encoding" = some (.str "utf-8") then
    some (.ofFields [("id", .str id), ("byteLength", .int byteLength),
      ("contentType", .str contentType), ("encoding", .str "utf-8")])
  else none

def commandOutputField (value : Json) (field : String) : Option Json := do
  let metadata ← asObject (value.get? "codewideContent")
  if metadata.get? "version" = some (.int 1) then
    reference ((asObject (metadata.get? "fields")).bind (·.get? field))
  else none

def parseActivityFootprint (value : Option Json) : Option Json := do
  let r ← asObject value
  let bytes ← count? (r.get? "bytes")
  let estimatedTokens ← count? (r.get? "estimatedTokens")
  let cost ← r.get? "estimatedInputCostUsd"
  if r.get? "version" = some (.int 1) ∧ r.get? "basis" = some (.str "approxBytesPerToken") ∧
      (cost.isNull ∨ isCost cost) then
    some (.ofFields [("version", .int 1), ("basis", .str "approxBytesPerToken"),
      ("bytes", .int bytes), ("estimatedTokens", .int estimatedTokens),
      ("estimatedInputCostUsd", cost)])
  else none

def activitySummary (value : Option Json) : Option Json := do
  let r ← asObject value
  let count ← count? (r.get? "count")
  let kinds ← (r.get? "kinds").bind Json.asArr?
  let outputFootprint ← parseActivityFootprint (r.get? "outputFootprint")
  if kinds.all Json.isStr then
    some (.ofFields [("count", .int count), ("kinds", .arr kinds),
      ("outputFootprint", outputFootprint)])
  else none

def metricsRange (entry : Json) : Option Json := do
  let range ← asObject (some entry)
  let firstItemId ← strField range "firstItemId"
  let lastItemId ← strField range "lastItemId"
  let stats ← activitySummary (range.get? "summary")
  some (.ofFields [("firstItemId", .str firstItemId), ("lastItemId", .str lastItemId),
    ("summary", stats)])

def commandFootprint (entry : String × Json) : Option (String × Json) :=
  (parseActivityFootprint (some entry.2)).map (fun footprint => (entry.1, footprint))

def parseActivityMetrics (value : Option Json) : Option Json := do
  let r ← asObject value
  let rawRanges ← (r.get? "ranges").bind Json.asArr?
  let total ← activitySummary (r.get? "total")
  let rawCommands ← asObject (r.get? "commands")
  let ranges ← rawRanges.mapM metricsRange
  let commands ← match rawCommands with
    | .obj fields => fields.mapM commandFootprint
    | _ => none
  if r.get? "version" = some (.int 1) then
    some (.ofFields [("version", .int 1), ("total", total), ("ranges", .arr ranges),
      ("commands", .ofFields commands)])
  else none

end CodeWide.Projection
