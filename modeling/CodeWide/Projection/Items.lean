import CodeWide.Lib.Text
import CodeWide.Projection.Payloads

/-!
# Reconciling the items of a turn

Two projections of one turn are merged item by item.
-/

namespace CodeWide.Projection

open Lib

def itemId (item : Json) : Option Json := item.get? "id"

def itemType (item : Json) : Option String := strField item "type"

def itemText (item : Json) : String := (strField item "text").getD ""

def projectedPreTurn (item : Json) : Bool :=
  decide (item.get? "codewidePreTurn" = some (.bool true))

def withProjectedPreTurn (item : Json) : Json := item.insert "codewidePreTurn" (.bool true)

def projectedLifecyclePhase (item : Json) : Option String :=
  (strField item "codewideLifecyclePhase").filter
    (fun phase => decide (phase = "started") || decide (phase = "completed"))

def withProjectedLifecycle (item : Json) (phase : String) : Json :=
  item.insert "codewideLifecyclePhase" (.str phase)

def isEmptyId (value : Option Json) : Bool :=
  decide (value = some .null) || decide (value = some (.str ""))

def withClientId (item : Json) (clientId : Option Json) : Json :=
  match clientId with
  | some v => item.insert "clientId" v
  | none => item.erase "clientId"

def preserveUserClientId (incoming cached : Json) : Json :=
  if itemType incoming ≠ some "userMessage" ∨ itemType cached ≠ some "userMessage" then incoming
  else if isEmptyId (incoming.get? "clientId") = false then incoming
  else if isEmptyId (cached.get? "clientId") then incoming
  else withClientId incoming (cached.get? "clientId")

def preserveActiveAgentText (incoming cached : Json) (preserveLifecycle : Bool) : Json :=
  if preserveLifecycle = false ∨ itemType incoming ≠ some "agentMessage" ∨
      itemType cached ≠ some "agentMessage" ∨
      (itemText incoming).toList.isPrefixOf (itemText cached).toList = false ∨
      itemText cached = itemText incoming then incoming
  else incoming.insert "text" (.str (itemText cached))

def preserveProjectedItemMarkers (incoming cached : Json) (preserveLifecycle : Bool) : Json :=
  let projected := preserveActiveAgentText incoming cached preserveLifecycle
  let projected := preserveUserClientId projected cached
  let projected :=
    if projectedPreTurn cached ∧ projectedPreTurn projected = false then
      withProjectedPreTurn projected
    else projected
  let lifecyclePhase :=
    if preserveLifecycle ∧ itemType projected = some "contextCompaction" then
      projectedLifecyclePhase cached
    else none
  match lifecyclePhase with
  | some phase =>
    if projectedLifecyclePhase projected = none then withProjectedLifecycle projected phase
    else projected
  | none => projected

/-- `trim()`: white space here is Unicode's without NEL, with the byte order mark. -/
def jsTrim (s : String) : String :=
  let blank := fun c : Char =>
    (Text.isWhitespace c && decide (c.toNat ≠ 0x85)) || decide (c.toNat = 0xFEFF)
  String.ofList ((s.toList.dropWhile blank).reverse.dropWhile blank).reverse

def isChatBoundary (item : Json) : Bool :=
  decide (itemType item = some "userMessage") || decide (itemType item = some "agentMessage") ||
    decide (itemType item = some "contextCompaction")

variable (stringify : Json → String)

def textPart (part : Json) : Option String :=
  if itemType part = some "text" then some (itemText part) else none

def userMessageFingerprint (item : Json) : String :=
  let parts := ((item.get? "content").bind Json.asArr?).getD []
  let text := jsTrim ("\n".intercalate (parts.filterMap textPart))
  if text = "" then stringify (orNull (item.get? "content")) else text

def sameLogicalBoundary (left right : Json) : Bool :=
  if itemType left = some "contextCompaction" ∧ itemType right = some "contextCompaction" then
    true
  else if itemType left = some "userMessage" ∧ itemType right = some "userMessage" then
    if isEmptyId (left.get? "clientId") = false ∧ left.get? "clientId" = right.get? "clientId" then
      true
    else decide (userMessageFingerprint stringify left = userMessageFingerprint stringify right)
  else if itemType left ≠ some "agentMessage" ∨ itemType right ≠ some "agentMessage" then false
  -- Only its id identifies an asynchronous message.
  else if left.get? "delivery" = some (.str "async") ∨
      right.get? "delivery" = some (.str "async") then false
  else
    decide (left.get? "text" = right.get? "text") ||
      (decide (left.get? "phase" = some (.str "final_answer")) &&
        decide (right.get? "phase" = some (.str "final_answer")))

/-- A place of the cached list: the item there, and whether an incoming item took it. -/
structure Place where
  item : Json
  taken : Bool

structure Matching where
  leading : List Json
  result : List Place
  trailing : List Json

def Matching.start (cached : List Json) : Matching :=
  ⟨[], cached.map (fun item => ⟨item, false⟩), []⟩

def Matching.items (m : Matching) : List Json :=
  m.leading ++ m.result.map Place.item ++ m.trailing

def freePlace (result : List Place) (p : Json → Bool) : Option Nat :=
  result.findIdx? (fun place => !place.taken && p place.item)

def matchPlace (result : List Place) (item : Json) : Option Nat :=
  (freePlace result (fun candidate => decide (itemId candidate = itemId item))).or
    (if isChatBoundary item then
      freePlace result (fun candidate => sameLogicalBoundary stringify candidate item)
    else none)

def Matching.offer (preserveLifecycle : Bool) (m : Matching) (item : Json) : Matching :=
  match matchPlace stringify m.result item with
  | none =>
    if itemType item = some "userMessage" then { m with leading := m.leading ++ [item] }
    else { m with trailing := m.trailing ++ [item] }
  | some index =>
    { m with
      result := m.result.modify index (fun place =>
        ⟨preserveProjectedItemMarkers item place.item preserveLifecycle, true⟩) }

def reconcileItems (cached incoming : List Json) (preserveLifecycle : Bool) : List Json :=
  if cached = [] then incoming
  else if incoming = [] then cached
  else (incoming.foldl (Matching.offer stringify preserveLifecycle) (.start cached)).items

def reconcileTurnItems (cached incoming : List Json) : List Json :=
  reconcileItems stringify cached incoming false

end CodeWide.Projection
