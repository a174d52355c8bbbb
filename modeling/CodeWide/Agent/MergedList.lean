import CodeWide.Claude.Catalog
import CodeWide.Lib.Json
import CodeWide.Lib.Base64

/-!
# `thread/list` across providers

Each page covers a window of the sort key whose edge comes from the primary provider's page, and the
other providers' rows of the window are merged into it.
-/

namespace CodeWide.Listing

open Lib Json

structure CompositeCursor where
  lead : Option String
  leadDone : Bool
  bound : Option Int

structure Codec where
  toVec : CompositeCursor → Option (List Byte)
  fromSlice : List Byte → Option CompositeCursor

/-- What is written is read back. -/
structure Codec.Lawful (codec : Codec) : Prop where
  serialised : ∀ cursor, ∃ bytes, codec.toVec cursor = some bytes
  fromSlice_toVec : ∀ cursor bytes, codec.toVec cursor = some bytes →
    codec.fromSlice bytes = some cursor

def compositePrefix : String := "cwl1."

def encodeCursor (codec : Codec) (cursor : CompositeCursor) : Option String :=
  (codec.toVec cursor).map fun encoded => compositePrefix ++ Base64.encode encoded

def stripCompositePrefix (cursor : String) : Option String :=
  if compositePrefix.toList <+: cursor.toList then
    some (String.ofList (cursor.toList.drop compositePrefix.toList.length))
  else none

def decodeCursor (codec : Codec) (cursor : String) : Option CompositeCursor :=
  ((stripCompositePrefix cursor).bind Base64.decode).bind codec.fromSlice

structure NonLeadQuery where
  archived : Bool
  cwd : List String
  searchTerm : Option String
  sortKey : ThreadSortKey
  direction : SortDirection
  modelProviders : Option (List String)

def knownParams : List String :=
  ["cursor", "limit", "sortKey", "sortDirection", "modelProviders", "sourceKinds", "originators",
    "archived", "sectionId", "projectId", "cwd", "useStateDbOnly", "searchTerm", "parentThreadId",
    "ancestorThreadId"]

def stringList (value : Option Json) : Option (List String) :=
  (value.bind asArr?).map (·.filterMap asStr?)

abbrev Fields := List (String × Json)

def present (params : Fields) (name : String) : Bool :=
  (lookupField name params).any fun value => !value.isNull

def sortKeyOf (params : Fields) : Option ThreadSortKey :=
  match (lookupField "sortKey" params).bind asStr? with
  | none => some .createdAt
  | some "created_at" => some .createdAt
  | some "updated_at" => some .updatedAt
  | some "recency_at" => some .recencyAt
  | some _ => none

def cwdOf (params : Fields) : List String :=
  match lookupField "cwd" params with
  | some (.str cwd) => [cwd]
  | some (.arr values) => values.filterMap asStr?
  | _ => []

def nonLeadQuery (params : Fields) : Option NonLeadQuery :=
  if params.any fun field => !knownParams.contains field.1 then none
  else if ["parentThreadId", "ancestorThreadId", "sectionId", "projectId"].any (present params) ∨
      (stringList (lookupField "originators" params)).any (!·.isEmpty) then none
  else if (stringList (lookupField "sourceKinds" params)).any fun kinds =>
      !kinds.isEmpty && !kinds.any fun kind => ["cli", "vscode", "appServer"].contains kind then
    none
  else (sortKeyOf params).map fun sortKey =>
    { archived := decide ((lookupField "archived" params).bind asBool? = some true)
      cwd := cwdOf params
      searchTerm := (lookupField "searchTerm" params).bind asStr?
      sortKey := sortKey
      direction :=
        if (lookupField "sortDirection" params).bind asStr? = some "asc" then .asc
        else .desc
      modelProviders := (stringList (lookupField "modelProviders" params)).filter (!·.isEmpty) }

structure ListPlan where
  leadCursor : Option (Option String)
  cursor : CompositeCursor
  query : Option NonLeadQuery
  passthrough : Bool

def cursorOf (codec : Codec) (cursor : Option String) : CompositeCursor :=
  match cursor with
  | some text => (decodeCursor codec text).getD ⟨some text, false, none⟩
  | none => ⟨none, false, none⟩

def prepare (codec : Codec) (params : Fields) (cursor : Option String) (multiProvider : Bool) :
    ListPlan :=
  if multiProvider then
    let composite := cursorOf codec cursor
    ⟨if composite.leadDone then none else some composite.lead, composite, nonLeadQuery params, false⟩
  else ⟨some cursor, ⟨none, false, none⟩, none, true⟩

structure LeadRow where
  id : String
  createdAt : Option Int
  updatedAt : Option Int
  recencyAt : Option Int

structure LeadPage where
  data : List LeadRow
  nextCursor : Option String

inductive Row where
  | lead (row : LeadRow)
  | thread (thread : AgentThread)

structure Page where
  data : List Row
  nextCursor : Option String

structure Provider where
  live : Bool
  modelProvider : String
  rows : List ListRow
  nodup : (rows.map fun row => row.thread.appThreadId).Nodup

def rowKey (row : LeadRow) : ThreadSortKey → Option Int
  | .createdAt => row.createdAt
  | .updatedAt => row.updatedAt
  | .recencyAt => row.recencyAt.or row.updatedAt

def nonLeadPageSize : Nat := 100

def maxNonLeadPages : Nat := 10

structure Covered where
  window : SortWindow
  edge : Option Int
  leadExhausted : Bool

def leadKeys (query : NonLeadQuery) (rawLead : LeadPage) : List Int :=
  rawLead.data.filterMap (rowKey · query.sortKey)

def clamped (pick : Int → Int → Int) (edge previous : Option Int) : Option Int :=
  match edge, previous with
  | some edge, some previous => some (pick edge previous)
  | edge, _ => edge

def window (previous : Option Int) (query : NonLeadQuery) (rawLead : LeadPage) : Covered :=
  let leadExhausted := rawLead.nextCursor.isNone
  let keys := leadKeys query rawLead
  match query.direction with
  | .desc =>
    let edge := clamped min (if leadExhausted then none else keys.min?) previous
    ⟨⟨edge, true, previous, false⟩, edge, leadExhausted⟩
  | .asc =>
    let edge := clamped max (if leadExhausted then none else keys.max?) previous
    ⟨⟨previous, false, edge, true⟩, edge, leadExhausted⟩

section

variable (lower : String → String) (query : NonLeadQuery)

def listParams (window : Option SortWindow) (cursor : Option CursorPosition) :
    ThreadListParams where
  archived := query.archived
  cwd := if query.cwd.length = 1 then query.cwd.head? else none
  searchTerm := query.searchTerm
  sortKey := query.sortKey
  sortDirection := query.direction
  window := window
  cursor := cursor
  limit := nonLeadPageSize

def asksFor (provider : Provider) : Bool :=
  provider.live && query.modelProviders.all fun allowed => allowed.contains provider.modelProvider

/-- The check of several working directories, which the provider does not make. -/
def admitsCwd (thread : AgentThread) : Bool :=
  !(decide (1 < query.cwd.length) && !query.cwd.contains thread.cwd)

def providerPage (window : SortWindow) (provider : Provider) (cursor : Option CursorPosition) :
    List AgentThread × Option CursorPosition :=
  match list lower provider.rows (listParams query (some window) cursor) with
  | some result => (result.threads, result.nextCursor)
  | none => ([], none)

/-- The rows of one provider's pages, and whether more follow. -/
def fetchFrom (window : SortWindow) (provider : Provider) : List AgentThread × Bool :=
  let fetched := Keyset.readPages (providerPage lower query window provider) maxNonLeadPages none
  (fetched.1.filter (admitsCwd query), fetched.2)

def fetchNonLead (window : SortWindow) (providers : List Provider) :
    List (Int × AgentThread) × Bool :=
  let asked := providers.filter (asksFor query)
  ((asked.flatMap fun provider => (fetchFrom lower query window provider).1).map fun thread =>
      (sortValue thread query.sortKey, thread),
    asked.any fun provider => (fetchFrom lower query window provider).2)

def mergeRows (sortKey : ThreadSortKey) (d : SortDirection) :
    List LeadRow → List (Int × AgentThread) → List Row
  | [], extra => extra.map fun entry => .thread entry.2
  | row :: lead, extra =>
    match rowKey row sortKey with
    | none => .lead row :: mergeRows sortKey d lead extra
    | some key =>
      (extra.takeWhile fun entry => d.before entry.1 key).map (fun entry => Row.thread entry.2) ++
        .lead row :: mergeRows sortKey d lead (extra.dropWhile fun entry => d.before entry.1 key)

def sortExtra (d : SortDirection) (extra : List (Int × AgentThread)) :
    List (Int × AgentThread) :=
  extra.insertionSort fun left right => ¬ d.before right.1 left.1

end

/-- Merges the non-lead rows into the lead's result. -/
def finish (codec : Codec) (lower : String → String) (plan : ListPlan)
    (rawLead leadResult : LeadPage) (nonLead : List Provider) : Page :=
  match plan.passthrough, plan.query with
  | false, some query =>
    let covered := window plan.cursor.bound query rawLead
    let fetched := fetchNonLead lower query covered.window nonLead
    let extra := sortExtra query.direction fetched.1
    let edge :=
      if fetched.2 then (extra.getLast?.map Prod.fst).or covered.edge else covered.edge
    ⟨mergeRows query.sortKey query.direction leadResult.data extra,
      if covered.leadExhausted && !fetched.2 then none
      else encodeCursor codec ⟨rawLead.nextCursor, covered.leadExhausted, edge⟩⟩
  | _, _ => ⟨leadResult.data.map .lead, leadResult.nextCursor⟩

structure Paging where
  codec : Codec
  lower : String → String
  params : Fields
  lead : Option String → LeadPage
  shown : LeadRow → Bool
  providers : List Provider

namespace Paging

variable (l : Paging)

def plan (cursor : Option String) : ListPlan := prepare l.codec l.params cursor true

def rawLead (cursor : Option String) : LeadPage :=
  match (l.plan cursor).leadCursor with
  | some leadCursor => l.lead leadCursor
  | none => ⟨[], none⟩

def request (cursor : Option String) : Page :=
  let raw := l.rawLead cursor
  finish l.codec l.lower (l.plan cursor) raw ⟨raw.data.filter l.shown, raw.nextCursor⟩ l.providers

def follow : Nat → Option String → Option (List Page)
  | 0, _ => none
  | fuel + 1, cursor =>
    match (l.request cursor).nextCursor with
    | none => some [l.request cursor]
    | some next => (follow fuel (some next)).map (l.request cursor :: ·)

inductive Reached : Option String → Prop
  | first : Reached none
  | next {cursor : Option String} {text : String} (h : Reached cursor)
      (hnext : (l.request cursor).nextCursor = some text) : Reached (some text)

inductive LeadPages : Option String → List LeadPage → Prop
  | last {cursor : Option String} (h : (l.lead cursor).nextCursor = none) :
      LeadPages cursor [l.lead cursor]
  | more {cursor : Option String} {next : String} {rest : List LeadPage}
      (h : (l.lead cursor).nextCursor = some next) (hrest : LeadPages (some next) rest) :
      LeadPages cursor (l.lead cursor :: rest)

end Paging

end CodeWide.Listing
