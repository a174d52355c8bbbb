import CodeWide.Lib.Composite
import CodeWide.Lib.Json
import CodeWide.Lib.Utf8
import Mathlib

/-!
# The parent index of the threads

`put_thread_metadata_batch`, `thread_descendants` and the keys of `threads_by_parent`: the bytes of
the parent, a zero byte and the bytes of the child.
-/

namespace CodeWide.Store

open Lib Table

structure IndexedThreadMetadata where
  id : String
  parentThreadId : Option String
  cwd : String
  createdAt : Int
  updatedAt : Int
  modelProvider : String
  cliVersion : String
  source : Json
  agentNickname : Option String
  agentRole : Option String
  archived : Bool
  running : Option Bool

/-- The ids of a row have no zero character. -/
def IndexedThreadMetadata.Plain (metadata : IndexedThreadMetadata) : Prop :=
  NulFree metadata.id ∧ ∀ parent, metadata.parentThreadId = some parent → NulFree parent

structure ThreadIndex where
  threadMetadata : Table String IndexedThreadMetadata
  threadsByParent : Table (List Byte) Byte

def parentThreadPrefix (parentThreadId : String) : List Byte := utf8 parentThreadId ++ [0]

def parentThreadKey (parentThreadId childThreadId : String) : List Byte :=
  parentThreadPrefix parentThreadId ++ utf8 childThreadId

lemma parentThreadKey_eq (parent child : String) :
    parentThreadKey parent child = utf8 parent ++ 0 :: utf8 child := by
  unfold parentThreadKey parentThreadPrefix
  rw [List.append_assoc, List.singleton_append]

lemma parentThreadKey_inj {parent child parent' child' : String}
    (h : parentThreadKey parent child = parentThreadKey parent' child') (hpar : NulFree parent')
    (hchild : NulFree child') : parent = parent' ∧ child = child' := by
  rw [parentThreadKey_eq, parentThreadKey_eq] at h
  obtain ⟨hp, hc⟩ :=
    Composite.split_inj h (zero_not_mem_utf8 hpar) (zero_not_mem_utf8 hchild)
  exact ⟨utf8_inj hp, utf8_inj hc⟩

namespace ThreadIndex

def empty : ThreadIndex := ⟨∅, ∅⟩

/-- One row of the batch, with the previous row read in the same transaction. -/
def putThreadMetadata (s : ThreadIndex) (metadata : IndexedThreadMetadata) : ThreadIndex :=
  let previous := s.threadMetadata.get? metadata.id
  let threadMetadata := s.threadMetadata.insert metadata.id metadata
  let parents := match previous.bind IndexedThreadMetadata.parentThreadId with
    | some previousParent => s.threadsByParent.erase (parentThreadKey previousParent metadata.id)
    | none => s.threadsByParent
  let parents := match metadata.parentThreadId with
    | some parent => parents.insert (parentThreadKey parent metadata.id) 1
    | none => parents
  ⟨threadMetadata, parents⟩

def putThreadMetadataBatch (s : ThreadIndex) (values : List IndexedThreadMetadata) : ThreadIndex :=
  values.foldl putThreadMetadata s

/-- The loop of `thread_descendants`; the top of the stack `pending` comes first. -/
structure Scan where
  pending : List String
  seen : List String
  descendants : List IndexedThreadMetadata

/-- One key of the range: the child after the prefix, when it is text that was not seen. -/
def unseen (skip : Nat) (acc : List String × List String) (key : List Byte) :
    List String × List String :=
  match fromUtf8 (key.drop skip) with
  | none => acc
  | some child => if child ∈ acc.2 then acc else (acc.1 ++ [child], child :: acc.2)

def push (s : ThreadIndex) (scan : Scan) (child : String) : Scan :=
  match s.threadMetadata.get? child with
  | none => scan
  | some value =>
    { scan with
      descendants := scan.descendants ++ [value]
      pending := child :: scan.pending }

def keysOf (s : ThreadIndex) (parent : String) : List (List Byte) :=
  let start := parentThreadPrefix parent
  (s.threadsByParent.scan
    (fun key => decide (start ≤ key) && decide (key ≤ start ++ [255]))).map Prod.fst

/-- The body of the loop, with `parent` taken off the stack. -/
def visit (s : ThreadIndex) (parent : String) (scan : Scan) : Scan :=
  let children := (s.keysOf parent).foldl (unseen (parentThreadPrefix parent).length) ([], scan.seen)
  (children.1.insertionSort (· ≤ ·)).reverse.foldl (push s) { scan with seen := children.2 }

def scanFrom (s : ThreadIndex) : Nat → Scan → Option (List IndexedThreadMetadata)
  | 0, _ => none
  | fuel + 1, scan =>
    match scan.pending with
    | [] => some scan.descendants
    | parent :: rest => scanFrom s fuel (s.visit parent { scan with pending := rest })

def threadDescendants (fuel : Nat) (s : ThreadIndex) (rootThreadId : String) :
    Option (List IndexedThreadMetadata) :=
  s.scanFrom fuel ⟨[rootThreadId], [], []⟩

def Child (s : ThreadIndex) (parent child : String) : Prop :=
  ∃ metadata, s.threadMetadata.get? child = some metadata ∧ metadata.parentThreadId = some parent

/-- The index holds exactly the pairs of the metadata. -/
def IndexExact (s : ThreadIndex) : Prop :=
  ∀ key, s.threadsByParent.contains key = true ↔
    ∃ parent child, s.Child parent child ∧ key = parentThreadKey parent child

/-- A row is stored under its id, and its ids have no zero character. -/
def RowsPlain (s : ThreadIndex) : Prop :=
  ∀ id metadata, s.threadMetadata.get? id = some metadata → metadata.id = id ∧ metadata.Plain

variable {s : ThreadIndex}

lemma RowsPlain.child (h : RowsPlain s) {parent child : String}
    (hchild : s.Child parent child) : NulFree parent ∧ NulFree child := by
  obtain ⟨metadata, hget, hpar⟩ := hchild
  obtain ⟨hid, hplain⟩ := h child metadata hget
  rw [← hid]
  exact ⟨hplain.2 parent hpar, hplain.1⟩

lemma get?_putThreadMetadata (s : ThreadIndex) (metadata : IndexedThreadMetadata) (id : String) :
    (s.putThreadMetadata metadata).threadMetadata.get? id =
      if id = metadata.id then some metadata else s.threadMetadata.get? id :=
  get?_insert _ _ _ _

variable {metadata : IndexedThreadMetadata}

lemma child_putThreadMetadata {parent child : String} :
    (s.putThreadMetadata metadata).Child parent child ↔
      (child = metadata.id ∧ metadata.parentThreadId = some parent) ∨
        (child ≠ metadata.id ∧ s.Child parent child) := by
  unfold Child
  rw [get?_putThreadMetadata]
  by_cases hid : child = metadata.id
  · rw [if_pos hid]
    constructor
    · rintro ⟨row, hrow, hpar⟩
      cases hrow
      exact .inl ⟨hid, hpar⟩
    · rintro (⟨-, hpar⟩ | ⟨hne, -⟩)
      · exact ⟨metadata, rfl, hpar⟩
      · exact absurd hid hne
  rw [if_neg hid]
  constructor
  · exact fun h => .inr ⟨hid, h⟩
  · rintro (⟨heq, -⟩ | ⟨-, h⟩)
    · exact absurd heq hid
    · exact h

/-- The key of the new pair is in the index, that of the previous pair is not, unless it is
the same. -/
lemma contains_putThreadMetadata {key : List Byte} :
    (s.putThreadMetadata metadata).threadsByParent.contains key = true ↔
      (∃ parent, metadata.parentThreadId = some parent ∧ key = parentThreadKey parent metadata.id) ∨
        (s.threadsByParent.contains key = true ∧
          ∀ parent, s.Child parent metadata.id → key ≠ parentThreadKey parent metadata.id) := by
  have heras : ∀ key, (match (s.threadMetadata.get? metadata.id).bind
        IndexedThreadMetadata.parentThreadId with
      | some previous => s.threadsByParent.erase (parentThreadKey previous metadata.id)
      | none => s.threadsByParent).contains key = true ↔
      s.threadsByParent.contains key = true ∧
        ∀ parent, s.Child parent metadata.id → key ≠ parentThreadKey parent metadata.id := by
    intro key
    have hchild : ∀ parent, s.Child parent metadata.id ↔
        (s.threadMetadata.get? metadata.id).bind IndexedThreadMetadata.parentThreadId =
          some parent := fun parent => Option.bind_eq_some_iff.symm
    cases hprev : (s.threadMetadata.get? metadata.id).bind IndexedThreadMetadata.parentThreadId with
    | none =>
      refine ⟨fun h => ⟨h, fun parent hpar => ?_⟩, fun h => h.1⟩
      rw [hchild, hprev] at hpar
      cases hpar
    | some previous =>
    rw [contains_erase_iff, and_comm]
    refine and_congr_right (fun _ => ⟨fun hne parent hpar => ?_, fun h => ?_⟩)
    · rw [hchild, hprev] at hpar
      cases hpar
      exact hne
    · exact h previous ((hchild previous).mpr hprev)
  unfold putThreadMetadata
  dsimp only
  cases hpar : metadata.parentThreadId with
  | none =>
    rw [heras]
    refine ⟨.inr, fun h => h.resolve_left ?_⟩
    rintro ⟨parent, hsome, -⟩
    cases hsome
  | some parent =>
  rw [contains_insert_iff, heras]
  refine or_congr_left ⟨fun h => ⟨parent, rfl, h⟩, ?_⟩
  rintro ⟨parent', hsome, rfl⟩
  cases hsome
  rfl

lemma RowsPlain.putThreadMetadata (h : RowsPlain s) (hplain : metadata.Plain) :
    RowsPlain (s.putThreadMetadata metadata) := by
  intro id row hget
  rw [get?_putThreadMetadata] at hget
  split at hget
  · rename_i hid
    cases hget
    exact ⟨hid.symm, hplain⟩
  · exact h id row hget

lemma IndexExact.putThreadMetadata (h : IndexExact s) (hrows : RowsPlain s)
    (metadata : IndexedThreadMetadata) : IndexExact (s.putThreadMetadata metadata) := by
  intro key
  rw [contains_putThreadMetadata, h key]
  constructor
  · rintro (⟨parent, hpar, rfl⟩ | ⟨⟨parent, child, hchild, rfl⟩, hprev⟩)
    · exact ⟨parent, metadata.id, child_putThreadMetadata.mpr (.inl ⟨rfl, hpar⟩), rfl⟩
    · refine ⟨parent, child, child_putThreadMetadata.mpr (.inr ⟨?_, hchild⟩), rfl⟩
      rintro rfl
      exact hprev parent hchild rfl
  rintro ⟨parent, child, hchild, rfl⟩
  rcases child_putThreadMetadata.mp hchild with ⟨rfl, hpar⟩ | ⟨hne, hold⟩
  · exact .inl ⟨parent, hpar, rfl⟩
  · refine .inr ⟨⟨parent, child, hold, rfl⟩, fun previous _ heq => hne ?_⟩
    obtain ⟨hpar, hchild⟩ := hrows.child hold
    exact (parentThreadKey_inj heq.symm hpar hchild).2.symm

lemma indexExact_putThreadMetadataBatch (h : IndexExact s ∧ RowsPlain s)
    {values : List IndexedThreadMetadata} (hplain : ∀ metadata ∈ values, metadata.Plain) :
    IndexExact (s.putThreadMetadataBatch values) ∧ RowsPlain (s.putThreadMetadataBatch values) := by
  unfold putThreadMetadataBatch
  induction values generalizing s with
  | nil => exact h
  | cons metadata rest ih =>
  refine ih ⟨h.1.putThreadMetadata h.2 metadata, h.2.putThreadMetadata ?_⟩
    (fun row hrow => hplain row (List.mem_cons_of_mem metadata hrow))
  exact hplain metadata List.mem_cons_self

lemma indexExact_empty : IndexExact empty ∧ RowsPlain empty := by
  refine ⟨fun key => ⟨fun h => (nomatch h), ?_⟩, fun id metadata h => (nomatch h)⟩
  rintro ⟨parent, child, ⟨metadata, hget, -⟩, -⟩
  cases hget

lemma mem_keysOf (h : IndexExact s) (hrows : RowsPlain s) {parent : String}
    {key : List Byte} : key ∈ s.keysOf parent ↔
      ∃ child, s.Child parent child ∧ key = parentThreadKey parent child := by
  have hrange : key ∈ s.keysOf parent ↔ s.threadsByParent.contains key = true ∧
      parentThreadPrefix parent ≤ key ∧ key ≤ parentThreadPrefix parent ++ [255] := by
    unfold keysOf contains
    dsimp only
    rw [List.mem_map, Option.isSome_iff_exists]
    constructor
    · rintro ⟨e, he, rfl⟩
      obtain ⟨hget, hbounds⟩ := mem_scan.mp he
      rw [Bool.and_eq_true, decide_eq_true_eq, decide_eq_true_eq] at hbounds
      exact ⟨⟨e.2, hget⟩, hbounds⟩
    rintro ⟨⟨value, hget⟩, hbounds⟩
    refine ⟨(key, value), mem_scan.mpr ⟨hget, ?_⟩, rfl⟩
    rw [Bool.and_eq_true, decide_eq_true_eq, decide_eq_true_eq]
    exact hbounds
  rw [hrange, h key]
  constructor
  · rintro ⟨⟨parent', child, hchild, rfl⟩, hlower, hupper⟩
    obtain ⟨hpar, hplain⟩ := hrows.child hchild
    rw [← List.append_nil (parentThreadPrefix parent)] at hlower
    obtain ⟨rest, hrest⟩ := Composite.exists_eq_append_of_between hlower hupper
    rw [parentThreadKey_eq, parentThreadPrefix, List.append_assoc, List.singleton_append] at hrest
    have hsplit := Composite.split_inj hrest.symm (zero_not_mem_utf8 hpar)
      (zero_not_mem_utf8 hplain)
    obtain rfl := utf8_inj hsplit.1
    exact ⟨child, hchild, rfl⟩
  rintro ⟨child, hchild, rfl⟩
  refine ⟨⟨parent, child, hchild, rfl⟩, ?_⟩
  have hbounds : parentThreadPrefix parent ++ [] ≤ parentThreadKey parent child ∧
      parentThreadKey parent child ≤ parentThreadPrefix parent ++ [255] :=
    Composite.between_iff.mpr ⟨utf8 child, rfl, not_lt.mp (List.not_lt_nil _), utf8_le_top child⟩
  rwa [List.append_nil] at hbounds

end ThreadIndex

end CodeWide.Store
