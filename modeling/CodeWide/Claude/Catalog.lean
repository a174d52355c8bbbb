import CodeWide.Lib.Keyset
import Mathlib.Data.String.Basic
import Mathlib.Data.List.Infix

/-!
# The thread list of a provider

One page of the rows a provider lists: those that pass the request's filters, in the order of the
sort key and then of the ids, from the position that the cursor names.
-/

namespace CodeWide.Listing

open Lib

inductive ThreadSortKey where
  | createdAt
  | updatedAt
  | recencyAt
  deriving DecidableEq

inductive SortDirection where
  | asc
  | desc
  deriving DecidableEq

structure AgentThread where
  appThreadId : String
  cwd : String
  archived : Bool
  createdAt : Int
  updatedAt : Int
  recencyAt : Option Int

structure SortWindow where
  lower : Option Int
  lowerInclusive : Bool
  upper : Option Int
  upperInclusive : Bool

/-- The position behind which a page starts; the request's own sort key and direction are
checked against it. -/
structure CursorPosition where
  sortKey : ThreadSortKey
  direction : SortDirection
  value : Int
  id : String

structure ThreadListParams where
  archived : Bool
  cwd : Option String
  searchTerm : Option String
  sortKey : ThreadSortKey
  sortDirection : SortDirection
  window : Option SortWindow
  cursor : Option CursorPosition
  limit : Nat

structure ThreadListResult where
  threads : List AgentThread
  nextCursor : Option CursorPosition

structure ListRow where
  thread : AgentThread
  shell : Bool
  searchText : String

namespace SortDirection

def before (d : SortDirection) (a b : Int) : Prop :=
  match d with
  | .asc => a < b
  | .desc => b < a

instance (d : SortDirection) (a b : Int) : Decidable (d.before a b) :=
  match d with
  | .asc => inferInstanceAs (Decidable (a < b))
  | .desc => inferInstanceAs (Decidable (b < a))

variable (d : SortDirection) {a b c : Int}

lemma before_irrefl (a : Int) : ¬ d.before a a := by
  cases d <;> exact lt_irrefl a

lemma before_trans (hab : d.before a b) (hbc : d.before b c) : d.before a c := by
  cases d with
  | asc => exact lt_trans hab hbc
  | desc => exact lt_trans hbc hab

lemma not_before_trans (hab : ¬ d.before b a) (hbc : ¬ d.before c b) : ¬ d.before c a := by
  cases d with
  | asc => exact not_lt.mpr (le_trans (not_lt.mp hab) (not_lt.mp hbc))
  | desc => exact not_lt.mpr (le_trans (not_lt.mp hbc) (not_lt.mp hab))

lemma before_of_not_of_before (hab : ¬ d.before b a) (hbc : d.before b c) : d.before a c := by
  cases d with
  | asc => exact lt_of_le_of_lt (not_lt.mp hab) hbc
  | desc => exact lt_of_lt_of_le hbc (not_lt.mp hab)

lemma not_before_total (a b : Int) : ¬ d.before b a ∨ ¬ d.before a b := by
  cases d with
  | asc => exact (le_total a b).imp not_lt.mpr not_lt.mpr
  | desc => exact (le_total b a).imp not_lt.mpr not_lt.mpr

end SortDirection

def sortValue (thread : AgentThread) : ThreadSortKey → Int
  | .createdAt => thread.createdAt
  | .updatedAt => thread.updatedAt
  | .recencyAt => thread.recencyAt.getD thread.updatedAt

def SortWindow.contains (window : SortWindow) (value : Int) : Bool :=
  (match window.lower with
    | some lower => if window.lowerInclusive then lower ≤ value else lower < value
    | none => true) &&
  match window.upper with
  | some upper => if window.upperInclusive then value ≤ upper else value < upper
  | none => true

def inWindow (value : Int) (window : Option SortWindow) : Bool :=
  window.all (·.contains value)

/-- Whether the row passes the filters of a request, its window aside; `lower` is the lower case
of a text. -/
def ListRow.matches (lower : String → String) (params : ThreadListParams) (row : ListRow) : Bool :=
  let term := (params.searchTerm.map lower).getD ""
  decide (row.thread.archived = params.archived) && (params.archived || !row.shell) &&
    params.cwd.all (fun cwd => decide (row.thread.cwd = cwd)) &&
    (term.isEmpty || decide (term.toList <:+: (lower row.searchText).toList))

/-- The list order of a request, ids breaking ties. -/
def Listed (key : ThreadSortKey) (d : SortDirection) (a b : AgentThread) : Prop :=
  d.before (sortValue a key) (sortValue b key) ∨
    (sortValue a key = sortValue b key ∧
      match d with
      | .asc => a.appThreadId ≤ b.appThreadId
      | .desc => b.appThreadId ≤ a.appThreadId)

instance (key : ThreadSortKey) (d : SortDirection) (a b : AgentThread) :
    Decidable (Listed key d a b) :=
  match d with
  | .asc => inferInstanceAs (Decidable (_ ∨ (_ ∧ _ ≤ _)))
  | .desc => inferInstanceAs (Decidable (_ ∨ (_ ∧ _ ≤ _)))

def ordered (lower : String → String) (rows : List ListRow) (params : ThreadListParams) :
    List AgentThread :=
  ((rows.filter fun row => row.matches lower params &&
    inWindow (sortValue row.thread params.sortKey) params.window).map (·.thread)).insertionSort
      (Listed params.sortKey params.sortDirection)

def CursorPosition.behind (position : CursorPosition) (thread : AgentThread) : Bool :=
  let value := sortValue thread position.sortKey
  if value = position.value then
    match position.direction with
    | .desc => decide (thread.appThreadId < position.id)
    | .asc => decide (position.id < thread.appThreadId)
  else
    match position.direction with
    | .desc => decide (value < position.value)
    | .asc => decide (position.value < value)

def CursorPosition.of (key : ThreadSortKey) (d : SortDirection) (last : AgentThread) :
    CursorPosition :=
  ⟨key, d, sortValue last key, last.appThreadId⟩

def maxPage : Nat := 500

def list (lower : String → String) (rows : List ListRow) (params : ThreadListParams) :
    Option ThreadListResult :=
  if params.cursor.all fun position =>
      decide (position.sortKey = params.sortKey ∧ position.direction = params.sortDirection) then
    let page := Keyset.page CursorPosition.behind (.of params.sortKey params.sortDirection)
      (max 1 (min params.limit maxPage)) (ordered lower rows params) params.cursor
    some ⟨page.1, page.2⟩
  else none

variable {lower : String → String} {key : ThreadSortKey} {d : SortDirection}

lemma behind_of_iff {a b : AgentThread} : (CursorPosition.of key d a).behind b = true ↔
      d.before (sortValue a key) (sortValue b key) ∨ (sortValue a key = sortValue b key ∧
          match d with
          | .asc => a.appThreadId < b.appThreadId
          | .desc => b.appThreadId < a.appThreadId) := by
  unfold CursorPosition.behind CursorPosition.of
  by_cases hvalue : sortValue b key = sortValue a key
  · have hirrefl := d.before_irrefl (sortValue a key)
    cases d with
    | asc | desc =>
      simp only [hvalue, if_true, decide_eq_true_eq]
      exact ⟨fun h => .inr ⟨trivial, h⟩, fun h => h.elim (fun hb => absurd hb hirrefl) (·.2)⟩
  have hne : ¬ sortValue a key = sortValue b key := fun h => hvalue h.symm
  cases d with
  | asc | desc =>
    simp only [if_neg hvalue, decide_eq_true_eq, hne, false_and, or_false]
    rfl

lemma behind_irrefl (a : AgentThread) : ¬ (CursorPosition.of key d a).behind a = true := by
  rw [behind_of_iff]
  rintro (h | ⟨-, h⟩)
  · exact d.before_irrefl _ h
  · cases d <;> exact absurd h (lt_irrefl _)

lemma behind_asymm (a b : AgentThread) (h : (CursorPosition.of key d a).behind b = true) :
    ¬ (CursorPosition.of key d b).behind a = true := by
  rw [behind_of_iff] at h ⊢
  rintro (hba | ⟨heq, hba⟩)
  · rcases h with hab | ⟨heq, -⟩
    · exact d.before_irrefl _ (d.before_trans hab hba)
    · exact d.before_irrefl _ (heq ▸ hba)
  rcases h with hab | ⟨-, hab⟩
  · exact d.before_irrefl _ (heq ▸ hab)
  · cases d with
    | asc | desc => exact lt_asymm hab hba

instance : Std.Total (Listed key d) where
  total a b := by
    rcases lt_trichotomy (sortValue a key) (sortValue b key) with hlt | heq | hgt
    · cases d with
      | asc => exact .inl (.inl hlt)
      | desc => exact .inr (.inl hlt)
    · cases d with
      | asc =>
        exact (le_total a.appThreadId b.appThreadId).elim (fun h => .inl (.inr ⟨heq, h⟩))
          (fun h => .inr (.inr ⟨heq.symm, h⟩))
      | desc =>
        exact (le_total b.appThreadId a.appThreadId).elim (fun h => .inl (.inr ⟨heq, h⟩))
          (fun h => .inr (.inr ⟨heq.symm, h⟩))
    · cases d with
      | asc => exact .inr (.inl hgt)
      | desc => exact .inl (.inl hgt)

instance : IsTrans AgentThread (Listed key d) where
  trans a b c hab hbc := by
    rcases hab with hab | ⟨heq, hab⟩
    · rcases hbc with hbc | ⟨heq', -⟩
      · exact .inl (d.before_trans hab hbc)
      · exact .inl (heq' ▸ hab)
    · rcases hbc with hbc | ⟨heq', hbc⟩
      · exact .inl (heq ▸ hbc)
      · refine .inr ⟨heq.trans heq', ?_⟩
        cases d with
        | asc => exact le_trans hab hbc
        | desc => exact le_trans hbc hab

lemma perm_ordered (rows : List ListRow) (params : ThreadListParams) :
    (ordered lower rows params).Perm ((rows.filter fun row => row.matches lower params &&
      inWindow (sortValue row.thread params.sortKey) params.window).map (·.thread)) :=
  List.perm_insertionSort _ _

lemma pairwise_ordered {rows : List ListRow}
    (hnodup : (rows.map fun row => row.thread.appThreadId).Nodup) (params : ThreadListParams) :
    (ordered lower rows params).Pairwise fun a b =>
      (CursorPosition.of params.sortKey params.sortDirection a).behind b = true := by
  have hsorted : (ordered lower rows params).Pairwise
      (Listed params.sortKey params.sortDirection) := List.pairwise_insertionSort _ _
  have hids : ((ordered lower rows params).map AgentThread.appThreadId).Nodup := by
    refine (((perm_ordered rows params).map _).nodup_iff).mpr ?_
    rw [List.map_map]
    exact hnodup.sublist ((List.filter_sublist).map _)
  have hdist := List.pairwise_map.mp hids
  refine (hsorted.and hdist).imp ?_
  rintro a b ⟨h | ⟨heq, h⟩, hne⟩
  · exact behind_of_iff.mpr (.inl h)
  refine behind_of_iff.mpr (.inr ⟨heq, ?_⟩)
  generalize params.sortDirection = direction at h ⊢
  cases direction with
  | asc => exact lt_of_le_of_ne h hne
  | desc => exact lt_of_le_of_ne h (Ne.symm hne)

end CodeWide.Listing
