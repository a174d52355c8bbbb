import CodeWide.Sqlite.HotPredicate
import Mathlib.Data.List.Sort
import Mathlib.Data.String.Basic

/-!
# The order of a hot subset

`trimSubset` sorts and cuts rows in memory, as `ORDER BY` and `LIMIT` do in the table.
-/

namespace CodeWide.Sqlite

open List
open Std (TransCmp)

inductive Direction where
  | asc
  | desc
deriving DecidableEq

inductive Nulls where
  | first
  | last
deriving DecidableEq

structure OrderByClause where
  expression : Expr
  direction : Direction
  nulls : Nulls

structure LoadSubsetOptions where
  orderBy : Option (List OrderByClause)
  limit : Option Nat
  offset : Option Nat

def OrderByClause.column? (columns : Columns) (clause : OrderByClause) : Option Column :=
  match clause.expression with
  | .ref path => columns.column? path
  | _ => none

abbrev Entry := String × Row

def slice (offset : Nat) (limit : Option Nat) (entries : List Entry) : List Entry :=
  match limit with
  | none => entries.drop offset
  | some limit => (entries.drop offset).take limit

structure OrderingTerm where
  column : String
  direction : Direction
  nulls : Nulls

structure Select where
  /-- Without terms there is no `ORDER BY`; else the key is the last term. -/
  orderBy : List OrderingTerm
  limit : Option Nat
  offset : Nat

def compileClause (columns : Columns) (clause : OrderByClause) : Option OrderingTerm := do
  let column ← clause.column? columns
  if column.type = .text then none else some ⟨column.column, clause.direction, clause.nulls⟩

def compileSelect (columns : Columns) (options : LoadSubsetOptions) : Option Select :=
  let orderBy := options.orderBy.getD []
  if (options.limit.isSome || options.offset.isSome) && orderBy.isEmpty then none
  else do
    let terms ← orderBy.mapM (compileClause columns)
    some ⟨terms, options.limit, options.offset.getD 0⟩

def placed : Nulls → Option ℚ → Option ℚ → Ordering
  | .first => compareOn Option.isSome
  | .last => compareOn Option.isNone

def directed : Direction → Ordering → Ordering
  | .asc, compared => compared
  | .desc, compared => compared.swap

def sortBy {α : Type} (cmp : α → α → Ordering) (l : List α) : List α :=
  l.insertionSort fun x y => (cmp x y).isLE

def Columns.number? (columns : Columns) (name : String) (x : Entry) : Option ℚ :=
  match columns.cell x.2 name with
  | some (.num q) => some q
  | _ => none

def sqlOrder (columns : Columns) : List OrderingTerm → Entry → Entry → Ordering
  | [] => compareOn Prod.fst
  | term :: rest =>
    compareLex (Ordering.byKey (columns.number? term.column) (compareLex (placed term.nulls)
      fun v w => directed term.direction (compare v w))) (sqlOrder columns rest)

def Select.rows (columns : Columns) (select : Select) (table : List Entry) : List Entry :=
  slice select.offset select.limit (sortBy (sqlOrder columns select.orderBy) table)

section Hot

variable (localeCompare : JsResult → JsResult → Int)

def compareNullable (left right : SqliteValue) (nulls : Nulls) : Ordering :=
  match isNullish left.toJs, isNullish right.toJs with
  | true, true => .eq
  | true, false => if nulls = .first then .lt else .gt
  | false, true => if nulls = .first then .gt else .lt
  | false, false => compare (compareValues localeCompare (.scalar left.toJs) (.scalar right.toJs)) 0

def OrderByClause.value (columns : Columns) (clause : OrderByClause) (x : Entry) :
    Option SqliteValue := do
  let column ← clause.column? columns
  column.encodeExpressionValue (x.2 column.property)

def compareKeys (left right : String) : Ordering :=
  compare (localeCompare (.scalar (.str left)) (.scalar (.str right))) 0

def compareRows (columns : Columns) : List OrderByClause → Entry → Entry → Option Ordering
  | [], x, y => some (compareKeys localeCompare x.1 y.1)
  | clause :: rest, x, y => do
    let left ← clause.value columns x
    let right ← clause.value columns y
    let compared := compareNullable localeCompare left right clause.nulls
    if compared ≠ .eq then some (directed clause.direction compared)
    else compareRows columns rest x y

def trimSubset (columns : Columns) (options : LoadSubsetOptions) (rows : List Entry) :
    Option (List Entry) :=
  if options.orderBy.isNone && options.limit.isNone && options.offset.isNone then some rows
  else do
    let ordered ← match options.orderBy with
      | none => some rows
      | some clauses =>
        -- A comparison that throws ends the sort.
        if rows.Pairwise fun x y => (compareRows localeCompare columns clauses x y).isSome then
          some (sortBy (fun x y => (compareRows localeCompare columns clauses x y).getD .eq) rows)
        else none
    let retained := (slice (options.offset.getD 0) options.limit ordered).map Prod.fst
    some (rows.filter fun x => retained.contains x.1)

def Agree (columns : Columns) (options : LoadSubsetOptions) (rows : List Entry) : Prop :=
  ∃ select kept, compileSelect columns options = some select ∧
    trimSubset localeCompare columns options rows = some kept ∧
    ∀ x, x ∈ kept ↔ x ∈ select.rows columns rows

/-- The first clause that tells the rows apart is no descending one on a null. -/
def SameOrder (columns : Columns) : List OrderByClause → Entry → Entry → Prop
  | [], x, y => (compareKeys localeCompare x.1 y.1).isLE ↔ x.1 ≤ y.1
  | clause :: rest, x, y =>
    if clause.value columns x = clause.value columns y then SameOrder columns rest x y
    else clause.direction = .desc →
      clause.value columns x ≠ some .null ∧ clause.value columns y ≠ some .null

end Hot

section Sorts

variable {α : Type} {f g : α → α → Ordering} {l : List α}

lemma sortBy_perm (f : α → α → Ordering) (l : List α) : sortBy f l ~ l := perm_insertionSort _ l

lemma sortBy_congr (h : l.Pairwise fun x y => (f x y).isLE ↔ (g x y).isLE) :
    sortBy f l = sortBy g l := by
  unfold sortBy
  induction l with
  | nil => rfl
  | cons x rest ih =>
  obtain ⟨hx, hrest⟩ := pairwise_cons.mp h
  rw [insertionSort_cons, insertionSort_cons, ih hrest]
  have hx : ∀ y ∈ sortBy g rest, (f x y).isLE ↔ (g x y).isLE := fun y hy =>
    hx y ((sortBy_perm g rest).mem_iff.mp hy)
  revert hx
  unfold sortBy
  induction rest.insertionSort fun x y => (g x y).isLE with
  | nil => exact fun _ => rfl
  | cons y l ih =>
  intro hx
  rw [orderedInsert_cons, orderedInsert_cons, ih fun z hz => hx z (mem_cons_of_mem y hz)]
  exact if_congr (hx y mem_cons_self) rfl rfl

lemma pairwise_sortBy [TransCmp f] : (sortBy f l).Pairwise fun x y => (f x y).isLE := by
  have htotal : Std.Total fun x y => (f x y).isLE := ⟨fun x y => by
    have hswap : f y x = (f x y).swap := Std.OrientedCmp.eq_swap
    rw [hswap]
    cases f x y <;> simp⟩
  have htrans : IsTrans α fun x y => (f x y).isLE := ⟨fun _ _ _ => TransCmp.isLE_trans⟩
  exact pairwise_insertionSort _ l

lemma sortBy_iff [TransCmp f] [TransCmp g] :
    sortBy f l = sortBy g l ↔ l.Pairwise fun x y => (f x y).isLE ↔ (g x y).isLE := by
  refine ⟨fun h => ?_, sortBy_congr⟩
  have hinto : ∀ {f g : α → α → Ordering} [TransCmp g] {x y}, sortBy f l = sortBy g l →
      [x, y] <+ l → (f x y).isLE → (g x y).isLE := by
    intro f g _ x y heq hxy hf
    have hsub : [x, y] <+ sortBy f l := pair_sublist_insertionSort hf hxy
    have hsorted : (sortBy g l).Pairwise fun x y => (g x y).isLE := pairwise_sortBy
    rw [heq] at hsub
    simpa using hsorted.sublist hsub
  exact pairwise_iff_forall_sublist.mpr fun hxy => ⟨hinto h hxy, hinto h.symm hxy⟩

lemma eq_of_fronts {m : List α} (hl : l.Nodup) (hm : m.Nodup)
    (h : ∀ n x, x ∈ l.take n ↔ x ∈ m.take n) : l = m := by
  induction l generalizing m with
  | nil =>
    cases m with
    | nil => rfl
    | cons b m => simpa using h 1 b
  | cons a l ih =>
  cases m with
  | nil => simpa using h 1 a
  | cons b m =>
  have hab : a = b := by simpa using h 1 a
  subst hab
  rw [nodup_cons] at hl hm
  rw [ih hl.2 hm.2 fun n x => ?_]
  have hx := h (n + 1) x
  rw [take_succ_cons, take_succ_cons, mem_cons, mem_cons] at hx
  have hal : x ∈ l.take n → x ≠ a := fun hmem heq => hl.1 (heq ▸ mem_of_mem_take hmem)
  have ham : x ∈ m.take n → x ≠ a := fun hmem heq => hm.1 (heq ▸ mem_of_mem_take hmem)
  tauto

end Sorts

section Orders

variable {localeCompare : JsResult → JsResult → Int} {columns : Columns} {clause : OrderByClause}
  {term : OrderingTerm} {x y : Entry}

instance (nulls : Nulls) : TransCmp (placed nulls) := by
  cases nulls <;> exact inferInstanceAs (TransCmp (compareOn _))

instance {α : Type} (cmp : α → α → Ordering) [TransCmp cmp] (direction : Direction) :
    TransCmp fun x y => directed direction (cmp x y) := by
  cases direction with
  | asc => exact inferInstanceAs (TransCmp cmp)
  | desc =>
    have hflip : (fun x y => directed .desc (cmp x y)) = flip cmp :=
      funext fun x => funext fun y => Std.OrientedCmp.eq_swap.symm
    rw [hflip]
    infer_instance

instance (columns : Columns) (terms : List OrderingTerm) : TransCmp (sqlOrder columns terms) := by
  induction terms with
  | nil => exact inferInstanceAs (TransCmp (compareOn _))
  | cons term rest ih => exact inferInstanceAs (TransCmp (compareLex _ _))

def hotOrder (localeCompare : JsResult → JsResult → Int) (columns : Columns) :
    List OrderingTerm → Entry → Entry → Ordering
  | [] => Ordering.byKey Prod.fst (compareKeys localeCompare)
  | term :: rest =>
    compareLex (Ordering.byKey (columns.number? term.column)
      fun v w => directed term.direction (compareLex (placed term.nulls) compare v w))
      (hotOrder localeCompare columns rest)

lemma hotOrder_trans (hcollation : TransCmp (compareKeys localeCompare)) (columns : Columns)
    (terms : List OrderingTerm) : TransCmp (hotOrder localeCompare columns terms) := by
  induction terms with
  | nil => exact inferInstanceAs (TransCmp (Ordering.byKey _ _))
  | cons term rest ih => exact inferInstanceAs (TransCmp (compareLex _ _))

lemma clause_spec (haccepts : columns.accepts x.2) (h : compileClause columns clause = some term) :
    clause.value columns x = some ((columns.number? term.column x).elim .null .num) ∧
      clause.direction = term.direction ∧ clause.nulls = term.nulls := by
  obtain ⟨column, hcol, h⟩ := Option.bind_eq_some_iff.mp h
  split at h
  · cases h
  rename_i htype
  cases h
  rw [OrderByClause.value, hcol]
  unfold OrderByClause.column? at hcol
  split at hcol
  · obtain ⟨-, e, he, hcell⟩ := cell_spec haccepts (column?_spec hcol).2.2
    rcases encodeExpressionValue_cases he with rfl | ⟨htext, -⟩ | ⟨-, q, rfl⟩
    · simp [Columns.number?, hcell, he, SqliteValue.bind]
    · exact absurd htext htype
    · simp [Columns.number?, hcell, he, SqliteValue.bind]
  · cases hcol

lemma compareNullable_numbers (v w : Option ℚ) (nulls : Nulls) :
    compareNullable localeCompare (v.elim .null .num) (w.elim .null .num) nulls =
      compareLex (placed nulls) compare v w := by
  cases v with
  | none => cases w <;> cases nulls <;> rfl
  | some p =>
  cases w with
  | none => cases nulls <;> rfl
  | some q =>
  have hpl : placed nulls (some p) (some q) = .eq := by cases nulls <;> rfl
  rw [compareLex, hpl, Ordering.eq_then]
  change compare (compareValues localeCompare (.scalar (.num p)) (.scalar (.num q))) 0 = compare p q
  obtain ⟨hlt, hgt⟩ := compareValues_num localeCompare p q
  rcases lt_trichotomy p q with h | rfl | h
  · rw [compare_lt_iff_lt.mpr h, compare_lt_iff_lt.mpr (hlt.mpr h)]
  · simp [compareValues]
  · rw [compare_gt_iff_gt.mpr h, compare_gt_iff_gt.mpr (hgt.mpr h)]

def Compiles (columns : Columns) : List OrderByClause → List OrderingTerm → Prop :=
  List.Forall₂ fun clause term => compileClause columns clause = some term

variable {clauses : List OrderByClause} {terms : List OrderingTerm}

lemma compareRows_eq (hx : columns.accepts x.2) (hy : columns.accepts y.2)
    (h : Compiles columns clauses terms) :
    compareRows localeCompare columns clauses x y =
      some (hotOrder localeCompare columns terms x y) := by
  induction h with
  | nil => rfl
  | @cons clause term clauses terms hclause _ ih =>
  obtain ⟨hvalue, hdir, hnulls⟩ := clause_spec hx hclause
  rw [compareRows, hvalue, (clause_spec hy hclause).1, hdir, hnulls, hotOrder, compareLex,
    Ordering.byKey]
  simp only [Option.bind_eq_bind, Option.bind_some, compareNullable_numbers, ih]
  cases hc : compareLex (placed term.nulls) compare (columns.number? term.column x)
    (columns.number? term.column y) <;> cases term.direction <;> rfl

lemma sameOrder_iff (hx : columns.accepts x.2) (hy : columns.accepts y.2)
    (h : Compiles columns clauses terms) :
    ((hotOrder localeCompare columns terms x y).isLE ↔ (sqlOrder columns terms x y).isLE) ↔
      SameOrder localeCompare columns clauses x y := by
  induction h with
  | nil =>
    have hkeys : (compare x.1 y.1).isLE = true ↔ x.1 ≤ y.1 := Std.LawfulBCmp.isLE_iff_le
    rw [hotOrder, sqlOrder, SameOrder, compareOn, hkeys, Ordering.byKey]
  | @cons clause term clauses terms hclause _ ih =>
  obtain ⟨hvalue, hdir, -⟩ := clause_spec hx hclause
  rw [SameOrder, hvalue, (clause_spec hy hclause).1, hdir]
  simp only [hotOrder, sqlOrder, compareLex, Ordering.byKey]
  generalize columns.number? term.column x = v
  generalize columns.number? term.column y = w
  have hrefl : ∀ (cmp : Option ℚ → Option ℚ → Ordering) [TransCmp cmp], cmp v v = .eq :=
    fun _ _ => Std.ReflCmp.compare_self
  have hft : compare false true = .lt := rfl
  have htf : compare true false = .gt := rfl
  -- Where the numbers differ, the clause decides in both orders.
  by_cases hvw : v = w
  · subst hvw
    rw [if_pos rfl, hrefl (placed _), hrefl compare]
    cases term.direction <;> exact ih
  rcases v with _ | p <;> rcases w with _ | q
  · exact absurd rfl hvw
  iterate 2
    · cases term.nulls <;> cases term.direction <;> simp [directed, placed, compareOn, hft, htf]
  have hpq : p ≠ q := fun h => hvw (congrArg some h)
  have hsome : compare (some p) (some q) = compare p q := rfl
  cases hc : compare p q with
  | eq => exact absurd (compare_eq_iff_eq.mp hc) hpq
  | _ =>
    cases term.nulls <;> cases term.direction <;> simp [directed, placed, compareOn, hsome, hc, hpq]

end Orders

section Cuts

variable {localeCompare : JsResult → JsResult → Int} {columns : Columns}
  {clauses : List OrderByClause} {terms : List OrderingTerm} {rows : List Entry}

lemma mem_of_slice {cmp : Entry → Entry → Ordering} {x : Entry} {offset : Nat} {limit : Option Nat}
    (h : x ∈ slice offset limit (sortBy cmp rows)) : x ∈ rows := by
  refine (sortBy_perm cmp rows).mem_iff.mp ?_
  cases limit with
  | none => exact mem_of_mem_drop h
  | some n => exact mem_of_mem_drop (mem_of_mem_take h)

lemma trimSubset_spec (localeCompare : JsResult → JsResult → Int)
    (haccepts : ∀ x ∈ rows, columns.accepts x.2) (hkeys : (rows.map Prod.fst).Nodup)
    (hterms : Compiles columns clauses terms) (limit : Option Nat) :
    ∃ kept, trimSubset localeCompare columns ⟨some clauses, limit, none⟩ rows = some kept ∧
      ∀ x, x ∈ kept ↔ x ∈ slice 0 limit (sortBy (hotOrder localeCompare columns terms) rows) := by
  have heq : ∀ x ∈ rows, ∀ y ∈ rows, compareRows localeCompare columns clauses x y =
      some (hotOrder localeCompare columns terms x y) := fun x hx y hy =>
    compareRows_eq (haccepts x hx) (haccepts y hy) hterms
  have hsome : rows.Pairwise fun x y => (compareRows localeCompare columns clauses x y).isSome :=
    pairwise_of_forall_mem_list fun x hx y hy => by rw [heq x hx y hy, Option.isSome_some]
  have hsort : sortBy (fun x y => (compareRows localeCompare columns clauses x y).getD .eq) rows =
      sortBy (hotOrder localeCompare columns terms) rows :=
    sortBy_congr <| pairwise_of_forall_mem_list fun x hx y hy => by
      simp only [heq x hx y hy, Option.getD_some]
  refine ⟨_, by simp only [trimSubset, if_pos hsome, hsort]; rfl, fun x => ?_⟩
  rw [mem_filter, contains_iff_mem, mem_map]
  constructor
  · rintro ⟨hx, z, hz, hkey⟩
    rwa [← inj_on_of_nodup_map hkeys (mem_of_slice hz) hx hkey]
  · exact fun hx => ⟨mem_of_slice hx, x, hx, rfl⟩

theorem trimSubset_iff (hcollation : TransCmp (compareKeys localeCompare))
    (haccepts : ∀ x ∈ rows, columns.accepts x.2) (hkeys : (rows.map Prod.fst).Nodup)
    (hselect : (compileSelect columns ⟨some clauses, some 0, none⟩).isSome = true) :
    (∀ limit, Agree localeCompare columns ⟨some clauses, limit, none⟩ rows) ↔
      rows.Pairwise (SameOrder localeCompare columns clauses) := by
  obtain ⟨select, hselect⟩ := Option.isSome_iff_exists.mp hselect
  simp only [compileSelect] at hselect
  split at hselect
  · cases hselect
  rename_i hempty
  obtain ⟨terms, hmap, -⟩ := Option.bind_eq_some_iff.mp hselect
  have hmap : clauses.mapM (compileClause columns) = some terms := hmap
  have hterms : Compiles columns clauses terms := mapM_forall₂ hmap
  have hcomp : ∀ limit, compileSelect columns ⟨some clauses, limit, none⟩ =
      some ⟨terms, limit, 0⟩ := by
    intro limit
    rw [compileSelect, if_neg fun h => hempty (by simp_all), Option.getD_some, hmap]
    rfl
  have := hotOrder_trans hcollation columns terms
  have hagree : ∀ limit, Agree localeCompare columns ⟨some clauses, limit, none⟩ rows ↔
      ∀ x, x ∈ slice 0 limit (sortBy (hotOrder localeCompare columns terms) rows) ↔
        x ∈ slice 0 limit (sortBy (sqlOrder columns terms) rows) := by
    intro limit
    obtain ⟨kept, hkept, hmem⟩ := trimSubset_spec localeCompare haccepts hkeys hterms limit
    simp only [Agree, hcomp, hkept, Option.some.injEq, ← hmem]
    constructor
    · rintro ⟨_, _, rfl, rfl, h⟩
      exact h
    · exact fun h => ⟨_, _, rfl, rfl, h⟩
  have hnodup : ∀ cmp, (sortBy cmp rows).Nodup := fun cmp =>
    (sortBy_perm cmp rows).nodup_iff.mpr (hkeys.of_map Prod.fst)
  calc (∀ limit, Agree localeCompare columns ⟨some clauses, limit, none⟩ rows) ↔
        sortBy (hotOrder localeCompare columns terms) rows = sortBy (sqlOrder columns terms) rows := by
        simp only [hagree]
        exact ⟨fun h => eq_of_fronts (hnodup _) (hnodup _) fun n => h (some n),
          fun h limit x => by rw [h]⟩
    _ ↔ rows.Pairwise fun x y => (hotOrder localeCompare columns terms x y).isLE ↔
          (sqlOrder columns terms x y).isLE := sortBy_iff
    _ ↔ rows.Pairwise (SameOrder localeCompare columns clauses) :=
        Pairwise.iff_of_mem fun hx hy => sameOrder_iff (haccepts _ hx) (haccepts _ hy) hterms

end Cuts

def binaryOrder : JsResult → JsResult → Int
  | .scalar (.str s), .scalar (.str t) =>
    match compare s t with
    | .lt => -1
    | .eq => 0
    | .gt => 1
  | _, _ => 0

def countColumns : Columns :=
  ⟨[⟨"count", "count", .integer, true, none⟩], by decide, by decide⟩

def countRows : List Entry := [("string:a", fun _ => .null), ("string:b", fun _ => .num 3)]

theorem countRows_ascending :
    Agree binaryOrder countColumns
      ⟨some [⟨.ref ["count"], .asc, .first⟩], some 1, none⟩ countRows := by
  refine (trimSubset_iff ?_ ?_ (by decide) (by decide)).mpr ?_ (some 1)
  · have heq : compareKeys binaryOrder = compare := by
      funext left right
      simp only [compareKeys, binaryOrder]
      cases compare left right <;> rfl
    rw [heq]
    infer_instance
  · unfold Columns.accepts
    decide
  · simp [countRows, SameOrder]
    decide

/-- The descending clause puts the null last in memory, and first in the table. -/
theorem countRows_descending :
    let options : LoadSubsetOptions := ⟨some [⟨.ref ["count"], .desc, .first⟩], some 1, none⟩
    (trimSubset binaryOrder countColumns options countRows).map (·.map Prod.fst) =
        some ["string:b"] ∧
      (compileSelect countColumns options).map (fun select =>
        (select.rows countColumns countRows).map Prod.fst) = some ["string:a"] := by
  decide

end CodeWide.Sqlite
