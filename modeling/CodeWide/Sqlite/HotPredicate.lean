import CodeWide.Lib.Positions
import CodeWide.Sqlite.Predicates

/-!
# Where the hot predicate is the SQL predicate

The two agree where truth values come from operators or literals and operands are of one class.
-/

namespace CodeWide.Sqlite

open List Bool SqliteValue
open Option (bind_eq_bind bind_eq_some_iff bind_some map_eq_some_iff map_some)

/-! ## The condition -/

inductive ValueClass where
  | truth
  | number
  | text
deriving DecidableEq

def Column.valueClass (column : Column) : ValueClass :=
  if column.type = .text then .text else .number

def classOf (columns : Columns) : Expr → Option ValueClass
  | .ref path => (columns.column? path).map Column.valueClass
  | .val (.bool _) => some .truth
  | .val (.num _) => some .number
  | .val (.str _) => some .text
  | .val _ => none
  | .list _ => none
  | .func _ _ => some .truth

/-- A literal that SQLite and the language read alike. -/
def isPlain : JsValue → Bool
  | .null => true
  | .bool _ => true
  | .num _ => true
  | .str _ => true
  | _ => false

def Expr.isPlainVal : Expr → Bool
  | .val v => isPlain v
  | _ => false

/-- Two operands that are compared alike: texts for equality only. -/
def classesMatch (c : Comparison) (a b : Option ValueClass) : Bool :=
  match a, b with
  | some x, some y => decide (x = y) && (!c.isRange || decide (x = .number))
  | _, _ => true

/-- A literal of the same class as the left side of a membership, or null. -/
def memberMatches (columns : Columns) (a : Expr) (v : JsValue) : Bool :=
  isPlain v && classesMatch .eq (classOf columns a) (classOf columns (.val v))

def neverNull (columns : Columns) (row : Row) : Expr → Bool
  | .ref path =>
    match columns.column? path with
    | some column => decide (column.encodeExpressionValue (row column.property) ≠ some .null)
    | none => false
  | .val v => decide (v ≠ .null)
  | _ => false

def encodesNonNull (columns : Columns) (path : List String) (vs : List JsValue) : Bool :=
  match columns.column? path with
  | some column => vs.all (fun v => decide (column.encodeExpressionValue v ≠ some .null))
  | none => false

mutual

/-- The truth value of an expression agrees: for being true if `pos`, for being false if `neg`. -/
def soundAt (columns : Columns) (row : Row) (pos neg : Bool) : Expr → Bool
  | .ref _ => false
  | .val v => decide (v = .null) || decide (v = .bool true) || decide (v = .bool false)
  | .list _ => false
  | .func name args =>
    match Operator.ofName name, args with
    | some (.comparison c), [a, b] =>
      match columnValuePair a b with
      | some (_, .val _, _) => true
      | some _ => false
      | none =>
        (a.isRef || a.isPlainVal || soundAt columns row true true a) &&
          (b.isRef || b.isPlainVal || soundAt columns row true true b) &&
          classesMatch c (classOf columns a) (classOf columns b)
    | some .in, [a, .list []] =>
      (a.isRef || a.isPlainVal || soundAt columns row true true a) &&
        (!neg || neverNull columns row a)
    | some .in, [.ref path, .list vs] => !neg || encodesNonNull columns path vs
    | some .in, [a, .list vs] =>
      (a.isPlainVal || soundAt columns row true true a) && vs.all (memberMatches columns a)
    | some .and, args => soundArgs columns row pos neg args
    | some .or, args => soundArgs columns row pos neg args
    | some .not, [a] =>
      (a.isRef && decide (classOf columns a = some .number)) || soundAt columns row neg pos a
    | some .isNull, [a] => a.isRef || a.isPlainVal || soundAt columns row true true a
    | _, _ => false

def soundArgs (columns : Columns) (row : Row) (pos neg : Bool) : List Expr → Bool
  | [] => true
  | e :: rest => soundAt columns row pos neg e && soundArgs columns row pos neg rest

end

section
-- the equations of the two translations are made here, once for all the lemmas that unfold them
attribute [local simp] soundAt compileExpression
end

def shown (v : JsValue) : Option SqlValue := (toSqliteValue v).map SqliteValue.bind

def valueClass : JsValue → Option ValueClass
  | .bool _ => some .truth
  | .num _ => some .number
  | .str _ => some .text
  | _ => none

variable {v : JsValue}

lemma number_of_class (h : valueClass v = some .number) : ∃ q, v = .num q := by
  cases v <;> first | exact ⟨_, rfl⟩ | cases h

lemma text_of_class (h : valueClass v = some .text) : ∃ s, v = .str s := by
  cases v <;> first | exact ⟨_, rfl⟩ | cases h

variable {x : ValueClass}

lemma shown_inj {v w : JsValue} (hv : valueClass v = some x)
    (hw : valueClass w = some x) {a b : SqlValue} (ha : shown v = some a) (hb : shown w = some b) :
    v = w ↔ a = b := by
  cases v <;> simp only [valueClass, reduceCtorEq, Option.some.injEq] at hv
  all_goals subst hv
  all_goals cases w <;> simp only [valueClass, reduceCtorEq, Option.some.injEq] at hw
  all_goals simp only [shown, toSqliteValue, map_some, SqliteValue.bind, Option.some.injEq] at ha hb
  all_goals subst ha hb
  · rename_i p q
    cases p <;> cases q <;> simp
  · simp
  · simp

lemma shown_ne_null (hv : valueClass v = some x) {a : SqlValue}
    (ha : shown v = some a) : a ≠ .null := by
  cases v <;> simp only [valueClass, reduceCtorEq] at hv
  all_goals simp only [shown, toSqliteValue, map_some, SqliteValue.bind, Option.some.injEq] at ha
  all_goals subst ha
  all_goals simp

lemma isNullish_of_class (hv : valueClass v = some x) : isNullish v = false := by
  cases v <;> first | rfl | cases hv

/-! ## Columns -/

variable {column : Column}

lemma column?_spec {columns : Columns} {path : List String}
    (h : columns.column? path = some column) :
    path = [column.property] ∧ columns.get? column.property = some column ∧
      column ∈ columns.list := by
  unfold Columns.column? Columns.get? at h
  split at h
  · rename_i property
    have hp : column.property = property := by simpa using find?_some h
    subst hp
    exact ⟨rfl, h, mem_of_find?_eq_some h⟩
  · cases h

lemma find_name {columns : Columns} (h : column ∈ columns.list) :
    columns.list.find? (fun c => decide (c.column = column.column)) = some column := by
  have hnodup := columns.names
  revert h hnodup
  induction columns.list with
  | nil => simp
  | cons c rest ih =>
  intro h hnodup
  rw [map_cons, nodup_cons] at hnodup
  rw [find?_cons]
  rcases mem_cons.mp h with rfl | hrest
  · simp
  have hne : c.column ≠ column.column :=
    fun heq => hnodup.1 (heq ▸ mem_map_of_mem hrest)
  rw [decide_eq_false hne]
  exact ih hrest hnodup.2

variable {e : SqliteValue}

lemma encodeColumn_eq {row : Row} (h : column.encodeColumn row = some e) :
    column.encodeExpressionValue (row column.property) = some e := by
  unfold Column.encodeColumn at h
  simp only at h
  split at h
  · cases h
  · split at h
    · cases h
    · exact h

lemma storageValue_cases {raw e : SqliteValue} (h : column.storageValue raw = some e) :
    e = .null ∨ (column.type = .text ∧ ∃ s, e = .str s) ∨
      (column.type ≠ .text ∧ ∃ q, e = .num q) := by
  unfold Column.storageValue at h
  split at h
  · cases h
    exact .inl rfl
  · rename_i s htype
    cases h
    exact .inr (.inl ⟨htype, s, rfl⟩)
  · cases h
  · rename_i b hb
    cases h
    exact .inr (.inr ⟨hb, _, rfl⟩)
  · rename_i q hq
    split at h
    · cases h
      exact .inr (.inr ⟨by rw [hq]; decide, q, rfl⟩)
    · cases h
  · rename_i q hq
    cases h
    exact .inr (.inr ⟨by rw [hq]; decide, q, rfl⟩)
  · cases h

lemma encodeExpressionValue_cases (h : column.encodeExpressionValue v = some e) :
    e = .null ∨ (column.type = .text ∧ ∃ s, e = .str s) ∨
      (column.type ≠ .text ∧ ∃ q, e = .num q) := by
  unfold Column.encodeExpressionValue at h
  split at h
  · cases h
  split at h
  · exact storageValue_cases h
  · obtain ⟨raw, -, h⟩ := bind_eq_some_iff.mp h
    exact storageValue_cases h

lemma cell_spec {columns : Columns} {row : Row} (haccepts : columns.accepts row)
    (hmem : column ∈ columns.list) :
    columns.affinity column.column = column.affinity ∧
      ∃ e, column.encodeExpressionValue (row column.property) = some e ∧
        columns.cell row column.column = some e.bind := by
  obtain ⟨e, he⟩ := Option.isSome_iff_exists.mp (haccepts column hmem)
  refine ⟨?_, e, encodeColumn_eq he, ?_⟩
  · simp only [Columns.affinity, find_name hmem]
  · simp [Columns.cell, find_name hmem, he]

/-! ## Comparisons -/

/-- An affinity that changes no value of the class. -/
def Affinity.Suits (affinity : Affinity) (x : ValueClass) : Prop :=
  affinity = .none ∨ (affinity = .numeric ∧ x = .number) ∨ (affinity = .text ∧ x = .text)

lemma adjusted_null (conv : Conversions) (other own : Affinity) :
    adjusted conv other own .null = .null := by
  unfold adjusted
  split
  · rfl
  · split <;> rfl

lemma adjusted_of_suits (conv : Conversions) {other : Affinity} (own : Affinity)
    {w : SqlValue} (hclass : valueClass v = some x) (hshown : shown v = some w)
    (hsuits : other.Suits x) : adjusted conv other own w = w := by
  rcases hsuits with rfl | ⟨rfl, rfl⟩ | ⟨rfl, rfl⟩
  · simp [adjusted]
  · obtain ⟨q, rfl⟩ := number_of_class hclass
    have hw : w = .num q := (Option.some.inj hshown).symm
    subst hw
    simp [adjusted, toNumeric]
  obtain ⟨s, rfl⟩ := text_of_class hclass
  have hw : w = .text s := (Option.some.inj hshown).symm
  subst hw
  simp [adjusted, toText]

section Comparisons

variable (conv : Conversions) (localeCompare : JsResult → JsResult → Int)

lemma compareSql_null_left (c : Comparison) (b : SqlValue) : compareSql conv c .null b = .null := by
  simp [compareSql]

lemma compareSql_null_right (c : Comparison) (a : SqlValue) :
    compareSql conv c a .null = .null := by
  simp [compareSql]

lemma compareValues_num (p q : ℚ) :
    (compareValues localeCompare (.scalar (.num p)) (.scalar (.num q)) < 0 ↔ p < q) ∧
      (0 < compareValues localeCompare (.scalar (.num p)) (.scalar (.num q)) ↔ q < p) := by
  simp only [compareValues]
  split
  · rename_i h
    exact ⟨by simpa using h, by simpa using h.le⟩
  split
  · rename_i h
    exact ⟨by simpa using h.le, by simpa using h⟩
  · rename_i h h'
    exact ⟨by simpa using h, by simpa using h'⟩

/-- Two values of one class are compared alike, texts and truth values for equality only. -/
lemma compare_agree {c : Comparison} {v w : JsValue} {x : ValueClass} {a b : SqlValue}
    (hv : valueClass v = some x) (hw : valueClass w = some x) (ha : shown v = some a)
    (hb : shown w = some b) (hrange : c.isRange = true → x = .number) :
    compareSql conv c a b = ofBool (compareHot localeCompare c (.scalar v) (.scalar w)) := by
  have hna : a ≠ .null := shown_ne_null hv ha
  have hnb : b ≠ .null := shown_ne_null hw hb
  have hinj := shown_inj hv hw ha hb
  have hnum : c.isRange = true → ∃ p q, v = .num p ∧ w = .num q ∧ a = .num p ∧ b = .num q := by
    intro h
    have hx := hrange h
    subst hx
    obtain ⟨p, rfl⟩ := number_of_class hv
    obtain ⟨q, rfl⟩ := number_of_class hw
    exact ⟨p, q, rfl, rfl, (Option.some.inj ha).symm, (Option.some.inj hb).symm⟩
  unfold compareSql
  rw [if_neg (by simp [hna, hnb])]
  cases c with
  | eq => simp only [compareHot, strictEq, hinj]
  | ne => simp only [compareHot, strictEq, hinj, decide_not]
  | gt =>
    obtain ⟨p, q, rfl, rfl, rfl, rfl⟩ := hnum rfl
    simp only [compareHot, less, (compareValues_num localeCompare p q).2]
  | gte =>
    obtain ⟨p, q, rfl, rfl, rfl, rfl⟩ := hnum rfl
    have h := (compareValues_num localeCompare p q).1
    simp only [compareHot, less, ← decide_not, ← not_lt, h]
  | lt =>
    obtain ⟨p, q, rfl, rfl, rfl, rfl⟩ := hnum rfl
    simp only [compareHot, less, (compareValues_num localeCompare p q).1]
  | lte =>
  obtain ⟨p, q, rfl, rfl, rfl, rfl⟩ := hnum rfl
  have h := (compareValues_num localeCompare p q).2
  simp only [compareHot, less, ← decide_not, ← not_lt, h]

end Comparisons

/-! ## Operands -/

structure Shows (v : JsValue) (x : Option ValueClass) (affinity : Affinity) (w : SqlValue) :
    Prop where
  shown : shown v = some w
  class_or_null : v = .null ∨ ∃ y, x = some y ∧ valueClass v = some y ∧ affinity.Suits y

lemma Shows.null_iff {x : Option ValueClass} {affinity : Affinity} {w : SqlValue}
    (h : Shows v x affinity w) : v = .null ↔ w = .null := by
  rcases h.class_or_null with rfl | ⟨y, -, hy, -⟩
  · have hw : some SqlValue.null = some w := h.shown
    simp [(Option.some.inj hw).symm]
  have hne := shown_ne_null hy h.shown
  constructor
  · rintro rfl
    cases hy
  · exact fun hw => absurd hw hne

def hotCompare (localeCompare : JsResult → JsResult → Int) (c : Comparison) (v w : JsValue) :
    Option Bool :=
  if isNullish v || isNullish w then none
  else some (compareHot localeCompare c (.scalar v) (.scalar w))

lemma Shows.compare (conv : Conversions) (localeCompare : JsResult → JsResult → Int)
    {c : Comparison} {v w : JsValue} {x y : Option ValueClass} {aff bff : Affinity}
    {a b : SqlValue} (hv : Shows v x aff a) (hw : Shows w y bff b)
    (hmatch : classesMatch c x y = true) :
    compareSql conv c (adjusted conv bff aff a) (adjusted conv aff bff b) =
      ofTruth (hotCompare localeCompare c v w) := by
  rcases hv.class_or_null with rfl | ⟨p, rfl, hp, hap⟩
  · have ha := (hv.null_iff).mp rfl
    rw [ha, adjusted_null, compareSql_null_left]
    rfl
  rcases hw.class_or_null with rfl | ⟨q, rfl, hq, haq⟩
  · have hb := (hw.null_iff).mp rfl
    rw [hb, adjusted_null, compareSql_null_right, hotCompare, isNullish_of_class hp]
    rfl
  have hpq : p = q ∧ (c.isRange = true → p = .number) := by
    simp only [classesMatch, and_eq_true, decide_eq_true_eq, or_eq_true, not_eq_true'] at hmatch
    refine ⟨hmatch.1, fun hr => ?_⟩
    rcases hmatch.2 with h | h
    · rw [hr] at h
      cases h
    · exact h
  obtain ⟨rfl, hrange⟩ := hpq
  rw [adjusted_of_suits conv aff hp hv.shown haq, adjusted_of_suits conv bff hq hw.shown hap,
    compare_agree conv localeCompare hp hq hv.shown hw.shown hrange, hotCompare,
    isNullish_of_class hp, isNullish_of_class hq]
  rfl

/-! ## Truth values -/

/-- The two truth values of an expression, as far as it matters. -/
structure Agrees (pos neg : Bool) (t s : Option Bool) : Prop where
  pos : pos = true → (t = some true ↔ s = some true)
  neg : neg = true → (t = some false ↔ s = some false)

lemma Agrees.refl (pos neg : Bool) (t : Option Bool) : Agrees pos neg t t :=
  ⟨fun _ => Iff.rfl, fun _ => Iff.rfl⟩

variable {t s : Option Bool}

lemma Agrees.eq (h : Agrees true true t s) : t = s := by
  have hp := h.pos rfl
  have hn := h.neg rfl
  match t, s with
  | none, none => rfl
  | some true, s => exact (hp.mp rfl).symm
  | some false, s => exact (hn.mp rfl).symm
  | none, some true => exact hp.mpr rfl
  | none, some false => exact hn.mpr rfl

lemma Agrees.not {pos neg : Bool} (h : Agrees neg pos t s) :
    Agrees pos neg (t.map (!·)) (s.map (!·)) := by
  constructor
  · intro hpos
    have := h.neg hpos
    simpa using this
  · intro hneg
    have := h.pos hneg
    simpa using this

lemma andTruth_true (ts : List (Option Bool)) :
    andTruth ts = some true ↔ ∀ t ∈ ts, t = some true := by
  unfold andTruth
  by_cases hf : some false ∈ ts
  · rw [if_pos hf]
    simp only [Option.some.injEq, false_eq_true, false_iff]
    intro h
    cases h _ hf
  rw [if_neg hf]
  by_cases hn : none ∈ ts
  · rw [if_pos hn]
    simp only [reduceCtorEq, false_iff]
    intro h
    cases h _ hn
  rw [if_neg hn]
  refine ⟨fun _ t ht => ?_, fun _ => rfl⟩
  match t with
  | none => exact absurd ht hn
  | some false => exact absurd ht hf
  | some true => rfl

lemma andTruth_false (ts : List (Option Bool)) : andTruth ts = some false ↔ some false ∈ ts := by
  unfold andTruth
  by_cases hf : some false ∈ ts
  · simp [hf]
  · by_cases hn : none ∈ ts <;> simp [hf, hn]

lemma orTruth_true (ts : List (Option Bool)) : orTruth ts = some true ↔ some true ∈ ts := by
  unfold orTruth
  by_cases hf : some true ∈ ts
  · simp [hf]
  · by_cases hn : none ∈ ts <;> simp [hf, hn]

lemma orTruth_false (ts : List (Option Bool)) :
    orTruth ts = some false ↔ ∀ t ∈ ts, t = some false := by
  unfold orTruth
  by_cases hf : some true ∈ ts
  · rw [if_pos hf]
    simp only [Option.some.injEq, true_eq_false, false_iff]
    intro h
    cases h _ hf
  rw [if_neg hf]
  by_cases hn : none ∈ ts
  · rw [if_pos hn]
    simp only [reduceCtorEq, false_iff]
    intro h
    cases h _ hn
  rw [if_neg hn]
  refine ⟨fun _ t ht => ?_, fun _ => rfl⟩
  match t with
  | none => exact absurd ht hn
  | some true => exact absurd ht hf
  | some false => rfl

section Pointwise

variable {pos neg : Bool} {ts ss : List (Option Bool)} {P Q : Option Bool → Prop}

lemma forall_iff_of_pointwise
    (h : List.Forall₂ (fun t s => P t ↔ Q s) ts ss) : (∀ t ∈ ts, P t) ↔ ∀ s ∈ ss, Q s := by
  induction h with
  | nil => simp
  | cons hp _ ih => simp [hp, ih]

lemma exists_iff_of_pointwise
    (h : List.Forall₂ (fun t s => P t ↔ Q s) ts ss) : (∃ t ∈ ts, P t) ↔ ∃ s ∈ ss, Q s := by
  induction h with
  | nil => simp
  | cons hp _ ih => simp [hp, ih]

lemma mem_iff_of_pointwise {a : Option Bool}
    (h : List.Forall₂ (fun t s => t = a ↔ s = a) ts ss) : a ∈ ts ↔ a ∈ ss := by
  have := exists_iff_of_pointwise h
  simpa using this

lemma Agrees.andTruth (h : List.Forall₂ (Agrees pos neg) ts ss) :
    Agrees pos neg (andTruth ts) (andTruth ss) := by
  constructor
  · intro hpos
    rw [andTruth_true, andTruth_true]
    exact forall_iff_of_pointwise (h.imp fun t s hts => hts.pos hpos)
  · intro hneg
    rw [andTruth_false, andTruth_false]
    exact mem_iff_of_pointwise (h.imp fun t s hts => hts.neg hneg)

lemma Agrees.orTruth (h : List.Forall₂ (Agrees pos neg) ts ss) :
    Agrees pos neg (orTruth ts) (orTruth ss) := by
  constructor
  · intro hpos
    rw [orTruth_true, orTruth_true]
    exact mem_iff_of_pointwise (h.imp fun t s hts => hts.pos hpos)
  · intro hneg
    rw [orTruth_false, orTruth_false]
    exact forall_iff_of_pointwise (h.imp fun t s hts => hts.neg hneg)

end Pointwise

section Connectives

variable (localeCompare : JsResult → JsResult → Int) (matchesPattern : String → String → Bool)

variable (ts : List (Option Bool))

end Connectives

/-! ## Bound parameters -/

/-- The parameters of a compiled text are bound from the position on. -/
def Bound (params : List SqliteValue) (k : Nat) (ps : List SqliteValue) : Prop :=
  ∃ after, params.drop k = ps ++ after

section Bound

variable {params ps qs : List SqliteValue} {k : Nat}

lemma Bound.left (h : Bound params k (ps ++ qs)) : Bound params k ps := by
  obtain ⟨after, h⟩ := h
  exact ⟨qs ++ after, by rw [h, append_assoc]⟩

lemma Bound.right (h : Bound params k (ps ++ qs)) : Bound params (k + ps.length) qs := by
  obtain ⟨after, h⟩ := h
  refine ⟨after, ?_⟩
  rw [← drop_drop, h, append_assoc, drop_left]

lemma Bound.head {p : SqliteValue} (h : Bound params k [p]) : params[k]? = some p := by
  obtain ⟨after, h⟩ := h
  have h0 : (params.drop k)[0]? = some p := by rw [h]; rfl
  rwa [getElem?_drop, Nat.add_zero] at h0

lemma Bound.all (h : Bound params k ps) :
    boundParams params k ps.length = ps.map SqliteValue.bind := by
  obtain ⟨after, h⟩ := h
  rw [boundParams, h, take_left]

end Bound

/-! ## Both readings of an expression -/

section Readings

variable (conv : Conversions) (localeCompare : JsResult → JsResult → Int)
  (matchesPattern : String → String → Bool) (columns : Columns) (row : Row)
  (params : List SqliteValue)

variable {conv localeCompare matchesPattern columns row params}

variable {path : List String} {column : Column}

variable {name : String} {ps : List SqliteValue}

variable {a b : Expr} {literal : Expr}

variable {refFirst : Bool}

variable {c : Comparison}

variable {op : Operator}

end Readings

/-! ### Memberships -/

lemma mapM_forall₂ {α β : Type*} {f : α → Option β} {as : List α} {bs : List β}
    (h : as.mapM f = some bs) : List.Forall₂ (fun a b => f a = some b) as bs := by
  induction as generalizing bs with
  | nil =>
    cases h
    exact .nil
  | cons a as ih =>
  rw [mapM_cons] at h
  obtain ⟨b, hb, h⟩ := bind_eq_some_iff.mp h
  obtain ⟨bs', hbs, heq⟩ := bind_eq_some_iff.mp h
  cases heq
  exact .cons hb (ih hbs)

variable {us : List JsValue}

section Readings

variable {conv : Conversions} {localeCompare : JsResult → JsResult → Int}
  {matchesPattern : String → String → Bool} {columns : Columns} {row : Row}
  {params : List SqliteValue}

variable {name : String} {pos neg : Bool} {k : Nat} {ps : List SqliteValue} {sql : Sql}

variable {vs : List JsValue}

variable {a : Expr}

variable {args : List Expr}

variable (conv localeCompare matchesPattern params)

variable {params}

end Readings

/-! ### Fixed inputs -/

end CodeWide.Sqlite
