import Mathlib.Data.Rat.Defs
import Mathlib.Algebra.Order.Ring.Rat
import Mathlib.Data.List.Basic

/-!
# The two predicates of the SQLite sync runtime

A `where` expression is compiled to SQL, and is evaluated on the row itself for the hot collection.
-/

namespace CodeWide.Sqlite

inductive JsValue where
  | null
  | undefined
  | bool (b : Bool)
  | num (q : ℚ)
  | nonFinite (n : Nat)
  | str (s : String)
  | buffer (n : Nat)
  | object (n : Nat)
deriving DecidableEq, Inhabited

inductive SqliteValue where
  | null
  | bool (b : Bool)
  | num (q : ℚ)
  | nonFinite (n : Nat)
  | str (s : String)
  | buffer (n : Nat)
deriving DecidableEq

def SqliteValue.toJs : SqliteValue → JsValue
  | .null => .null
  | .bool b => .bool b
  | .num q => .num q
  | .nonFinite n => .nonFinite n
  | .str s => .str s
  | .buffer n => .buffer n

def isNullish : JsValue → Bool
  | .null => true
  | .undefined => true
  | _ => false

def toSqliteValue : JsValue → Option SqliteValue
  | .null => some .null
  | .bool b => some (.bool b)
  | .num q => some (.num q)
  | .nonFinite n => some (.nonFinite n)
  | .str s => some (.str s)
  | .buffer n => some (.buffer n)
  | .undefined => none
  | .object _ => none

inductive ColumnType where
  | text
  | integer
  | real
deriving DecidableEq

structure Column where
  property : String
  column : String
  type : ColumnType
  nullable : Bool
  encode : Option (JsValue → SqliteValue)

def Column.storageValue (column : Column) (encoded : SqliteValue) : Option SqliteValue :=
  match encoded, column.type with
  | .null, _ => some .null
  | .str s, .text => some (.str s)
  | _, .text => none
  | .bool b, _ => some (.num (if b then 1 else 0))
  | .num q, .integer => if q.isInt then some (.num q) else none
  | .num q, .real => some (.num q)
  | _, _ => none

def Column.encodeExpressionValue (column : Column) (value : JsValue) : Option SqliteValue :=
  if value = .undefined then none
  else
    match column.encode with
    | some encode => column.storageValue (encode value)
    | none => (toSqliteValue value).bind column.storageValue

structure Columns where
  list : List Column
  properties : (list.map Column.property).Nodup
  names : (list.map Column.column).Nodup

def Columns.get? (columns : Columns) (property : String) : Option Column :=
  columns.list.find? (fun column => decide (column.property = property))

abbrev Row := String → JsValue

def Column.encodeColumn (column : Column) (row : Row) : Option SqliteValue :=
  let value := row column.property
  if value = .undefined then none
  else if value = .null ∧ column.nullable = false then none
  else column.encodeExpressionValue value

/-- `validateQueryableColumns` does not throw. -/
def Columns.accepts (columns : Columns) (row : Row) : Prop :=
  ∀ column ∈ columns.list, (column.encodeColumn row).isSome = true

inductive Expr where
  | ref (path : List String)
  | val (value : JsValue)
  | list (values : List JsValue)
  | func (name : String) (args : List Expr)

lemma Expr.induction {P : Expr → Prop} (href : ∀ path, P (.ref path))
    (hval : ∀ value, P (.val value)) (hlist : ∀ values, P (.list values))
    (hfunc : ∀ name args, (∀ e ∈ args, P e) → P (.func name args)) (e : Expr) : P e := by
  refine @Expr.rec P (fun args => ∀ e ∈ args, P e) href hval hlist hfunc ?_ ?_ e
  · intro a h
    cases h
  intro a rest ha hrest x hx
  rcases List.mem_cons.mp hx with rfl | hx
  · exact ha
  · exact hrest x hx

def Expr.isRef : Expr → Bool
  | .ref _ => true
  | _ => false

def Expr.isVal : Expr → Bool
  | .val _ => true
  | .list _ => true
  | _ => false

inductive Comparison where
  | eq
  | ne
  | gt
  | gte
  | lt
  | lte

def Comparison.ofName : String → Option Comparison
  | "eq" => some .eq
  | "ne" => some .ne
  | "gt" => some .gt
  | "gte" => some .gte
  | "lt" => some .lt
  | "lte" => some .lte
  | _ => none

def Comparison.isRange : Comparison → Bool
  | .eq => false
  | .ne => false
  | _ => true

inductive Operator where
  | comparison (c : Comparison)
  | in
  | and
  | or
  | not
  | isNull
  | isUndefined
  | like

def Operator.ofName (name : String) : Option Operator :=
  match Comparison.ofName name with
  | some c => some (.comparison c)
  | none =>
    match name with
    | "in" => some .in
    | "and" => some .and
    | "or" => some .or
    | "not" => some .not
    | "isNull" => some .isNull
    | "isUndefined" => some .isUndefined
    | "like" => some .like
    | _ => none

inductive Sql where
  | column (name : String)
  | param (k : Nat)
  | params (k len : Nat)
  | emptySelect
  /-- A constant of an empty conjunction or disjunction. -/
  | constant (b : Bool)
  | compare (c : Comparison) (a b : Sql)
  | in (a b : Sql)
  | and (args : List Sql)
  | or (args : List Sql)
  | not (a : Sql)
  | isNull (a : Sql)

/-- The compiled text and the parameters it added to those before. -/
abbrev Compiled := Sql × List SqliteValue

def Columns.column? (columns : Columns) : List String → Option Column
  | [property] => columns.get? property
  | _ => none

def compileLiteral (encode : JsValue → Option SqliteValue) (k : Nat) : Expr → Option Compiled
  | .val value => do
    let encoded ← encode value
    some (.param k, [encoded])
  | .list [] => some (.emptySelect, [])
  | .list values => do
    let encoded ← values.mapM encode
    some (.params k values.length, encoded)
  | _ => none

def columnValuePair (left right : Expr) : Option (List String × Expr × Bool) :=
  match left, right with
  | .ref path, right => if right.isVal then some (path, right, true) else none
  | left, .ref path => if left.isVal then some (path, left, false) else none
  | _, _ => none

def compileColumnValuePair (columns : Columns) (path : List String) (literal : Expr) (k : Nat)
    (refFirst : Bool) : Option (Sql × Sql × List SqliteValue) := do
  let column ← columns.column? path
  let (encoded, params) ← compileLiteral column.encodeExpressionValue k literal
  if refFirst then some (.column column.column, encoded, params)
  else some (encoded, .column column.column, params)

mutual

def allowsRange (columns : Columns) : Expr → Bool
  | .val _ => true
  | .list _ => true
  | .ref path =>
    match columns.column? path with
    | some column => decide (column.type ≠ .text)
    | none => false
  | .func _ args => allowsRanges columns args

def allowsRanges (columns : Columns) : List Expr → Bool
  | [] => true
  | e :: rest => allowsRange columns e && allowsRanges columns rest

end

def hasNullish : Expr → Bool
  | .list values => values.any isNullish
  | _ => false

mutual

def compileExpression (columns : Columns) (k : Nat) : Expr → Option Compiled
  | .ref path => (columns.column? path).map (fun column => (.column column.column, []))
  | .val value => compileLiteral toSqliteValue k (.val value)
  | .list values => compileLiteral toSqliteValue k (.list values)
  | .func name args =>
    match Operator.ofName name, args with
    | some (.comparison c), [a, b] =>
      if c.isRange && !(allowsRange columns a && allowsRange columns b) then none
      else
        match columnValuePair a b with
        | some (path, literal, refFirst) => do
          let (left, right, params) ← compileColumnValuePair columns path literal k refFirst
          some (.compare c left right, params)
        | none => do
          let (left, ps) ← compileExpression columns k a
          let (right, qs) ← compileExpression columns (k + ps.length) b
          some (.compare c left right, ps ++ qs)
    | some .in, [a, b] =>
      if hasNullish b then none
      else
        match columnValuePair a b with
        | some (path, literal, refFirst) => do
          let (left, right, params) ← compileColumnValuePair columns path literal k refFirst
          some (.in left right, params)
        | none => do
          let (left, ps) ← compileExpression columns k a
          let (right, qs) ← compileExpression columns (k + ps.length) b
          some (.in left right, ps ++ qs)
    | some .and, [] => some (.constant true, [])
    | some .or, [] => some (.constant false, [])
    | some .and, args => do
      let (sqls, params) ← compileArgs columns k args
      some (.and sqls, params)
    | some .or, args => do
      let (sqls, params) ← compileArgs columns k args
      some (.or sqls, params)
    | some .not, [a] => do
      let (sql, params) ← compileExpression columns k a
      some (.not sql, params)
    | some .isNull, [a] => do
      let (sql, params) ← compileExpression columns k a
      some (.isNull sql, params)
    | _, _ => none

def compileArgs (columns : Columns) (k : Nat) : List Expr → Option (List Sql × List SqliteValue)
  | [] => some ([], [])
  | e :: rest => do
    let (sql, ps) ← compileExpression columns k e
    let (sqls, qs) ← compileArgs columns (k + ps.length) rest
    some (sql :: sqls, ps ++ qs)

end

inductive SqlValue where
  | null
  | num (q : ℚ)
  | nonFinite (n : Nat)
  | text (s : String)
  | blob (n : Nat)
deriving DecidableEq

def SqliteValue.bind : SqliteValue → SqlValue
  | .null => .null
  | .bool b => .num (if b then 1 else 0)
  | .num q => .num q
  | .nonFinite n => .nonFinite n
  | .str s => .text s
  | .buffer n => .blob n

structure Conversions where
  /-- Numeric affinity: a text that is a number becomes one. -/
  numeric : String → Option ℚ
  leading : String → ℚ
  text : ℚ → String
  /-- The order of two texts, and of other values of one class. -/
  less : SqlValue → SqlValue → Bool

inductive Affinity where
  | none
  | numeric
  | text
deriving DecidableEq

section Evaluation

variable (conv : Conversions)

def toNumeric : SqlValue → SqlValue
  | .text s => match conv.numeric s with
    | some q => .num q
    | none => .text s
  | v => v

def toText : SqlValue → SqlValue
  | .num q => .text (conv.text q)
  | v => v

def adjusted (other own : Affinity) (v : SqlValue) : SqlValue :=
  if other = .numeric ∧ own ≠ .numeric then toNumeric conv v
  else if other = .text ∧ own = .none then toText conv v
  else v

def less (a b : SqlValue) : Bool :=
  match a, b with
  | .num p, .num q => decide (p < q)
  | .num _, .text _ => true
  | .num _, .blob _ => true
  | .text _, .num _ => false
  | .blob _, .num _ => false
  | a, b => conv.less a b

def ofBool (b : Bool) : SqlValue := .num (if b then 1 else 0)

def compareSql (c : Comparison) (a b : SqlValue) : SqlValue :=
  if a = .null ∨ b = .null then .null
  else
    match c with
    | .eq => ofBool (decide (a = b))
    | .ne => ofBool (decide (a ≠ b))
    | .gt => ofBool (less conv b a)
    | .gte => ofBool (!less conv a b)
    | .lt => ofBool (less conv a b)
    | .lte => ofBool (!less conv b a)

def truth : SqlValue → Option Bool
  | .null => none
  | .num q => some (decide (q ≠ 0))
  | .nonFinite _ => some true
  | .text s => some (decide (conv.leading s ≠ 0))
  | .blob _ => some false

def ofTruth : Option Bool → SqlValue
  | some b => ofBool b
  | none => .null

def andTruth : List (Option Bool) → Option Bool
  | vs => if some false ∈ vs then some false else if none ∈ vs then none else some true

def orTruth : List (Option Bool) → Option Bool
  | vs => if some true ∈ vs then some true else if none ∈ vs then none else some false

def inSql (affinity : Affinity) (a : SqlValue) (vs : List SqlValue) : SqlValue :=
  if vs = [] then ofBool false
  else ofTruth (orTruth (vs.map (fun v => truth conv (compareSql conv .eq a (adjusted conv affinity .none v)))))

variable (types : String → Affinity) (cells : String → Option SqlValue) (params : List SqliteValue)

def Sql.affinity : Sql → Affinity
  | .column name => types name
  | _ => .none

def boundParams (k len : Nat) : List SqlValue := ((params.drop k).take len).map SqliteValue.bind

mutual

def Sql.eval : Sql → Option SqlValue
  | .column name => cells name
  | .param k => (params[k]?).map SqliteValue.bind
  | .params k len => if len = 1 then (params[k]?).map SqliteValue.bind else none
  | .emptySelect => some .null
  | .constant b => some (ofBool b)
  | .compare c a b => do
    let x ← a.eval
    let y ← b.eval
    let affA := a.affinity types
    let affB := b.affinity types
    some (compareSql conv c (adjusted conv affB affA x) (adjusted conv affA affB y))
  | .in a b => do
    let x ← a.eval
    match b with
    | .params k len => some (inSql conv (a.affinity types) x (boundParams params k len))
    | .emptySelect => some (ofBool false)
    | .column _ => none
    | .param _ => none
    | .constant _ => none
    | b => do
      let y ← b.eval
      some (inSql conv (a.affinity types) x [y])
  | .and args => do
    let vs ← evalArgs args
    some (ofTruth (andTruth (vs.map (truth conv))))
  | .or args => do
    let vs ← evalArgs args
    some (ofTruth (orTruth (vs.map (truth conv))))
  | .not a => do
    let x ← a.eval
    some (ofTruth ((truth conv x).map (!·)))
  | .isNull a => do
    let x ← a.eval
    some (ofBool (decide (x = .null)))

def evalArgs : List Sql → Option (List SqlValue)
  | [] => some []
  | sql :: rest => do
    let x ← sql.eval
    let xs ← evalArgs rest
    some (x :: xs)

end

end Evaluation

def Column.affinity (column : Column) : Affinity :=
  if column.type = .text then .text else .numeric

def Columns.affinity (columns : Columns) (name : String) : Affinity :=
  match columns.list.find? (fun column => decide (column.column = name)) with
  | some column => column.affinity
  | none => .none

def Columns.cell (columns : Columns) (row : Row) (name : String) : Option SqlValue := do
  let column ← columns.list.find? (fun column => decide (column.column = name))
  let encoded ← column.encodeColumn row
  some encoded.bind

inductive JsResult where
  | scalar (v : JsValue)
  | list (vs : List JsValue)
deriving DecidableEq

def JsResult.isNullish : JsResult → Bool
  | .scalar v => Sqlite.isNullish v
  | .list _ => false

def strictEq : JsResult → JsResult → Bool
  | .scalar v, .scalar w => decide (v = w)
  | _, _ => false

-- The sign of `String(left).localeCompare(String(right))`.
variable (localeCompare : JsResult → JsResult → Int)

def compareValues (a b : JsResult) : Int :=
  match a, b with
  | .scalar (.num p), .scalar (.num q) => if p < q then -1 else if q < p then 1 else 0
  | a, b => localeCompare a b

def compareHot (c : Comparison) (a b : JsResult) : Bool :=
  match c with
  | .eq => strictEq a b
  | .ne => !strictEq a b
  | .gt => decide (0 < compareValues localeCompare a b)
  | .gte => decide (0 ≤ compareValues localeCompare a b)
  | .lt => decide (compareValues localeCompare a b < 0)
  | .lte => decide (compareValues localeCompare a b ≤ 0)

def isFalsy : JsResult → Bool
  | .scalar .null => true
  | .scalar .undefined => true
  | .scalar (.bool b) => !b
  | .scalar (.num q) => decide (q = 0)
  | .scalar (.str s) => decide (s = "")
  | _ => false

def encodeResult (column : Column) : JsResult → Option JsResult
  | .scalar v => (column.encodeExpressionValue v).map (fun e => .scalar e.toJs)
  | .list vs => (vs.mapM column.encodeExpressionValue).map (fun es => .list (es.map SqliteValue.toJs))

/-- The literal of a call with two arguments is encoded as the reference is. -/
def encodePair (columns : Columns) (args : List Expr) (values : List JsResult) :
    Option (List JsResult) :=
  match args, values with
  | [a, b], [v, w] =>
    match columnValuePair a b with
    | some (path, _, refFirst) => do
      let property ← path.getLast?
      let column ← columns.get? property
      if refFirst then
        let w ← encodeResult column w
        some [v, w]
      else
        let v ← encodeResult column v
        some [v, w]
    | none => some values
  | _, _ => some values

-- `like` is never compiled, so its pattern match is a parameter.
variable (matchesPattern : String → String → Bool)

def applyOperator (op : Operator) (values : List JsResult) : JsResult :=
  let first := values.getD 0 (.scalar .undefined)
  let second := values.getD 1 (.scalar .undefined)
  match op with
  | .comparison c =>
    if values.any JsResult.isNullish then .scalar .null
    else .scalar (.bool (compareHot localeCompare c first second))
  | .in =>
    if first.isNullish then .scalar .null
    else
      match first, second with
      | .scalar v, .list vs => .scalar (.bool (decide (v ∈ vs)))
      | _, _ => .scalar (.bool false)
  | .and =>
    if .scalar (.bool false) ∈ values then .scalar (.bool false)
    else if values.any JsResult.isNullish then .scalar .null
    else .scalar (.bool true)
  | .or =>
    if .scalar (.bool true) ∈ values then .scalar (.bool true)
    else if values.any JsResult.isNullish then .scalar .null
    else .scalar (.bool false)
  | .not => if first.isNullish then .scalar .null else .scalar (.bool (isFalsy first))
  | .isNull => .scalar (.bool (decide (first = .scalar .null)))
  | .isUndefined => .scalar (.bool (decide (first = .scalar .undefined)))
  | .like =>
    if values.any JsResult.isNullish then .scalar .null
    else
      match first, second with
      | .scalar (.str s), .scalar (.str pattern) => .scalar (.bool (matchesPattern pattern s))
      | _, _ => .scalar (.bool false)

mutual

def evaluateExpression (columns : Columns) (row : Row) : Expr → Option JsResult
  | .ref path =>
    match path.getLast? with
    | none => some (.scalar .undefined)
    | some property => do
      let column ← columns.get? property
      let encoded ← column.encodeExpressionValue (row property)
      some (.scalar encoded.toJs)
  | .val value => some (.scalar value)
  | .list values => some (.list values)
  | .func name args => do
    let values ← evaluateArgs columns row args
    let values ← encodePair columns args values
    let op ← Operator.ofName name
    some (applyOperator localeCompare matchesPattern op values)

def evaluateArgs (columns : Columns) (row : Row) : List Expr → Option (List JsResult)
  | [] => some []
  | e :: rest => do
    let v ← evaluateExpression columns row e
    let vs ← evaluateArgs columns row rest
    some (v :: vs)

end

end CodeWide.Sqlite
