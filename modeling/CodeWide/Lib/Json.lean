import CodeWide.Lib.Table
import Mathlib.Data.List.Perm.Subperm
import Mathlib.Data.String.Basic
import Mathlib.Algebra.Ring.Int.Defs

/-!
# JSON values

Objects are ordered maps, so structural equality is the library's own.
-/

namespace CodeWide.Lib

open List

inductive Json where
  | null
  | bool (b : Bool)
  | int (n : Int)
  | float (bits : UInt64)
  | str (s : String)
  | arr (items : List Json)
  | obj (fields : List (String × Json))
deriving Inhabited

namespace Json

mutual

def decEq : (a b : Json) → Decidable (a = b)
  | .null, b => by
    cases b <;> first | exact isTrue rfl | exact isFalse (by simp)
  | .bool x, b => by
    cases b with
    | bool y => exact decidable_of_iff (x = y) (by simp)
    | _ => exact isFalse (by simp)
  | .int x, b => by
    cases b with
    | int y => exact decidable_of_iff (x = y) (by simp)
    | _ => exact isFalse (by simp)
  | .float x, b => by
    cases b with
    | float y => exact decidable_of_iff (x = y) (by simp)
    | _ => exact isFalse (by simp)
  | .str x, b => by
    cases b with
    | str y => exact decidable_of_iff (x = y) (by simp)
    | _ => exact isFalse (by simp)
  | .arr x, b => by
    cases b with
    | arr y => exact @decidable_of_iff _ (x = y) (by simp) (decEqItems x y)
    | _ => exact isFalse (by simp)
  | .obj x, b => by
    cases b with
    | obj y => exact @decidable_of_iff _ (x = y) (by simp) (decEqFields x y)
    | _ => exact isFalse (by simp)

def decEqItems : (a b : List Json) → Decidable (a = b)
  | [], [] => isTrue rfl
  | [], _ :: _ => isFalse (by simp)
  | _ :: _, [] => isFalse (by simp)
  | x :: xs, y :: ys =>
    match decEq x y, decEqItems xs ys with
    | isTrue h, isTrue hs => isTrue (by rw [h, hs])
    | isFalse h, _ => isFalse (fun e => h (cons.inj e).1)
    | _, isFalse hs => isFalse (fun e => hs (cons.inj e).2)

def decEqFields : (a b : List (String × Json)) → Decidable (a = b)
  | [], [] => isTrue rfl
  | [], _ :: _ => isFalse (by simp)
  | _ :: _, [] => isFalse (by simp)
  | (k, x) :: xs, (k', y) :: ys =>
    if hk : k = k' then
      match decEq x y, decEqFields xs ys with
      | isTrue h, isTrue hs => isTrue (by rw [hk, h, hs])
      | isFalse h, _ => isFalse (fun e => h (Prod.mk.inj (cons.inj e).1).2)
      | _, isFalse hs => isFalse (fun e => hs (cons.inj e).2)
    else isFalse (fun e => hk (Prod.mk.inj (cons.inj e).1).1)

end

instance : DecidableEq Json := decEq

def asStr? : Json → Option String
  | .str s => some s
  | _ => none

def asBool? : Json → Option Bool
  | .bool b => some b
  | _ => none

/-- An integer in the range of a signed 64-bit number. -/
def asI64? : Json → Option Int
  | .int n => if -(2 ^ 63) ≤ n ∧ n < 2 ^ 63 then some n else none
  | _ => none

/-- An integer in the range of an unsigned 64-bit number. -/
def asU64? : Json → Option Nat
  | .int n => if 0 ≤ n ∧ n < 2 ^ 64 then some n.toNat else none
  | _ => none

lemma asU64?_natCast {n : Nat} (h : n < 18446744073709551616) : asU64? (.int n) = some n := by
  have hrange : (0 : Int) ≤ n ∧ (n : Int) < 2 ^ 64 := by omega
  simp only [asU64?]
  rw [if_pos hrange, Int.toNat_natCast]

def asArr? : Json → Option (List Json)
  | .arr items => some items
  | _ => none

def isNull : Json → Bool
  | .null => true
  | _ => false

def isStr (v : Json) : Bool := v.asStr?.isSome

def isObj : Json → Bool
  | .obj _ => true
  | _ => false

def lookupField (k : String) : List (String × Json) → Option Json
  | [] => none
  | (k', v) :: rest => if k = k' then some v else lookupField k rest

def insertField (k : String) (v : Json) : List (String × Json) → List (String × Json)
  | [] => [(k, v)]
  | (k', v') :: rest =>
    if k = k' then (k, v) :: rest
    else if k < k' then (k, v) :: (k', v') :: rest
    else (k', v') :: insertField k v rest

def eraseField (k : String) (fields : List (String × Json)) : List (String × Json) :=
  fields.filter (fun f => decide (f.1 ≠ k))

def get? (v : Json) (k : String) : Option Json :=
  match v with
  | .obj fields => lookupField k fields
  | _ => none

def getPath? (v : Json) : List String → Option Json
  | [] => some v
  | k :: ks => (v.get? k).bind (·.getPath? ks)

def method? (v : Json) : Option String := (v.get? "method").bind asStr?

/-- Sets a field of an object; any other value is left as it is. -/
def insert (v : Json) (k : String) (x : Json) : Json :=
  match v with
  | .obj fields => .obj (insertField k x fields)
  | v => v

def erase (v : Json) (k : String) : Json :=
  match v with
  | .obj fields => .obj (eraseField k fields)
  | v => v

/-- The object with the given fields, later ones winning. -/
def ofFields (fields : List (String × Json)) : Json :=
  fields.foldl (fun v f => v.insert f.1 f.2) (.obj [])

lemma lookupField_insertField (k k' : String) (v : Json) (l : List (String × Json)) :
    lookupField k' (insertField k v l) = if k' = k then some v else lookupField k' l := by
  induction l with
  | nil => simp [insertField, lookupField]
  | cons d rest ih =>
  obtain ⟨k₀, v₀⟩ := d
  unfold insertField
  split
  · rename_i heq
    subst heq
    by_cases h : k' = k <;> simp [lookupField, h]
  rename_i hne
  split
  · simp [lookupField]
  by_cases h : k' = k
  · subst h
    simp only [lookupField, if_neg hne, ih, if_true]
  · simp only [lookupField, ih, if_neg h]

lemma lookupField_eraseField (k k' : String) (l : List (String × Json)) :
    lookupField k' (eraseField k l) = if k' = k then none else lookupField k' l := by
  induction l with
  | nil => simp [eraseField, lookupField]
  | cons d rest ih =>
  obtain ⟨k₀, v₀⟩ := d
  unfold eraseField at ih ⊢
  by_cases h₀ : k₀ = k
  · subst h₀
    rw [filter_cons_of_neg (by simp), ih]
    by_cases h : k' = k₀ <;> simp [lookupField, h]
  rw [filter_cons_of_pos (by simpa using h₀)]
  by_cases h : k' = k₀
  · subst h
    simp [lookupField, h₀]
  · simp only [lookupField, if_neg h, ih]

@[simp] lemma isObj_insert (v : Json) (k : String) (x : Json) : (v.insert k x).isObj = v.isObj := by
  cases v <;> rfl

variable {v : Json}

lemma get?_insert (hv : v.isObj = true) (k k' : String) (x : Json) :
    (v.insert k x).get? k' = if k' = k then some x else v.get? k' := by
  cases v with
  | obj fields => exact lookupField_insertField k k' x fields
  | _ => simp [isObj] at hv

lemma get?_insert_of_ne (v : Json) {k k' : String} (x : Json) (h : k' ≠ k) :
    (v.insert k x).get? k' = v.get? k' := by
  cases v with
  | obj fields => exact (lookupField_insertField k k' x fields).trans (if_neg h)
  | _ => rfl

lemma get?_erase_of_ne (v : Json) {k k' : String} (h : k' ≠ k) :
    (v.erase k).get? k' = v.get? k' := by
  cases v with
  | obj fields => exact (lookupField_eraseField k k' fields).trans (if_neg h)
  | _ => rfl

lemma get?_ofFields (fields : List (String × Json)) (k : String) :
    (ofFields fields).get? k = lookupField k fields.reverse := by
  have happ : ∀ (l m : List (String × Json)),
      lookupField k (l ++ m) = (lookupField k l).or (lookupField k m) := by
    intro l m
    induction l with
    | nil => rfl
    | cons f rest ih =>
    rw [cons_append, lookupField, lookupField]
    split
    · rfl
    · exact ih
  have hfold : ∀ (l : List (String × Json)) (v : Json), v.isObj = true →
      (l.foldl (fun v f => v.insert f.1 f.2) v).get? k =
        (lookupField k l.reverse).or (v.get? k) := by
    intro l
    induction l with
    | nil => exact fun v _ => rfl
    | cons f rest ih =>
    intro v hv
    rw [foldl_cons, ih _ ((isObj_insert v f.1 f.2).trans hv), get?_insert hv, reverse_cons, happ]
    cases lookupField k rest.reverse with
    | some x => rfl
    | none =>
      simp only [Option.none_or, lookupField]
      split <;> rfl
  unfold ofFields
  rw [hfold fields (.obj []) rfl]
  exact Option.or_none

variable {k : String}

lemma isObj_of_get? {v x : Json} (h : v.get? k = some x) : v.isObj = true := by
  cases v with
  | obj fields => rfl
  | _ => simp [get?] at h

/-- The keys of an object ascend, as in every object the library builds. -/
def Ascending : Json → Prop
  | .obj fields => fields.Pairwise (fun a b => a.1 < b.1)
  | _ => True

lemma lookupField_eq_lookup (k : String) (l : List (String × Json)) :
    lookupField k l = Table.lookup k l := by
  induction l with
  | nil => rfl
  | cons f rest ih => rw [lookupField, Table.lookup, ih]

lemma insertField_eq_insertEntry (k : String) (v : Json) (l : List (String × Json)) :
    insertField k v l = Table.insertEntry k v l := by
  induction l with
  | nil => rfl
  | cons f rest ih =>
    unfold insertField Table.insertEntry
    rw [ih]

lemma obj_ext {l m : List (String × Json)} (hl : Ascending (.obj l)) (hm : Ascending (.obj m))
    (h : ∀ k, lookupField k l = lookupField k m) : l = m := by
  refine Table.entries_ext hl hm (fun k => ?_)
  rw [← lookupField_eq_lookup, ← lookupField_eq_lookup, h]

lemma Ascending.insert (h : v.Ascending) (k : String) (x : Json) : (v.insert k x).Ascending := by
  cases v with
  | obj fields =>
    change (insertField k x fields).Pairwise _
    rw [insertField_eq_insertEntry]
    exact Table.insertEntry_sorted k x h
  | _ => trivial

lemma ascending_ofFields (fields : List (String × Json)) : (ofFields fields).Ascending := by
  have hfold : ∀ (l : List (String × Json)) (v : Json), v.Ascending →
      (l.foldl (fun v f => v.insert f.1 f.2) v).Ascending := by
    intro l
    induction l with
    | nil => exact fun v h => h
    | cons f rest ih => exact fun v h => ih _ (h.insert f.1 f.2)
  exact hfold fields _ List.Pairwise.nil

lemma insert_of_get? {v x : Json} (hv : v.Ascending) (h : v.get? k = some x) :
    v.insert k x = v := by
  cases v with
  | obj fields =>
    refine congrArg Json.obj (obj_ext (hv.insert k x) hv (fun k' => ?_))
    rw [lookupField_insertField]
    split
    · rename_i hk
      rw [hk]
      exact h.symm
    · rfl
  | _ => rfl

lemma insert_insert (v : Json) (k : String) (x y : Json) :
    (v.insert k x).insert k y = v.insert k y := by
  cases v with
  | obj fields =>
    refine congrArg Json.obj ?_
    induction fields with
    | nil => simp [insertField]
    | cons f rest ih =>
    obtain ⟨k', v'⟩ := f
    rw [insertField]
    by_cases heq : k = k'
    · rw [if_pos heq, insertField, if_pos rfl, insertField, if_pos heq]
    rw [if_neg heq]
    by_cases hlt : k < k'
    · rw [if_pos hlt, insertField, if_pos rfl, insertField, if_neg heq, if_pos hlt]
    · rw [if_neg hlt, insertField, if_neg heq, if_neg hlt, ih, insertField, if_neg heq, if_neg hlt]
  | _ => rfl

lemma insert_insert_insert (hv : v.Ascending) (k k' : String) (x y z : Json) :
    ((v.insert k x).insert k' y).insert k z = (v.insert k' y).insert k z := by
  cases v with
  | obj fields =>
    refine congrArg Json.obj (obj_ext (((hv.insert k x).insert k' y).insert k z)
      ((hv.insert k' y).insert k z) (fun key => ?_))
    simp only [lookupField_insertField]
    split
    · rfl
    · rfl
  | _ => rfl

variable {l : List (String × Json)}

lemma mem_of_lookupField (h : lookupField k l = some v) : (k, v) ∈ l := by
  induction l with
  | nil => cases h
  | cons f rest ih =>
  obtain ⟨k', v'⟩ := f
  rw [lookupField] at h
  split at h
  · rename_i heq
    cases h
    rw [heq]
    exact mem_cons_self
  · exact mem_cons_of_mem _ (ih h)

lemma lookupField_eq_none_of_subset {l m : List (String × Json)} (hl : Ascending (.obj l))
    (hlen : l.length = m.length)
    (hsub : ∀ f ∈ l, ∃ w, lookupField f.1 m = some w) (hk : lookupField k l = none) :
    lookupField k m = none := by
  have hkeys : ∀ {n : List (String × Json)} {k : String},
      (∃ w, lookupField k n = some w) ↔ k ∈ n.map Prod.fst := by
    intro n k
    induction n with
    | nil => simp [lookupField]
    | cons f rest ih =>
    unfold lookupField
    by_cases heq : k = f.1
    · simp [heq]
    · simp [heq, ih]
  have hnodup : (l.map Prod.fst).Nodup := by
    rw [List.Nodup, pairwise_map]
    exact List.Pairwise.imp (fun h => ne_of_lt h) hl
  have hsubset : l.map Prod.fst ⊆ m.map Prod.fst := by
    intro k' hk'
    obtain ⟨f, hf, rfl⟩ := mem_map.mp hk'
    exact hkeys.mp (hsub f hf)
  have hperm : (l.map Prod.fst).Perm (m.map Prod.fst) :=
    (subperm_of_subset hnodup hsubset).perm_of_length_le (by simp [hlen])
  cases hval : lookupField k m with
  | none => rfl
  | some w =>
  obtain ⟨w', hw'⟩ := hkeys.mpr (hperm.mem_iff.mpr (hkeys.mp ⟨w, hval⟩))
  rw [hk] at hw'
  cases hw'

mutual

def depth : Json → Nat
  | .arr items => depthItems items + 1
  | .obj fields => depthFields fields + 1
  | _ => 0

def depthItems : List Json → Nat
  | [] => 0
  | x :: xs => max (depth x) (depthItems xs)

def depthFields : List (String × Json) → Nat
  | [] => 0
  | (_, x) :: xs => max (depth x) (depthFields xs)

end

lemma depth_le_depthItems {x : Json} {items : List Json} (h : x ∈ items) :
    depth x ≤ depthItems items := by
  induction items with
  | nil => cases h
  | cons y rest ih =>
  rw [depthItems]
  rcases mem_cons.mp h with rfl | h
  · exact Nat.le_max_left _ _
  · exact Nat.le_trans (ih h) (Nat.le_max_right _ _)

lemma depth_le_depthFields {x : Json} {fields : List (String × Json)}
    (h : (k, x) ∈ fields) : depth x ≤ depthFields fields := by
  induction fields with
  | nil => cases h
  | cons f rest ih =>
  obtain ⟨k', y⟩ := f
  rw [depthFields]
  rcases mem_cons.mp h with heq | h
  · cases heq
    exact Nat.le_max_left _ _
  · exact Nat.le_trans (ih h) (Nat.le_max_right _ _)

lemma depth_lt_of_get? {v x : Json} (h : v.get? k = some x) : depth x < depth v := by
  cases v with
  | obj fields =>
    rw [depth]
    exact Nat.lt_succ_of_le (depth_le_depthFields (mem_of_lookupField h))
  | _ => cases h

def fields : Json → List (String × Json)
  | .obj fields => fields
  | _ => []

lemma mem_insertField {k k' : String} {x y : Json}
    (h : (k', y) ∈ insertField k x l) : y = x ∨ (k', y) ∈ l := by
  induction l with
  | nil =>
    cases mem_singleton.mp h
    exact .inl rfl
  | cons f rest ih =>
  rw [insertField] at h
  split at h
  · rcases mem_cons.mp h with heq | h
    · cases heq
      exact .inl rfl
    · exact .inr (mem_cons_of_mem _ h)
  split at h
  · rcases mem_cons.mp h with heq | h
    · cases heq
      exact .inl rfl
    · exact .inr h
  rcases mem_cons.mp h with heq | h
  · rw [heq]
    exact .inr mem_cons_self
  · exact (ih h).imp_right (mem_cons_of_mem _)

lemma mem_fields_insert {v x y : Json} {k k' : String} (h : (k', y) ∈ (v.insert k x).fields) :
    y = x ∨ (k', y) ∈ v.fields := by
  cases v with
  | obj fields => exact mem_insertField h
  | _ => cases h

lemma depth_lt_of_mem_fields {v x : Json} (h : (k, x) ∈ v.fields) : depth x < depth v := by
  cases v with
  | obj fields =>
    rw [depth]
    exact Nat.lt_succ_of_le (depth_le_depthFields h)
  | _ => cases h

def mapFields (f : Json → Json) : Json → Json
  | .obj fields => .obj (fields.map (fun e => (e.1, f e.2)))
  | v => v

lemma get?_mapFields (f : Json → Json) (v : Json) (k : String) :
    (v.mapFields f).get? k = (v.get? k).map f := by
  cases v with
  | obj fields =>
    change lookupField k (fields.map (fun e => (e.1, f e.2))) = (lookupField k fields).map f
    induction fields with
    | nil => rfl
    | cons e rest ih =>
    rw [map_cons, lookupField, lookupField]
    split
    · rfl
    · exact ih
  | _ => rfl

lemma Ascending.mapFields (h : v.Ascending) (f : Json → Json) : (v.mapFields f).Ascending := by
  cases v with
  | obj fields => exact pairwise_map.mpr h
  | _ => trivial

@[simp] lemma isObj_mapFields (f : Json → Json) (v : Json) : (v.mapFields f).isObj = v.isObj := by
  cases v <;> rfl

lemma eq_of_get? {v w : Json} (hv : v.Ascending) (hw : w.Ascending) (hvo : v.isObj = true)
    (hwo : w.isObj = true) (h : ∀ k, v.get? k = w.get? k) : v = w := by
  cases v with
  | obj fields =>
    cases w with
    | obj others => exact congrArg Json.obj (obj_ext hv hw h)
    | _ => cases hwo
  | _ => cases hvo

lemma isObj_ofFields (fields : List (String × Json)) : (ofFields fields).isObj = true := by
  have hfold : ∀ (l : List (String × Json)) (v : Json), v.isObj = true →
      (l.foldl (fun v f => v.insert f.1 f.2) v).isObj = true := by
    intro l
    induction l with
    | nil => exact fun v h => h
    | cons f rest ih => exact fun v h => ih _ ((isObj_insert v f.1 f.2).trans h)
  exact hfold fields _ rfl

lemma mem_fields_ofFields {x : Json} (h : (k, x) ∈ (ofFields l).fields) : ∃ key, (key, x) ∈ l := by
  have hfold : ∀ (m : List (String × Json)) (v : Json),
      (k, x) ∈ (m.foldl (fun v f => v.insert f.1 f.2) v).fields →
        (k, x) ∈ v.fields ∨ ∃ key, (key, x) ∈ m := by
    intro m
    induction m with
    | nil => exact fun v h => .inl h
    | cons f rest ih =>
    intro v h
    rcases ih _ h with h | ⟨key, hkey⟩
    · rcases mem_fields_insert h with rfl | h
      · exact .inr ⟨f.1, mem_cons_self⟩
      · exact .inl h
    · exact .inr ⟨key, mem_cons_of_mem _ hkey⟩
  exact (hfold l _ h).resolve_left not_mem_nil

end Json

end CodeWide.Lib
