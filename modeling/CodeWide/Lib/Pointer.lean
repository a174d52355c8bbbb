import Mathlib.Data.List.Basic
import Mathlib.Data.String.Basic

/-!
# JSON pointers

The pointer of a value inside a document: the reference tokens on the way to it, each after a
slash.
-/

namespace CodeWide.Lib.Pointer

open List

def replace (value : String) (char : Char) (text : String) : String :=
  String.ofList (value.toList.flatMap fun c => if c = char then text.toList else [c])

def escape (key : String) : String := replace (replace key '~' "~0") '/' "~1"

def child (pointer token : String) : String := pointer ++ "/" ++ token

def Within (base pointer : String) : Prop :=
  ∃ rest : List Char, pointer.toList = base.toList ++ rest ∧
    (rest = [] ∨ ∃ tail, rest = '/' :: tail)

def Token (token : String) : Prop := '/' ∉ token.toList

def escapeChar (c : Char) : List Char :=
  if c = '~' then ['~', '0'] else if c = '/' then ['~', '1'] else [c]

lemma toList_escape (key : String) : (escape key).toList = key.toList.flatMap escapeChar := by
  unfold escape replace
  simp only [String.toList_ofList, flatMap_assoc]
  congr 1
  funext c
  unfold escapeChar
  split
  · rfl
  · rw [flatMap_singleton]
    rfl

lemma slash_not_mem_escapeChar (c : Char) : '/' ∉ escapeChar c := by
  unfold escapeChar
  split
  · decide
  · split
    · decide
    · next hslash => exact fun h => hslash (mem_singleton.mp h).symm

lemma token_escape (key : String) : Token (escape key) := by
  unfold Token
  rw [toList_escape]
  intro h
  obtain ⟨c, -, hc⟩ := mem_flatMap.mp h
  exact slash_not_mem_escapeChar c hc

lemma token_repr (n : Nat) : Token n.repr := by
  intro h
  have hdigit : Char.isDigit '/' = true := by
    have hmem : '/' ∈ Nat.toDigits 10 n := by
      rw [Nat.repr, String.toList_ofList] at h
      exact h
    exact Nat.isDigit_of_mem_toDigits (by decide) (by decide) hmem
  revert hdigit
  decide

lemma escapeChar_ne_nil (c : Char) : escapeChar c ≠ [] := by
  unfold escapeChar
  split
  · exact cons_ne_nil _ _
  · split <;> exact cons_ne_nil _ _

lemma escapeChar_append_inj {x y : Char} {l m : List Char}
    (h : escapeChar x ++ l = escapeChar y ++ m) : x = y ∧ l = m := by
  by_cases hx : x = '~'
  · by_cases hy : y = '~'
    · subst hx hy
      exact ⟨rfl, append_cancel_left h⟩
    by_cases hy' : y = '/'
    · subst hx hy'
      exact absurd (cons.inj (cons.inj h).2).1 (by decide)
    · unfold escapeChar at h
      rw [if_pos hx, if_neg hy, if_neg hy'] at h
      exact absurd (cons.inj h).1.symm hy
  by_cases hx' : x = '/'
  · by_cases hy : y = '~'
    · subst hx' hy
      exact absurd (cons.inj (cons.inj h).2).1 (by decide)
    by_cases hy' : y = '/'
    · subst hx' hy'
      exact ⟨rfl, append_cancel_left h⟩
    · unfold escapeChar at h
      rw [if_neg hx, if_pos hx', if_neg hy, if_neg hy'] at h
      exact absurd (cons.inj h).1.symm hy
  unfold escapeChar at h
  rw [if_neg hx, if_neg hx'] at h
  split at h
  · exact absurd (cons.inj h).1 hx
  · split at h
    · exact absurd (cons.inj h).1 hx
    · exact cons.inj h

lemma flatMap_escapeChar_inj {l m : List Char}
    (h : l.flatMap escapeChar = m.flatMap escapeChar) : l = m := by
  induction l generalizing m with
  | nil =>
    cases m with
    | nil => rfl
    | cons y m => exact absurd (append_eq_nil_iff.mp h.symm).1 (escapeChar_ne_nil y)
  | cons x l ih =>
  cases m with
  | nil => exact absurd (append_eq_nil_iff.mp h).1 (escapeChar_ne_nil x)
  | cons y m =>
    obtain ⟨hxy, hrest⟩ := escapeChar_append_inj h
    rw [hxy, ih hrest]

lemma escape_inj {key other : String} (h : escape key = escape other) : key = other := by
  have hlist := congrArg String.toList h
  rw [toList_escape, toList_escape] at hlist
  exact String.ext_iff.mpr (flatMap_escapeChar_inj hlist)

variable (base token : String)

lemma toList_child : (child base token).toList = base.toList ++ '/' :: token.toList := by
  unfold child
  rw [String.toList_append, String.toList_append, append_assoc]
  rfl

lemma Within.refl (base : String) : Within base base :=
  ⟨[], (append_nil _).symm, .inl rfl⟩

lemma Within.of_child {base token pointer : String} (h : Within (child base token) pointer) :
    Within base pointer := by
  obtain ⟨rest, hrest, -⟩ := h
  rw [toList_child, append_assoc] at hrest
  exact ⟨_, hrest, .inr ⟨_, rfl⟩⟩

lemma not_within_child : ¬ Within (child base token) base := by
  rintro ⟨rest, hrest, -⟩
  rw [toList_child, append_assoc] at hrest
  have hlen := congrArg length hrest
  simp only [length_append, length_cons] at hlen
  omega

lemma token_unique {base token other pointer : String} (htoken : Token token)
    (hother : Token other) (h : Within (child base token) pointer)
    (h' : Within (child base other) pointer) : token = other := by
  obtain ⟨rest, hrest, hend⟩ := h
  obtain ⟨rest', hrest', hend'⟩ := h'
  rw [toList_child, append_assoc] at hrest hrest'
  have heq := append_cancel_left (hrest.symm.trans hrest')
  have hchars : token.toList ++ rest = other.toList ++ rest' := (cons.inj heq).2
  -- a token is what stands before the next slash
  have hbef : ∀ (t : String) (r : List Char), Token t → (r = [] ∨ ∃ tail, r = '/' :: tail) →
      (t.toList ++ r).takeWhile (fun c => c ≠ '/') = t.toList := by
    intro t r ht hr
    have hall : ∀ c ∈ t.toList, decide (c ≠ '/') = true :=
      fun c hc => decide_eq_true fun hslash => ht (hslash ▸ hc)
    rw [takeWhile_append_of_pos hall]
    rcases hr with rfl | ⟨tail, rfl⟩
    · exact append_nil _
    · exact append_nil _
  rw [String.ext_iff, ← hbef token rest htoken hend, hchars, hbef other rest' hother hend']

lemma child_ne_empty : child base token ≠ "" := by
  intro h
  have hlist := congrArg String.toList h
  rw [toList_child] at hlist
  exact cons_ne_nil _ _ (append_eq_nil_iff.mp hlist).2

end CodeWide.Lib.Pointer
