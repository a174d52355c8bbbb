import Mathlib.Data.List.DropRight
import Mathlib.Data.List.TakeWhile
import Mathlib.Algebra.Ring.Nat

/-!
# Text

Strings as lists of characters: white space and its trimming, lines, the first occurrence of a
pattern, and the positions where an UTF-8 encoded text can be cut (`splitAtByte`).
-/

namespace CodeWide.Lib.Text

open List Option

/-- The code points with the property `White_Space`. -/
def isWhitespace (c : Char) : Bool :=
  (decide (9 ≤ c.toNat) && decide (c.toNat ≤ 13)) || decide (c.toNat = 0x20) ||
    decide (c.toNat = 0x85) || decide (c.toNat = 0xA0) || decide (c.toNat = 0x1680) ||
    (decide (0x2000 ≤ c.toNat) && decide (c.toNat ≤ 0x200A)) || decide (c.toNat = 0x2028) ||
    decide (c.toNat = 0x2029) || decide (c.toNat = 0x202F) || decide (c.toNat = 0x205F) ||
    decide (c.toNat = 0x3000)

def trimChars (l : List Char) : List Char :=
  ((l.dropWhile isWhitespace).reverse.dropWhile isWhitespace).reverse

/-- The text without white space at its ends. -/
def trim (s : String) : String := String.ofList (trimChars s.toList)

lemma trimChars_eq_nil_iff {l : List Char} : trimChars l = [] ↔ ∀ c ∈ l, isWhitespace c = true := by
  unfold trimChars
  rw [reverse_eq_nil_iff]
  constructor
  · intro h
    rw [← dropWhile_eq_nil_iff]
    by_contra hne
    -- What the first trimming leaves starts with a character that is no white space.
    have hhead := head_dropWhile_not isWhitespace hne
    rw [dropWhile_eq_nil_iff.mp h _ (mem_reverse.mpr (head_mem hne))] at hhead
    cases hhead
  · intro h
    rw [dropWhile_eq_nil_iff.mpr h]
    rfl

lemma trimChars_eq_nil_of_append {l m : List Char} (h : trimChars (l ++ m) = []) :
    trimChars l = [] :=
  trimChars_eq_nil_iff.mpr (fun c hc => trimChars_eq_nil_iff.mp h c (mem_append_left m hc))

def trimStart (l : List Char) : List Char := l.dropWhile isWhitespace

def trimEnd (l : List Char) : List Char := l.rdropWhile isWhitespace

variable (l : List Char)

lemma trimChars_eq : trimChars l = trimEnd (trimStart l) := rfl

def trimMatches (c : Char) (l : List Char) : List Char := (l.dropWhile (· == c)).rdropWhile (· == c)

lemma rdropWhile_dropWhile_of_ends {p : Char → Bool} {c : Char} {l : List Char}
    (hfirst : p c = false) (hlast : ∀ d, (c :: l).getLast? = some d → p d = false) :
    ((c :: l).dropWhile p).rdropWhile p = c :: l := by
  rw [dropWhile_cons_of_neg (by rw [hfirst]; exact Bool.false_ne_true)]
  refine rdropWhile_eq_self_iff.mpr (fun hne => ?_)
  rw [hlast _ (getLast?_eq_some_getLast hne)]
  exact Bool.false_ne_true

variable {m : List Char}

lemma rdropWhile_append_of_all {p : Char → Bool}
    (h : ∀ c ∈ m, p c = true) : (l ++ m).rdropWhile p = l.rdropWhile p := by
  induction m using reverseRecOn with
  | nil => rw [append_nil]
  | append_singleton m c ih =>
    rw [← append_assoc, rdropWhile_concat_pos _ _ _ (h c (by simp))]
    exact ih (fun d hd => h d (mem_append_left _ hd))

lemma newline_blank : ∀ c ∈ ['\n'], isWhitespace c = true := by
  intro c hc
  rw [mem_singleton.mp hc]
  rfl

lemma trimEnd_append_of_blank (h : ∀ c ∈ m, isWhitespace c = true) : trimEnd (l ++ m) = trimEnd l :=
  rdropWhile_append_of_all l h

lemma trimChars_append_of_blank
    (h : ∀ c ∈ m, isWhitespace c = true) : trimChars (l ++ m) = trimChars l := by
  rw [trimChars_eq, trimChars_eq, trimStart, trimStart, dropWhile_append]
  split
  · rename_i hnil
    rw [isEmpty_iff.mp hnil, dropWhile_eq_nil_iff.mpr h]
  · exact trimEnd_append_of_blank _ h

lemma trimChars_split :
    ∃ start stop, l = start ++ (trimChars l ++ stop) ∧ trimStart l = trimChars l ++ stop := by
  obtain ⟨stop, hstop⟩ := rdropWhile_prefix isWhitespace (l := trimStart l)
  refine ⟨l.takeWhile isWhitespace, stop, ?_, hstop.symm⟩
  rw [trimChars_eq, trimEnd, hstop]
  exact takeWhile_append_dropWhile.symm

/-- The lines of a text, each with the line feed that ends it; the last may lack one. -/
def splitInclusive : List Char → List (List Char)
  | [] => []
  | c :: rest =>
    if c = '\n' then [c] :: splitInclusive rest
    else
      match splitInclusive rest with
      | [] => [[c]]
      | line :: lines => (c :: line) :: lines

@[simp] lemma splitInclusive_flatten : (splitInclusive l).flatten = l := by
  induction l with
  | nil => rfl
  | cons c rest ih =>
  rw [splitInclusive]
  split
  · rw [flatten_cons, ih]
    rfl
  cases hlines : splitInclusive rest with
  | nil =>
    rw [hlines] at ih
    rw [← ih]
    rfl
  | cons line lines =>
    rw [hlines, flatten_cons] at ih
    rw [flatten_cons, cons_append, ih]

lemma splitInclusive_line {l : List Char} (h : '\n' ∉ l) (m : List Char) :
    splitInclusive (l ++ '\n' :: m) = (l ++ ['\n']) :: splitInclusive m := by
  induction l with
  | nil => rfl
  | cons c rest ih =>
  rw [mem_cons, not_or] at h
  rw [cons_append, splitInclusive, if_neg (fun hc => h.1 hc.symm), ih h.2]
  rfl

/-- The lines of a text, `line` being what was read of the first one. -/
def linesFrom (line : List Char) : List Char → List (List Char)
  | [] => if line = [] then [] else [line]
  | c :: rest =>
    if c = '\n' then
      (if line.getLast? = some '\r' then line.dropLast else line) :: linesFrom [] rest
    else linesFrom (line ++ [c]) rest

/-- The lines of a text, without the line feed that ends each and a carriage return before it. -/
def lines (l : List Char) : List (List Char) := linesFrom [] l

/-- The text before and after the first occurrence of a pattern. -/
def splitOnce (pat : List Char) : List Char → Option (List Char × List Char)
  | [] => if pat = [] then some ([], []) else none
  | c :: rest =>
    if pat.isPrefixOf (c :: rest) then some ([], (c :: rest).drop pat.length)
    else (splitOnce pat rest).map (fun r => (c :: r.1, r.2))

lemma splitOnce_eq_append {pat l a b : List Char} (h : splitOnce pat l = some (a, b)) :
    l = a ++ (pat ++ b) := by
  induction l generalizing a with
  | nil =>
    rw [splitOnce] at h
    split at h
    · rename_i hpat
      cases h
      rw [hpat]
      rfl
    · cases h
  | cons c rest ih =>
  rw [splitOnce] at h
  split at h
  · rename_i hpat
    cases h
    obtain ⟨m, hm⟩ := List.isPrefixOf_iff_prefix.mp hpat
    rw [← hm, drop_left, nil_append]
  obtain ⟨r, hr, heq⟩ := map_eq_some_iff.mp h
  cases heq
  rw [ih hr]
  rfl

lemma splitOnce_of_not_mem {c : Char} {a : List Char} (h : c ∉ a) (pat b : List Char) :
    splitOnce (c :: pat) (a ++ (c :: pat ++ b)) = some (a, b) := by
  induction a with
  | nil =>
    have hpre : (c :: pat).isPrefixOf (c :: (pat ++ b)) = true :=
      List.isPrefixOf_iff_prefix.mpr (prefix_append (c :: pat) b)
    rw [nil_append, cons_append, splitOnce, if_pos hpre, ← cons_append, drop_left]
  | cons d a ih =>
  rw [mem_cons, not_or] at h
  have hpre : ¬ (c :: pat).isPrefixOf (d :: (a ++ (c :: pat ++ b))) = true := by
    rw [List.isPrefixOf_iff_prefix, cons_prefix_cons]
    exact fun hc => h.1 hc.1
  rw [cons_append, splitOnce, if_neg hpre, ih h.2]
  rfl

lemma splitOnce_append {pat l a b : List Char} (h : splitOnce pat l = some (a, b))
    (m : List Char) : splitOnce pat (l ++ m) = some (a, b ++ m) := by
  induction l generalizing a with
  | nil =>
    rw [splitOnce] at h
    split at h
    · rename_i hpat
      cases h
      subst hpat
      cases m <;> rfl
    · cases h
  | cons c rest ih =>
  have hsplit := splitOnce_eq_append h
  rw [splitOnce] at h
  rw [cons_append, splitOnce]
  split at h
  · rename_i hpat
    cases h
    have hpre := List.isPrefixOf_iff_prefix.mp hpat
    rw [← cons_append, if_pos (List.isPrefixOf_iff_prefix.mpr
      (hpre.trans (prefix_append (c :: rest) m))),
      drop_append_of_le_length hpre.length_le]
  rename_i hpat
  obtain ⟨r, hr, heq⟩ := map_eq_some_iff.mp h
  cases heq
  -- An occurrence that starts here would end before the one that was found.
  have hnot : ¬ pat.isPrefixOf (c :: (rest ++ m)) = true := by
    intro hpre
    have hlong : pat.length ≤ (c :: rest).length := by
      rw [hsplit]
      simp
      omega
    exact hpat (List.isPrefixOf_iff_prefix.mpr (prefix_of_prefix_length_le
      (List.isPrefixOf_iff_prefix.mp hpre) (prefix_append (c :: rest) m) hlong))
  rw [if_neg hnot, ih hr]
  rfl

lemma take_append_take (l m : List Char) (n : Nat) :
    (l ++ m).take n = l.take n ++ m.take (n - (l.take n).length) := by
  rw [take_append, length_take]
  by_cases hn : n ≤ l.length
  · rw [show n - l.length = 0 by omega, show n - min n l.length = 0 by omega]
  · rw [show min n l.length = l.length by omega]

def utf8Len (l : List Char) : Nat := (l.map Char.utf8Size).sum

@[simp] lemma utf8Len_nil : utf8Len [] = 0 := rfl

@[simp] lemma utf8Len_cons (c : Char) (l : List Char) :
    utf8Len (c :: l) = c.utf8Size + utf8Len l := sum_cons

@[simp] lemma utf8Len_append (l m : List Char) : utf8Len (l ++ m) = utf8Len l + utf8Len m := by
  unfold utf8Len
  rw [map_append, sum_append]

lemma utf8Len_pos {l : List Char} (h : l ≠ []) : 0 < utf8Len l := by
  cases l with
  | nil => exact absurd rfl h
  | cons c rest =>
  have := c.utf8Size_pos
  rw [utf8Len_cons]
  omega

/-- The text before and after a byte position, if it lies between two characters. -/
def splitAtByte : List Char → Nat → Option (List Char × List Char)
  | l, 0 => some ([], l)
  | [], _ + 1 => none
  | c :: rest, i + 1 =>
    if c.utf8Size ≤ i + 1 then
      (splitAtByte rest (i + 1 - c.utf8Size)).map (fun r => (c :: r.1, r.2))
    else none

def isCharBoundary (l : List Char) (i : Nat) : Bool := (splitAtByte l i).isSome

/-- The bytes from `start` to `stop`, if both lie between two characters. -/
def slice? (l : List Char) (start stop : Nat) : Option (List Char) :=
  if stop < start then none
  else (splitAtByte l start).bind (fun r => (splitAtByte r.2 (stop - start)).map Prod.fst)

lemma splitAtByte_append (l m : List Char) : splitAtByte (l ++ m) (utf8Len l) = some (l, m) := by
  induction l with
  | nil => cases m <;> rfl
  | cons c rest ih =>
  have hpos := c.utf8Size_pos
  rw [utf8Len_cons]
  obtain ⟨n, hn⟩ : ∃ n, c.utf8Size + utf8Len rest = n + 1 := ⟨_, (Nat.succ_pred (by omega)).symm⟩
  rw [hn, cons_append, splitAtByte, if_pos (by omega),
    show n + 1 - c.utf8Size = utf8Len rest by omega, ih]
  rfl

lemma splitAtByte_some {l a b : List Char} {i : Nat} (h : splitAtByte l i = some (a, b)) :
    l = a ++ b ∧ utf8Len a = i := by
  induction l generalizing a i with
  | nil =>
    cases i with
    | zero =>
      cases h
      exact ⟨rfl, rfl⟩
    | succ i => cases h
  | cons c rest ih =>
  cases i with
  | zero =>
    cases h
    exact ⟨rfl, rfl⟩
  | succ i =>
  rw [splitAtByte] at h
  split at h
  · obtain ⟨r, hr, heq⟩ := map_eq_some_iff.mp h
    cases heq
    obtain ⟨hrest, hlen⟩ := ih hr
    refine ⟨by rw [hrest]; rfl, ?_⟩
    rw [utf8Len_cons]
    omega
  · cases h

lemma isCharBoundary_iff {l : List Char} {i : Nat} :
    isCharBoundary l i = true ↔ ∃ a b, l = a ++ b ∧ utf8Len a = i := by
  unfold isCharBoundary
  rw [isSome_iff_exists]
  constructor
  · rintro ⟨⟨a, b⟩, h⟩
    exact ⟨a, b, splitAtByte_some h⟩
  · rintro ⟨a, b, rfl, rfl⟩
    exact ⟨(a, b), splitAtByte_append a b⟩

lemma slice?_append (a m b : List Char) :
    slice? (a ++ (m ++ b)) (utf8Len a) (utf8Len a + utf8Len m) = some m := by
  unfold slice?
  rw [if_neg (by omega), splitAtByte_append, bind_some, Nat.add_sub_cancel_left, splitAtByte_append]
  rfl

end CodeWide.Lib.Text
