import CodeWide.Agent.MergedList
import Mathlib

/-!
# The text of a composite cursor

The object that a serialiser writes for a composite cursor: its fields in order, without blanks.
-/

namespace CodeWide.Listing

open Lib List Option

namespace CursorText

def hexDigit (n : Nat) : Char := "0123456789abcdef".toList.getD n '0'

def escape (c : Char) : List Char :=
  if c = '"' then ['\\', '"']
  else if c = '\\' then ['\\', '\\']
  else if c = '\x08' then ['\\', 'b']
  else if c = '\t' then ['\\', 't']
  else if c = '\n' then ['\\', 'n']
  else if c = '\x0c' then ['\\', 'f']
  else if c = '\r' then ['\\', 'r']
  else if c.toNat < 32 then ['\\', 'u', '0', '0', hexDigit (c.toNat / 16), hexDigit (c.toNat % 16)]
  else [c]

def writeText (s : List Char) : List Char := '"' :: s.flatMap escape ++ ['"']

def unescape (c : Char) : Option Char :=
  match c with
  | '"' => some '"'
  | '\\' => some '\\'
  | 'b' => some '\x08'
  | 't' => some '\t'
  | 'n' => some '\n'
  | 'f' => some '\x0c'
  | 'r' => some '\r'
  | _ => none

def control (high low : Char) : Option Char :=
  ((range 32).find? fun n => hexDigit (n / 16) = high ∧ hexDigit (n % 16) = low).map Char.ofNat

def readText : List Char → Option (List Char × List Char)
  | [] => none
  | '"' :: rest => some ([], rest)
  | '\\' :: 'u' :: '0' :: '0' :: high :: low :: rest =>
    (control high low).bind fun c => (readText rest).map fun (s, rest) => (c :: s, rest)
  | '\\' :: c :: rest =>
    (unescape c).bind fun c => (readText rest).map fun (s, rest) => (c :: s, rest)
  | c :: rest => (readText rest).map fun (s, rest) => (c :: s, rest)

lemma control_hexDigit {n : Nat} (h : n < 32) :
    control (hexDigit (n / 16)) (hexDigit (n % 16)) = some (Char.ofNat n) := by
  have hall : ∀ n ∈ range 32,
      control (hexDigit (n / 16)) (hexDigit (n % 16)) = some (Char.ofNat n) := by decide
  exact hall n (mem_range.mpr h)

lemma readText_escape (c : Char) (rest : List Char) :
    readText (escape c ++ rest) = (readText rest).map fun (s, rest) => (c :: s, rest) := by
  unfold escape
  split
  · next h => subst h; rfl
  split
  · next h => subst h; rfl
  split
  · next h => subst h; rfl
  split
  · next h => subst h; rfl
  split
  · next h => subst h; rfl
  split
  · next h => subst h; rfl
  split
  · next h => subst h; rfl
  split
  · next h =>
    have hread := control_hexDigit h
    have hchar : Char.ofNat c.toNat = c := Char.ofNat_toNat c
    rw [hchar] at hread
    simp only [cons_append, nil_append, readText, hread, bind_some]
  next hquote hslash _ _ _ _ _ _ =>
  simp only [cons_append, nil_append]
  rw [readText]
  · exact fun h => hquote h
  · exact fun _ _ _ h => absurd h hslash
  · exact fun _ _ h => absurd h hslash

lemma readText_writeText (s rest : List Char) :
    readText (s.flatMap escape ++ '"' :: rest) = some (s, rest) := by
  induction s with
  | nil => rfl
  | cons c s ih =>
    rw [flatMap_cons, append_assoc, readText_escape, ih]
    rfl

def strip (head l : List Char) : Option (List Char) :=
  if head <+: l then some (l.drop head.length) else none

lemma strip_append (head l : List Char) : strip head (head ++ l) = some l := by
  rw [strip, if_pos (prefix_append _ _), drop_left]

def writeLead : Option String → List Char
  | none => "null".toList
  | some lead => writeText lead.toList

def writeBool (b : Bool) : List Char := if b then "true".toList else "false".toList

def writeBound : Option Int → List Char
  | none => "null".toList
  | some bound => bound.repr.toList

def leadField : List Char := "\x7b\"lead\":".toList

def leadDoneField : List Char := ",\"leadDone\":".toList

def boundField : List Char := ",\"bound\":".toList

def write (cursor : CompositeCursor) : List Char :=
  leadField ++ (writeLead cursor.lead ++ (leadDoneField ++ (writeBool cursor.leadDone ++
    (boundField ++ (writeBound cursor.bound ++ ['\x7d'])))))

def readLead : List Char → Option (Option String × List Char)
  | '"' :: rest => (readText rest).map fun (lead, rest) => (some (String.ofList lead), rest)
  | l => (strip "null".toList l).map fun rest => (none, rest)

def readBool (l : List Char) : Option (Bool × List Char) :=
  match strip "true".toList l with
  | some rest => some (true, rest)
  | none => (strip "false".toList l).map fun rest => (false, rest)

def readBound (l : List Char) : Option (Option Int) :=
  if l = "null".toList then some none else (String.ofList l).toInt?.map some

def readEnd (l : List Char) : Option (Option Int) :=
  if l.getLast? = some '\x7d' then readBound l.dropLast else none

def read (l : List Char) : Option CompositeCursor :=
  (strip leadField l).bind fun l => (readLead l).bind fun (lead, l) =>
    (strip leadDoneField l).bind fun l => (readBool l).bind fun (leadDone, l) =>
      (strip boundField l).bind fun l => (readEnd l).map fun bound => ⟨lead, leadDone, bound⟩

lemma readLead_writeLead (lead : Option String) (rest : List Char) :
    readLead (writeLead lead ++ rest) = some (lead, rest) := by
  cases lead with
  | none => rfl
  | some lead =>
  have htext := readText_writeText lead.toList rest
  simp only [writeLead, writeText, cons_append, append_assoc, nil_append, readLead,
    htext, map_some, String.ofList_toList]

lemma readBool_writeBool (b : Bool) (rest : List Char) :
    readBool (writeBool b ++ rest) = some (b, rest) := by
  cases b <;> rfl

lemma not_mem_repr {c : Char} (hdigit : c.isDigit = false) (hsign : c ≠ '-') (bound : Int) :
    c ∉ bound.repr.toList := by
  have hnat (n : Nat) : c ∉ n.repr.toList := by
    rw [Nat.toList_repr]
    intro h
    rw [Nat.isDigit_of_mem_toDigits (by decide) (by decide) h] at hdigit
    cases hdigit
  rw [Int.repr_eq_if]
  split
  · exact hnat _
  rw [String.toList_append, mem_append]
  rintro (h | h)
  · exact hsign (mem_singleton.mp h)
  · exact hnat _ h

lemma readBound_writeBound (bound : Option Int) : readBound (writeBound bound) = some bound := by
  cases bound with
  | none => rfl
  | some bound =>
  have hnull : bound.repr.toList ≠ "null".toList := by
    intro h
    have hmem := not_mem_repr (c := 'n') (by decide) (by decide) bound
    rw [h] at hmem
    exact hmem (by decide)
  rw [readBound, writeBound, if_neg hnull, String.ofList_toList, Int.toInt?_repr]
  rfl

lemma readEnd_writeBound (bound : Option Int) :
    readEnd (writeBound bound ++ ['\x7d']) = some bound := by
  rw [readEnd, getLast?_concat, if_pos rfl, dropLast_concat, readBound_writeBound]

lemma read_write (cursor : CompositeCursor) : read (write cursor) = some cursor := by
  rw [read, write, strip_append, bind_some, readLead_writeLead, bind_some]
  simp only
  rw [strip_append, bind_some, readBool_writeBool, bind_some]
  simp only
  rw [strip_append, bind_some, readEnd_writeBound, map_some]

end CursorText

def serde : Codec where
  toVec cursor := some (utf8 (String.ofList (CursorText.write cursor)))
  fromSlice encoded := (fromUtf8 encoded).bind fun s => CursorText.read s.toList

lemma serde_lawful : serde.Lawful where
  serialised cursor := ⟨_, rfl⟩
  fromSlice_toVec := by
    intro cursor encoded h
    cases h
    rw [serde]
    simp only [fromUtf8_utf8, bind_some, String.toList_ofList, CursorText.read_write]

end CodeWide.Listing
