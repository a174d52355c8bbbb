import CodeWide.Lib.Utf8

/-!
# Base64

The URL-safe alphabet without padding. Three bytes become four characters, one or two at the end two
or three, whose spare bits are zero.
-/

namespace CodeWide.Lib.Base64

open List

def digits : List Byte → List Nat
  | [] => []
  | [a] => [a.val / 4, a.val % 4 * 16]
  | [a, b] => [a.val / 4, a.val % 4 * 16 + b.val / 16, b.val % 16 * 4]
  | a :: b :: c :: rest =>
    a.val / 4 :: (a.val % 4 * 16 + b.val / 16) :: (b.val % 16 * 4 + c.val / 64) :: c.val % 64 ::
      digits rest

def byte (n : Nat) : Byte := Fin.ofNat 256 n

def bytes : List Nat → Option (List Byte)
  | [] => some []
  | [_] => none
  | [w, x] => if x % 16 = 0 then some [byte (w * 4 + x / 16)] else none
  | [w, x, y] =>
    if y % 4 = 0 then some [byte (w * 4 + x / 16), byte (x % 16 * 16 + y / 4)] else none
  | w :: x :: y :: z :: rest =>
    (bytes rest).map fun tail =>
      byte (w * 4 + x / 16) :: byte (x % 16 * 16 + y / 4) :: byte (y % 4 * 64 + z) :: tail

def alphabet : List Char :=
  "ABCDEFGHIJKLMNOPQRSTUVWXYZabcdefghijklmnopqrstuvwxyz0123456789-_".toList

def char (digit : Nat) : Char := alphabet.getD digit 'A'

def digit (c : Char) : Option Nat :=
  if alphabet.idxOf c < alphabet.length then some (alphabet.idxOf c) else none

def encode (l : List Byte) : String := String.ofList ((digits l).map char)

def decode (s : String) : Option (List Byte) := (s.toList.mapM digit).bind bytes

lemma digit_char {n : Nat} (h : n < 64) : digit (char n) = some n := by
  have hall : ∀ n ∈ range 64, digit (char n) = some n := by decide
  exact hall n (mem_range.mpr h)

variable (l : List Byte)

lemma digits_lt : ∀ n ∈ digits l, n < 64 := by
  induction l using digits.induct with
  | case1 => exact fun _ h => (by cases h)
  | case2 a =>
    have ha := a.isLt
    simp only [digits, mem_cons, not_mem_nil, or_false]
    rintro n (rfl | rfl) <;> omega
  | case3 a b =>
    have ha := a.isLt
    have hb := b.isLt
    simp only [digits, mem_cons, not_mem_nil, or_false]
    rintro n (rfl | rfl | rfl) <;> omega
  | case4 a b c rest ih =>
  have ha := a.isLt
  have hb := b.isLt
  have hc := c.isLt
  simp only [digits, mem_cons]
  rintro n (rfl | rfl | rfl | rfl | h)
  · omega
  · omega
  · omega
  · omega
  · exact ih n h

lemma byte_eq {a : Byte} {n : Nat} (h : n = a.val) : byte n = a := by
  subst h
  exact Fin.ofNat_val_eq_self a

lemma bytes_digits : bytes (digits l) = some l := by
  induction l using digits.induct with
  | case1 => rfl
  | case2 a =>
    have ha := a.isLt
    have hbyte : byte (a.val / 4 * 4 + a.val % 4 * 16 / 16) = a := byte_eq (by omega)
    rw [digits, bytes, if_pos (by omega), hbyte]
  | case3 a b =>
    have ha := a.isLt
    have hb := b.isLt
    have hfirst : byte (a.val / 4 * 4 + (a.val % 4 * 16 + b.val / 16) / 16) = a :=
      byte_eq (by omega)
    have hsnd : byte ((a.val % 4 * 16 + b.val / 16) % 16 * 16 + b.val % 16 * 4 / 4) = b :=
      byte_eq (by omega)
    rw [digits, bytes, if_pos (by omega), hfirst, hsnd]
  | case4 a b c rest ih =>
  have ha := a.isLt
  have hb := b.isLt
  have hc := c.isLt
  have hfirst : byte (a.val / 4 * 4 + (a.val % 4 * 16 + b.val / 16) / 16) = a :=
    byte_eq (by omega)
  have hsnd : byte ((a.val % 4 * 16 + b.val / 16) % 16 * 16 +
      (b.val % 16 * 4 + c.val / 64) / 4) = b := byte_eq (by omega)
  have hthird : byte ((b.val % 16 * 4 + c.val / 64) % 4 * 64 + c.val % 64) = c :=
    byte_eq (by omega)
  rw [digits, bytes, ih, Option.map_some, hfirst, hsnd, hthird]

lemma decode_encode : decode (encode l) = some l := by
  have hdigits : ∀ ns : List Nat, (∀ n ∈ ns, n < 64) → (ns.map char).mapM digit = some ns := by
    intro ns hns
    induction ns with
    | nil => rfl
    | cons n ns ih =>
    rw [map_cons, mapM_cons, digit_char (hns n mem_cons_self),
      ih fun m hm => hns m (mem_cons_of_mem n hm)]
    rfl
  rw [decode, encode, String.toList_ofList, hdigits _ (digits_lt l), Option.bind_some, bytes_digits]

end CodeWide.Lib.Base64
