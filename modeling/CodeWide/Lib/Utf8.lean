import Mathlib.Algebra.Ring.Nat
import Mathlib.Data.List.Lex
import Mathlib.Order.Fin.Basic

/-!
# Text as bytes

The UTF-8 encoding of a text as a list of bytes, in the lexicographic order of byte strings,
and its decoding.
-/

namespace CodeWide.Lib

open List

abbrev Byte := Fin 256

/-- Named, so that every numeral of `Byte` carries the same proof. -/
instance byte_neZero : NeZero 256 := ⟨by decide⟩

def utf8 (s : String) : List Byte := (s.toList.flatMap String.utf8EncodeChar).map UInt8.toFin

def fromUtf8 (bytes : List Byte) : Option String :=
  String.fromUTF8? (bytes.map UInt8.ofFin).toByteArray

lemma fromUtf8_utf8 (s : String) : fromUtf8 (utf8 s) = some s := by
  have hbytes : ((utf8 s).map UInt8.ofFin).toByteArray = s.toByteArray := by
    unfold utf8
    rw [map_map, ← String.utf8Encode_toList]
    have hid : UInt8.ofFin ∘ UInt8.toFin = id := by
      funext b
      rfl
    rw [hid, map_id]
    rfl
  unfold fromUtf8 String.fromUTF8?
  rw [hbytes, dif_pos s.isValidUTF8]
  rfl

lemma utf8_inj {s t : String} (h : utf8 s = utf8 t) : s = t :=
  Option.some.inj (by rw [← fromUtf8_utf8, h, fromUtf8_utf8])

lemma byte_of_char {c : Char} {b : UInt8} (h : b ∈ String.utf8EncodeChar c) :
    b.toNat < 255 ∧ (b.toNat = 0 → c.val.toNat = 0) := by
  unfold String.utf8EncodeChar at h
  dsimp only at h
  split at h
  · rw [mem_singleton.mp h, UInt8.toNat_ofNat']
    omega
  split at h
  · simp only [mem_cons, not_mem_nil, or_false] at h
    rcases h with rfl | rfl <;> rw [UInt8.toNat_ofNat'] <;> omega
  split at h
  · simp only [mem_cons, not_mem_nil, or_false] at h
    rcases h with rfl | rfl | rfl <;> rw [UInt8.toNat_ofNat'] <;> omega
  · simp only [mem_cons, not_mem_nil, or_false] at h
    rcases h with rfl | rfl | rfl | rfl <;> rw [UInt8.toNat_ofNat'] <;> omega

lemma mem_utf8 {s : String} {b : Byte} (h : b ∈ utf8 s) :
    ∃ c ∈ s.toList, b.val < 255 ∧ (b.val = 0 → c = '\x00') := by
  obtain ⟨byte, hbyte, rfl⟩ := mem_map.mp h
  obtain ⟨c, hc, hmem⟩ := mem_flatMap.mp hbyte
  obtain ⟨hlt, hzero⟩ := byte_of_char hmem
  refine ⟨c, hc, hlt, fun hb => Char.ext (UInt32.toNat_inj.mp (hzero hb))⟩

def NulFree (s : String) : Prop := '\x00' ∉ s.toList

instance (s : String) : Decidable (NulFree s) := inferInstanceAs (Decidable (¬ _))

lemma zero_not_mem_utf8 {s : String} (h : NulFree s) : (0 : Byte) ∉ utf8 s := by
  intro hmem
  obtain ⟨c, hc, -, hzero⟩ := mem_utf8 hmem
  rw [hzero rfl] at hc
  exact h hc

lemma utf8_le_top (s : String) : utf8 s ≤ [255] := by
  refine not_lt.mp (fun h => ?_)
  cases hs : utf8 s with
  | nil =>
    rw [hs] at h
    exact not_lt_nil _ h
  | cons b rest =>
  obtain ⟨-, -, hlt, -⟩ := mem_utf8 (s := s) (b := b) (by rw [hs]; exact mem_cons_self)
  rw [hs] at h
  rcases cons_lt_cons_iff.mp h with h | ⟨h, -⟩
  · exact absurd hlt (Nat.not_lt.mpr (Nat.le_of_lt h))
  · rw [← h] at hlt
    exact absurd hlt (by decide)

end CodeWide.Lib
