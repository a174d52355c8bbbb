import Mathlib.Data.String.Basic
import Mathlib.Algebra.Ring.Nat

/-!
# Text measured in UTF-16 units

A text is a list of characters; one of the supplementary planes takes two units.
-/

namespace CodeWide.Lib.Utf16

def charUnits (c : Char) : Nat := if c.toNat < 0x10000 then 1 else 2

def units (s : String) : Nat := (s.toList.map charUnits).sum

def takeChars : Nat → List Char → List Char
  | _, [] => []
  | n, c :: rest => if charUnits c ≤ n then c :: takeChars (n - charUnits c) rest else []

def takeUnits (n : Nat) (s : String) : String := String.ofList (takeChars n s.toList)

def lastUnits (n : Nat) (s : String) : String :=
  String.ofList (takeChars n s.toList.reverse).reverse

end CodeWide.Lib.Utf16
