import Mathlib.Order.Defs.LinearOrder
import Mathlib.Algebra.Ring.Nat

/-!
# Saturating machine arithmetic

Unsigned additions that stop at the largest value of their width, over `Nat`.
-/

namespace CodeWide.Lib.Saturating

def max64 : Nat := 2 ^ 64 - 1

def max32 : Nat := 2 ^ 32 - 1

def add64 (a b : Nat) : Nat := min (a + b) max64

def add32 (a b : Nat) : Nat := min (a + b) max32

lemma add64_of_le {a b : Nat} (h : a + b ≤ max64) : add64 a b = a + b :=
  Nat.min_eq_left h

lemma add64_le_max (a b : Nat) : add64 a b ≤ max64 := Nat.min_le_right _ _

end CodeWide.Lib.Saturating
