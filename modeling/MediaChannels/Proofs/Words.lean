import Mathlib.Algebra.Group.Nat.Defs

/-!
# Counters

Sequence numbers and counters are words, and places in a ring are remainders.

* `add_one_mod_two_eq_one_iff`, `add_two_mod_two_eq_one_iff`: how the parity of a word changes.
* `mod_ne_mod_of_lt`: numbers that are less than a ring apart have places of their own.
-/

namespace MediaChannels

/-- Adding one turns the parity of a word around. -/
theorem add_one_mod_two_eq_one_iff (s : UInt64) : (s + 1) % 2 = 1 ↔ ¬s % 2 = 1 := by
  have hs := s.toNat_lt
  simp only [← UInt64.toNat_inj, UInt64.toNat_mod, UInt64.toNat_add, UInt64.reduceToNat]
  omega

/-- Adding two keeps the parity of a word. -/
theorem add_two_mod_two_eq_one_iff (s : UInt64) : (s + 2) % 2 = 1 ↔ s % 2 = 1 := by
  have hs := s.toNat_lt
  simp only [← UInt64.toNat_inj, UInt64.toNat_mod, UInt64.toNat_add, UInt64.reduceToNat]
  omega

/-- Numbers that are less than `q` apart have different remainders. -/
theorem mod_ne_mod_of_lt {i n q : Nat} (h : i < n) (hn : n < i + q) : i % q ≠ n % q := by
  intro he
  have hd := Nat.sub_mod_eq_zero_of_mod_eq he.symm
  rw [Nat.mod_eq_of_lt (by omega)] at hd
  omega

end MediaChannels
