/-
# Counts of a fixed width

Counts are kept in words of 32 or 64 bits.  They are natural numbers here, but what comes after the
largest number of a word is zero.
-/
import Punter.Number.Powers

namespace Punter.Number

/-- One more in 32 bits. -/
def next32 (n : Nat) : Nat := (n + 1) % UInt32.size

/-- One more in 64 bits. -/
def next64 (n : Nat) : Nat := (n + 1) % UInt64.size

theorem next32_of_lt {n : Nat} (h : n + 1 < UInt32.size) : next32 n = n + 1 := Nat.mod_eq_of_lt h

theorem next64_of_lt {n : Nat} (h : n + 1 < UInt64.size) : next64 n = n + 1 := Nat.mod_eq_of_lt h

end Punter.Number
