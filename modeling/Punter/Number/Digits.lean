/-
# Decimal numerals

The numeral of a natural number in base ten, and the number that a run of digits denotes.
Every text of the library that shows a count, a port, an identifier or the digits of an
amount is built from these two functions, and `ofDigits_digits` says that they undo each
other.
-/
import Punter.Number.Powers

namespace Punter.Number

/-- The character of a single digit. -/
def digitChar (d : Nat) : Char := Char.ofNat (48 + d)

/-- The value of a digit character. -/
def digitValue (c : Char) : Nat := c.toNat - 48

/-- The numeral of `n` in base ten, without leading zeros. -/
def digits (n : Nat) : List Char :=
  if n < 10 then [digitChar n] else digits (n / 10) ++ [digitChar (n % 10)]
termination_by n
decreasing_by omega

/-- The number denoted by a run of digits. -/
def ofDigits (cs : List Char) : Nat :=
  cs.foldl (fun n c => 10 * n + digitValue c) 0

/-- The numeral of `n` as a text. -/
def numeral (n : Nat) : String := String.ofList (digits n)

/-- The numeral of an integer, with a sign in front of negative ones. -/
def intNumeral : Int → String
  | .ofNat n => numeral n
  | .negSucc n => "-" ++ numeral (n + 1)

/-- The numeral of `n` with leading zeros up to a width. -/
def paddedNumeral (width n : Nat) : String :=
  let ds := digits n
  String.ofList (List.replicate (width - ds.length) '0' ++ ds)

/-- The digits `0` to `9`. -/
def isDigit (c : Char) : Bool := '0' ≤ c && c ≤ '9'

theorem digitValue_digitChar {d : Nat} (h : d < 10) : digitValue (digitChar d) = d := by
  have : ∀ d : Fin 10, digitValue (digitChar d.val) = d.val := by decide
  exact this ⟨d, h⟩

theorem isDigit_digitChar {d : Nat} (h : d < 10) : isDigit (digitChar d) = true := by
  have : ∀ d : Fin 10, isDigit (digitChar d.val) = true := by decide
  exact this ⟨d, h⟩

/-- Reading a numeral gives back the number it was written for. -/
theorem ofDigits_digits (n : Nat) : ofDigits (digits n) = n := by
  fun_induction digits n with
  | case1 n h => simp [ofDigits, digitValue_digitChar h]
  | case2 n h ih =>
    have hd : digitValue (digitChar (n % 10)) = n % 10 :=
      digitValue_digitChar (Nat.mod_lt _ (by decide))
    simp only [ofDigits, List.foldl_append, List.foldl_cons, List.foldl_nil, hd] at ih ⊢
    omega

/-- A numeral consists of digits. -/
theorem isDigit_of_mem_digits {n : Nat} {c : Char} (h : c ∈ digits n) : isDigit c = true := by
  fun_induction digits n with
  | case1 n hn =>
    rw [List.mem_singleton.mp h]
    exact isDigit_digitChar hn
  | case2 n hn ih =>
    rcases List.mem_append.mp h with h | h
    · exact ih h
    · rw [List.mem_singleton.mp h]
      exact isDigit_digitChar (Nat.mod_lt _ (by decide))

end Punter.Number
