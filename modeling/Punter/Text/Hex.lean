/-
# Hexadecimal numerals

The value of a hexadecimal digit, the number that a run of digits denotes, and numerals of a
fixed width.
-/
import Punter.Number.Powers

namespace Punter.Text

/-- The value of a hexadecimal digit. -/
def hexValue (c : Char) : Option Nat :=
  if '0' ≤ c ∧ c ≤ '9' then some (c.toNat - 48)
  else if 'a' ≤ c ∧ c ≤ 'f' then some (c.toNat - 87)
  else if 'A' ≤ c ∧ c ≤ 'F' then some (c.toNat - 55)
  else none

/-- The lower-case digit with a value. -/
def hexChar (d : Nat) : Char := if d < 10 then Char.ofNat (48 + d) else Char.ofNat (87 + d)

/-- The number denoted by hexadecimal digits that follow the number `n`. -/
def ofHexFrom (n : Nat) : List Char → Option Nat
  | [] => some n
  | c :: cs => match hexValue c with
    | some d => ofHexFrom (16 * n + d) cs
    | none => none

/-- The number denoted by hexadecimal digits. -/
def ofHex (cs : List Char) : Option Nat := ofHexFrom 0 cs

/-- The last `width` lower-case hexadecimal digits of a number. -/
def toHex : Nat → Nat → List Char
  | 0, _ => []
  | width + 1, n => toHex width (n / 16) ++ [hexChar (n % 16)]

theorem hexValue_hexChar {d : Nat} (h : d < 16) : hexValue (hexChar d) = some d := by
  have : ∀ d : Fin 16, hexValue (hexChar d.val) = some d.val := by decide
  exact this ⟨d, h⟩

theorem length_toHex (width n : Nat) : (toHex width n).length = width := by
  induction width generalizing n with
  | zero => rfl
  | succ w ih => simp [toHex, ih]

theorem ofHexFrom_append (m : Nat) (xs ys : List Char) :
    ofHexFrom m (xs ++ ys) = (ofHexFrom m xs).bind fun n => ofHexFrom n ys := by
  induction xs generalizing m with
  | nil => rfl
  | cons c cs ih =>
    simp only [List.cons_append, ofHexFrom]
    split
    · exact ih _
    · rfl

theorem ofHexFrom_toHex (width m n : Nat) :
    ofHexFrom m (toHex width n) = some (m * 16 ^ width + n % 16 ^ width) := by
  induction width generalizing n with
  | zero => simp [toHex, ofHexFrom, Nat.mod_one]
  | succ w ih =>
    rw [toHex, ofHexFrom_append, ih]
    simp only [Option.bind_some, ofHexFrom, hexValue_hexChar (Nat.mod_lt n (by decide : 16 > 0))]
    have h : n % 16 ^ (w + 1) = 16 * (n / 16 % 16 ^ w) + n % 16 := by
      rw [Nat.pow_succ, Nat.mul_comm, Nat.mod_mul]
      omega
    rw [h, Nat.pow_succ]
    congr 1
    have : m * (16 ^ w * 16) = 16 * (m * 16 ^ w) := by
      rw [← Nat.mul_assoc, Nat.mul_comm]
    omega

/-- A numeral that is wide enough denotes the number it was written for. -/
theorem ofHex_toHex {width n : Nat} (h : n < 16 ^ width) : ofHex (toHex width n) = some n := by
  rw [ofHex, ofHexFrom_toHex, Nat.mod_eq_of_lt h, Nat.zero_mul, Nat.zero_add]

end Punter.Text
