/-
# Identifiers are read again

The five groups in which an identifier is written have all of its digits in their order
(`Text.toHex_append`), and the hyphens between them stand where a reader looks for them.  So every
identifier is read from its text (`Uuid.parse?_text`), whichever of the four forms it was given in
before.
-/
import Mathlib
import Punter.Text.Uuid

namespace Punter

namespace Text

/-- The upper and the lower digits of a number. -/
lemma toHex_append (upper lower n : ℕ) :
    toHex upper (n / 16 ^ lower) ++ toHex lower n = toHex (upper + lower) n := by
  induction lower generalizing n with
  | zero => simp [toHex]
  | succ lower ih =>
    have hdiv : n / 16 ^ (lower + 1) = n / 16 / 16 ^ lower := by
      rw [pow_succ', Nat.div_div_eq_div_mul]
    rw [hdiv, toHex, ← List.append_assoc, ih]
    rfl

end Text

namespace Uuid

open Text

/-- The digits of an identifier without the hyphens. -/
lemma digits_eq (n : ℕ) :
    toHex 8 (dropDigits n 24) ++ (toHex 4 (dropDigits n 20) ++ (toHex 4 (dropDigits n 16) ++
      (toHex 4 (dropDigits n 12) ++ toHex 12 n))) = toHex 32 n := by
  simp only [dropDigits]
  rw [toHex_append, toHex_append 4, toHex_append 4, toHex_append]

/-- Five groups with hyphens between them are read without the hyphens. -/
lemma ofGroups_groups {a b c d e : List Char} (ha : a.length = 8) (hb : b.length = 4)
    (hc : c.length = 4) (hd : d.length = 4) (he : e.length = 12) :
    ofGroups (a ++ '-' :: (b ++ '-' :: (c ++ '-' :: (d ++ '-' :: e)))) =
      ofSimple (a ++ (b ++ (c ++ (d ++ e)))) := by
  have hlength : (a ++ '-' :: (b ++ '-' :: (c ++ '-' :: (d ++ '-' :: e)))).length = 36 := by
    simp [ha, hb, hc, hd, he]
  have hhyphens : [8, 13, 18, 23].all (fun i =>
      (a ++ '-' :: (b ++ '-' :: (c ++ '-' :: (d ++ '-' :: e))))[i]? == some '-') = true := by
    simp [List.getElem?_append, List.getElem?_cons, ha, hb, hc, hd]
  rw [ofGroups, if_pos ⟨hlength, hhyphens⟩]
  congr 1
  simp [List.drop_append, List.drop_of_length_le, ha, hb, hc, hd]

/-- **Identifiers are read again** from the texts that are written for them. -/
theorem parse?_text (u : Uuid) : parse? u.text = some u := by
  have hlength : u.chars.length = 36 := by simp [chars, length_toHex]
  have hbits : u.bits.toNat < 16 ^ 32 := u.bits.isLt
  rw [parse?, text, String.toList_ofList, ofChars?, if_neg (by omega), if_pos hlength, chars,
    ofGroups_groups (length_toHex _ _) (length_toHex _ _) (length_toHex _ _) (length_toHex _ _)
      (length_toHex _ _), digits_eq, ofSimple, if_pos (length_toHex _ _), ofHex_toHex hbits]
  simp

end Uuid

end Punter
