/-
# Codes and their texts

A code has a label in JSON, which comes from its name, and a text in messages, which stands in a
table.  Both are the same.
-/
import Mathlib
import Punter.Service.Error

namespace Punter.ErrorCode

lemma label_eq_text (c : ErrorCode) : c.label = c.text := by
  cases c <;> decide +kernel

lemma all_eq : all = codes.map fun c => (c.text, c) := by
  simp only [all, label_eq_text]

end Punter.ErrorCode
