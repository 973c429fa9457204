/-
# Written values are scanned again

The text that is written for a value has the outline of this value, and what follows the text is
left, whether it is written without blanks (`Json.Legible.scanned`) or on many lines
(`Json.Legible.spells_pretty`).  This is shown for one kind of token after the other: for numbers,
which end where a character follows that no number has, for strings, in which every character is
escaped in a way that is undone, and for arrays and objects, between whose parts any blanks may
stand (`Outline.Spells.arr`, `Outline.Spells.obj`).

Texts of numbers are an exception.  How a number of the type `α` is written and read is no matter of
this library, so that a value is only legible if its numbers are (`Scalar.ReadsBack`).
-/
import Mathlib
import Punter.Json.Position

namespace Punter

open Number

variable {α : Type} [Scalar α]

/-! ## Legible values -/

/-- A finite number whose text consists of the characters of numbers and is read as this number. -/
structure Scalar.ReadsBack (x : α) : Prop where
  isFinite : Scalar.isFinite x = true
  chars : ∀ c ∈ (Scalar.jsonText x).toList, Codec.isNumberChar c = true
  scan : Outline.scan (Scalar.jsonText x).toList = (.number (.ok (.real x)), some [])

/-- A value that can be read again: its integers fit into 64 bits, with or without a sign, and its
other numbers are read as what they are. -/
inductive Json.Legible : Json α → Prop
  | null : Legible .null
  | bool (b : Bool) : Legible (.bool b)
  | int {n : ℤ} (lower : -2 ^ 63 ≤ n) (upper : n < 2 ^ 64) : Legible (.int n)
  | num {x : α} (reads : Scalar.ReadsBack x) : Legible (.num x)
  | str (s : String) : Legible (.str s)
  | arr {items : List (Json α)} (items_legible : ∀ x ∈ items, Legible x) : Legible (.arr items)
  | obj {members : List (String × Json α)} (members_legible : ∀ m ∈ members, Legible m.2) :
      Legible (.obj members)

open Json (quote escape)

namespace Outline

/-! ## Numbers -/

/-- A number that stands in front of this text ends there. -/
def EndsNumber (rest : List Char) : Prop := ∀ c ∈ rest.head?, Codec.isNumberChar c = false

lemma EndsNumber.spanDigits {rest : List Char} (h : EndsNumber rest) (cs : List Char) :
    spanDigits (cs ++ rest) = ((spanDigits cs).1, (spanDigits cs).2 ++ rest) := by
  have hrest : rest.takeWhile isDigit = [] ∧ rest.dropWhile isDigit = rest := by
    cases rest with
    | nil => exact ⟨rfl, rfl⟩
    | cons c rest =>
      have hc : isDigit c = false := by
        have := h c rfl
        rw [Codec.isNumberChar, Bool.or_eq_false_iff] at this
        exact this.1
      simp [hc]
  induction cs with
  | nil => simp [Outline.spanDigits, hrest]
  | cons c cs ih =>
    simp only [Outline.spanDigits, Prod.mk.injEq, List.cons_append, List.takeWhile_cons,
      List.dropWhile_cons] at ih ⊢
    split
    · exact ⟨by rw [ih.1], ih.2⟩
    · exact ⟨rfl, rfl⟩

variable {negative pointed : Bool} {whole fraction cs rest : List Char} {o : Outline α}

lemma EndsNumber.ne_of_cons {c d : Char} (h : EndsNumber (c :: rest))
    (hd : Codec.isNumberChar d = true) : c ≠ d := by
  rintro rfl
  have := h c rfl
  rw [hd] at this
  cases this

/-- The digits of an exponent, after its sign, and the end of the number. -/
def scanPower (negative minus : Bool) (whole fraction cs : List Char) : Scan α :=
  match spanDigits cs with
  | ([], rest) => digitless rest
  | (ds, rest) =>
    let e : Int := ofDigits ds
    let e := (if minus then -e else e) - fraction.length
    (number (realNumber negative ⟨ofDigits (whole ++ fraction), e⟩), some rest)

lemma scanPower_append {minus : Bool} (hrest : EndsNumber rest)
    (h : scanPower negative minus whole fraction cs = (o, some [])) :
    scanPower negative minus whole fraction (cs ++ rest) = (o, some rest) := by
  unfold scanPower at h ⊢
  rw [hrest.spanDigits]
  rcases hspan : Outline.spanDigits cs with ⟨- | ⟨d, ds⟩, left⟩ <;> rw [hspan] at h
  · simp [digitless] at h
  · obtain ⟨ho, hleft⟩ := Prod.mk.inj h
    obtain rfl := Option.some.inj hleft
    rw [← ho]
    rfl

lemma scanExponent_plus {c : Char} (hc : c = 'e' ∨ c = 'E') :
    (scanExponent negative whole fraction pointed (c :: '+' :: cs) : Scan α) =
      scanPower negative false whole fraction cs := by
  simp only [scanExponent, hc, if_true]
  rfl

lemma scanExponent_minus {c : Char} (hc : c = 'e' ∨ c = 'E') :
    (scanExponent negative whole fraction pointed (c :: '-' :: cs) : Scan α) =
      scanPower negative true whole fraction cs := by
  simp only [scanExponent, hc, if_true]
  rfl

lemma scanExponent_unsigned {c d : Char} (hc : c = 'e' ∨ c = 'E') (hplus : d ≠ '+')
    (hminus : d ≠ '-') :
    (scanExponent negative whole fraction pointed (c :: d :: cs) : Scan α) =
      scanPower negative false whole fraction (d :: cs) := by
  simp only [scanExponent, hc, if_true]
  simp [hplus, hminus]
  rfl

lemma scanExponent_append (hrest : EndsNumber rest)
    (h : scanExponent negative whole fraction pointed cs = (o, some [])) :
    scanExponent negative whole fraction pointed (cs ++ rest) = (o, some rest) := by
  cases cs with
  | nil =>
    cases rest with
    | nil => exact h
    | cons c rest =>
      -- what follows the number does not continue it with an exponent
      have hexp : ¬ (c = 'e' ∨ c = 'E') := by
        rintro (rfl | rfl)
        · exact hrest.ne_of_cons rfl rfl
        · exact hrest.ne_of_cons rfl rfl
      simp only [scanExponent] at h
      simp only [List.nil_append, scanExponent, hexp, if_false]
      split at h <;> simp_all
  | cons c cs =>
    by_cases hexp : c = 'e' ∨ c = 'E'
    · rcases cs with - | ⟨d, cs⟩
      · simp [scanExponent, hexp, Outline.spanDigits, digitless] at h
      · simp only [List.cons_append]
        by_cases hplus : d = '+'
        · subst hplus
          rw [scanExponent_plus hexp] at h ⊢
          exact scanPower_append hrest h
        · by_cases hminus : d = '-'
          · subst hminus
            rw [scanExponent_minus hexp] at h ⊢
            exact scanPower_append hrest h
          · rw [scanExponent_unsigned hexp hplus hminus] at h ⊢
            exact scanPower_append hrest h
    · simp only [scanExponent, hexp, if_false] at h
      split at h <;> simp at h

lemma scanFraction_append (hrest : EndsNumber rest)
    (h : scanFraction negative whole cs = (o, some [])) :
    scanFraction negative whole (cs ++ rest) = (o, some rest) := by
  have hplain : ∀ {cs : List Char}, (∀ ds, cs ≠ '.' :: ds) →
      (scanFraction negative whole cs : Scan α) = scanExponent negative whole [] false cs := by
    intro cs hcs
    unfold scanFraction
    split
    · exact absurd rfl (hcs _)
    · rfl
  by_cases hpoint : ∃ ds, cs = '.' :: ds
  · obtain ⟨ds, rfl⟩ := hpoint
    simp only [List.cons_append, scanFraction] at h ⊢
    rw [hrest.spanDigits]
    rcases hspan : Outline.spanDigits ds with ⟨- | ⟨d, ds'⟩, left⟩ <;> rw [hspan] at h
    · simp [digitless] at h
    · exact scanExponent_append hrest h
  · -- no point comes from what follows the number either
    have hcs : ∀ ds, cs ≠ '.' :: ds := fun ds h => hpoint ⟨ds, h⟩
    have happend : ∀ ds, cs ++ rest ≠ '.' :: ds := by
      intro ds hds
      cases cs with
      | nil =>
        subst hds
        exact hrest.ne_of_cons rfl rfl
      | cons c cs =>
        obtain ⟨rfl, -⟩ := List.cons.inj hds
        exact hcs cs rfl
    rw [hplain hcs] at h
    rw [hplain happend]
    exact scanExponent_append hrest h

/-- Digits that begin a number: there is one, and no zero leads. -/
def Leads (ds : List Char) : Prop := ds ≠ [] ∧ ∀ d ds', ds ≠ '0' :: d :: ds'

lemma scanNumber_of_leads {ds left : List Char} (hspan : spanDigits cs = (ds, left))
    (hds : Leads ds) :
    (scanNumber negative cs : Scan α) = scanFraction negative ds left := by
  unfold scanNumber
  rw [hspan]
  split
  · next h => exact absurd (Prod.mk.inj h).1 hds.1
  · next h =>
    obtain ⟨rfl, rfl⟩ := Prod.mk.inj h
    rfl
  · next tail left' hone h =>
    obtain ⟨rfl, rfl⟩ := Prod.mk.inj h
    cases tail with
    | nil => exact (hone rfl).elim
    | cons d ds' => exact absurd rfl (hds.2 d ds')
  · next h =>
    obtain ⟨rfl, rfl⟩ := Prod.mk.inj h
    rfl

/-- What follows a number does not change how it is scanned. -/
lemma scanNumber_append (hrest : EndsNumber rest)
    (h : scanNumber negative cs = (o, some [])) :
    scanNumber negative (cs ++ rest) = (o, some rest) := by
  -- otherwise the scanner would have stopped at the digits
  have hleads : Leads (Outline.spanDigits cs).1 := by
    unfold scanNumber at h
    refine ⟨?_, ?_⟩
    · intro hnil
      rw [show Outline.spanDigits cs = ([], (Outline.spanDigits cs).2) from Prod.ext hnil rfl] at h
      simp [digitless] at h
    · intro d ds' hzero
      rw [show Outline.spanDigits cs = ('0' :: d :: ds', (Outline.spanDigits cs).2) from
        Prod.ext hzero rfl] at h
      simp at h
  rw [scanNumber_of_leads rfl hleads] at h
  rw [scanNumber_of_leads (hrest.spanDigits cs) hleads]
  exact scanFraction_append hrest h

/-! ## Integers -/

lemma leads_digits (n : ℕ) : Leads (digits n) := by
  have hfirst : ∀ n, 0 < n → ∃ c cs, digits n = c :: cs ∧ c ≠ '0' := by
    intro n hn
    fun_induction digits n with
    | case1 n h =>
      refine ⟨digitChar n, [], rfl, fun hzero => ?_⟩
      have hvalue := digitValue_digitChar h
      rw [hzero] at hvalue
      exact absurd hvalue (by simp [digitValue]; omega)
    | case2 n h ih =>
      obtain ⟨c, cs, hcs, hc⟩ := ih (by omega)
      exact ⟨c, cs ++ [digitChar (n % 10)], by rw [hcs, List.cons_append], hc⟩
  rcases Nat.eq_zero_or_pos n with rfl | hn
  · refine ⟨by simp [digits], fun d ds' h => ?_⟩
    have := congrArg List.length h
    simp [digits] at this
  · obtain ⟨c, cs, hcs, hc⟩ := hfirst n hn
    rw [hcs]
    refine ⟨List.cons_ne_nil _ _, fun d ds' h => ?_⟩
    exact hc (List.cons.inj h).1

lemma spanDigits_digits (hrest : EndsNumber rest) (n : ℕ) :
    spanDigits (digits n ++ rest) = (digits n, rest) := by
  have hall : ∀ c ∈ digits n, isDigit c = true := fun c hc => isDigit_of_mem_digits hc
  have halone : Outline.spanDigits (digits n) = (digits n, []) := by
    rw [Outline.spanDigits, List.takeWhile_eq_self_iff.mpr hall,
      List.dropWhile_eq_nil_iff.mpr hall]
  rw [hrest.spanDigits, halone]
  rfl

lemma scanNumber_digits (hrest : EndsNumber rest) (n : ℕ) :
    (scanNumber negative (digits n ++ rest) : Scan α) =
      (number (wholeNumber negative n), some rest) := by
  have halone : (scanFraction negative (digits n) [] : Scan α) =
      (number (wholeNumber negative n), some []) := by
    simp [scanFraction, scanExponent, ofDigits_digits]
  rw [scanNumber_of_leads (spanDigits_digits hrest n) (leads_digits n)]
  exact scanFraction_append hrest halone

/-! ## Ratios -/

/-- Whether what is scanned from the text of a ratio is this ratio. -/
def rereads (x : ℚ) : Bool :=
  let t := (Scalar.jsonText x).toList
  t.all Codec.isNumberChar && match (scan t : Scan ℚ) with
    | (number (.ok (.real y)), some []) => y == x
    | _ => false

lemma readsBack_iff_rereads {x : ℚ} : Scalar.ReadsBack x ↔ rereads x = true := by
  constructor
  · intro h
    simp only [rereads, h.scan, List.all_eq_true.mpr h.chars, BEq.rfl, Bool.and_self]
  · intro h
    rw [rereads, Bool.and_eq_true] at h
    obtain ⟨hchars, hscan⟩ := h
    refine ⟨rfl, List.all_eq_true.mp hchars, ?_⟩
    split at hscan
    · next y heq => rw [heq, eq_of_beq hscan]
    · cases hscan

instance (x : ℚ) : Decidable (Scalar.ReadsBack x) :=
  decidable_of_iff (rereads x = true) readsBack_iff_rereads.symm

/-! ## Tokens at the beginning of a value -/

lemma skipBlanks_cons {c : Char} (hc : isBlank c = false) (cs : List Char) :
    skipBlanks (c :: cs) = c :: cs := by
  simp [skipBlanks, hc]

/-- Characters of numbers are neither blanks nor brackets. -/
lemma begins_of_isNumberChar {c : Char} (hc : Codec.isNumberChar c = true) :
    isBlank c = false ∧ c ≠ ']' := by
  refine ⟨?_, ?_⟩
  · rw [← Bool.not_eq_true]
    intro hblank
    simp only [isBlank, Bool.or_eq_true, decide_eq_true_eq] at hblank
    rcases hblank with ((rfl | rfl) | rfl) | rfl <;> revert hc <;> decide
  · rintro rfl
    revert hc
    decide

lemma isNumberChar_of_mem_digits {n : ℕ} {c : Char} (hc : c ∈ digits n) :
    Codec.isNumberChar c = true := by
  rw [Codec.isNumberChar, isDigit_of_mem_digits hc, Bool.true_or]

lemma scanValue_of_isDigit {c : Char} (hc : isDigit c = true) (n : ℕ) (cs : List Char) :
    (scanValue (n + 1) (c :: cs) : Scan α) = scanNumber false (c :: cs) := by
  have hnumber : Codec.isNumberChar c = true := by simp [Codec.isNumberChar, hc]
  rw [scanValue, skipBlanks_cons (begins_of_isNumberChar hnumber).1]
  -- no other token begins with a digit
  split
  case h_1 h => cases h
  case h_9 h =>
    obtain ⟨rfl, rfl⟩ := List.cons.inj h
    rw [if_pos hc]
  all_goals
    next h =>
      obtain ⟨rfl, -⟩ := List.cons.inj h
      exact absurd hc (by decide)

lemma scanValue_minus (n : ℕ) (cs : List Char) :
    (scanValue (n + 1) ('-' :: cs) : Scan α) = scanNumber true cs := by
  rw [scanValue, skipBlanks_cons (by decide)]
  rfl

/-- Numbers of a type are scanned as they are read. -/
lemma scanValue_jsonText {x : α} (hx : Scalar.ReadsBack x) (hrest : EndsNumber rest) (n : ℕ) :
    scanValue (n + 1) ((Scalar.jsonText x).toList ++ rest) =
      (number (.ok (.real x)), some rest) := by
  have hscan := hx.scan
  have hchars := hx.chars
  rw [scan] at hscan
  generalize (Scalar.jsonText x).toList = cs at hscan hchars
  cases cs with
  | nil => cases hscan
  | cons c cs =>
    have hc : Codec.isNumberChar c = true := hchars c List.mem_cons_self
    by_cases hdigit : isDigit c = true
    · rw [scanValue_of_isDigit hdigit] at hscan
      rw [List.cons_append, scanValue_of_isDigit hdigit]
      exact scanNumber_append hrest hscan
    · simp only [Codec.isNumberChar, Bool.eq_false_of_not_eq_true hdigit, Bool.false_or,
        List.contains_iff_mem, List.mem_cons, List.not_mem_nil, or_false] at hc
      rcases hc with rfl | rfl | rfl | rfl | rfl
      -- of the other characters only the sign begins a number
      case inr.inr.inr.inr =>
        rw [scanValue_minus] at hscan
        rw [List.cons_append, scanValue_minus]
        exact scanNumber_append hrest hscan
      all_goals cases hscan

/-! ## Strings -/

omit [Scalar α] in
lemma scanText_escape (c : Char) (content cs : List Char) :
    (scanText content none none (Json.escape c ++ cs) : Scan α) =
      scanText (c :: content) none none cs := by
  unfold Json.escape
  split_ifs with h₁ h₂ h₃ h₄ h₅ h₆ h₇ h₈
  · subst h₁; simp [scanText, unescape, unpaired]
  · subst h₂; simp [scanText, unescape, unpaired]
  · subst h₃; simp [scanText, unescape, unpaired]
  · subst h₄; simp [scanText, unescape, unpaired]
  · subst h₅; simp [scanText, unescape, unpaired]
  · rw [← Char.ofNat_toNat c, h₆]
    simp [scanText, unescape, unpaired]
  · rw [← Char.ofNat_toNat c, h₇]
    simp [scanText, unescape, unpaired]
  · -- any other control character is written by its number
    have hnumber : Text.ofHex (Text.toHex 4 c.toNat) = some c.toNat :=
      Text.ofHex_toHex (by omega)
    obtain ⟨x, y, z, u, hhex⟩ : ∃ x y z u, Text.toHex 4 c.toNat = [x, y, z, u] :=
      ⟨_, _, _, _, rfl⟩
    have hhigh : isHighHalf c.toNat = false := by simp [isHighHalf]; omega
    have hlow : isLowHalf c.toNat = false := by simp [isLowHalf]; omega
    rw [hhex] at hnumber
    rw [hhex]
    simp [scanText, hnumber, hhigh, hlow, Char.ofNat_toNat]
  · simp [scanText, unpaired, h₂, h₈]

omit [Scalar α] in
lemma scanText_chars (cs content rest : List Char) :
    (scanText content none none (cs.flatMap Json.escape ++ '"' :: rest) : Scan α) =
      (text (.ok (String.ofList (content.reverse ++ cs))), some rest) := by
  induction cs generalizing content with
  | nil => simp [scanText, unpaired]
  | cons c cs ih =>
    rw [List.flatMap_cons, List.append_assoc, scanText_escape, ih, List.reverse_cons,
      List.append_assoc]
    rfl

omit [Scalar α] in
/-- What is written for a string is scanned as this string. -/
lemma scanText_quote (s : String) (rest : List Char) :
    (scanText [] none none (s.toList.flatMap Json.escape ++ '"' :: rest) : Scan α) =
      (text (.ok s), some rest) := by
  rw [scanText_chars, List.reverse_nil, List.nil_append, String.ofList_toList]

end Outline

/-! ## Values -/

namespace Outline

/-- Nothing but blanks. -/
def Blanks (cs : List Char) : Prop := ∀ c ∈ cs, isBlank c = true

/-- A text in which an outline is found, whatever follows that could not go on a number. -/
structure Spells (t : List Char) (o : Outline α) : Prop where
  begins : ∃ c cs, t = c :: cs ∧ isBlank c = false ∧ c ≠ ']'
  scans : ∀ (n : ℕ) (rest : List Char), t.length ≤ n → EndsNumber rest →
    scanValue n (t ++ rest) = (o, some rest)

section Blanks

variable {pad : List Char}

omit [Scalar α] in
lemma skipBlanks_append (hpad : Blanks pad) (cs : List Char) :
    skipBlanks (pad ++ cs) = skipBlanks cs := by
  rw [skipBlanks, List.dropWhile_append_of_pos hpad]
  rfl

lemma scanValue_blanks (hpad : Blanks pad) (n : ℕ) (cs : List Char) :
    (scanValue n (pad ++ cs) : Scan α) = scanValue n cs := by
  cases n with
  | zero => rfl
  | succ n => rw [scanValue, scanValue, skipBlanks_append hpad]

lemma endsNumber_cons {c : Char} (hc : Codec.isNumberChar c = false) (rest : List Char) :
    EndsNumber (c :: rest) := by
  intro d hd
  obtain rfl : c = d := by simpa using hd
  exact hc

/-- No number goes on with a blank. -/
lemma endsNumber_blanks {c : Char} (hpad : Blanks pad) (hc : Codec.isNumberChar c = false)
    (rest : List Char) : EndsNumber (pad ++ c :: rest) := by
  cases pad with
  | nil => exact endsNumber_cons hc rest
  | cons d pad =>
    refine endsNumber_cons ?_ _
    have hd := hpad d List.mem_cons_self
    rw [← Bool.not_eq_true]
    intro hnumber
    rw [(begins_of_isNumberChar hnumber).1] at hd
    cases hd

end Blanks

namespace Spells

variable {t : List Char} {x : Outline α}

lemma length_pos (h : Spells t x) : 0 < t.length := by
  obtain ⟨c, cs, rfl, -⟩ := h.begins
  exact Nat.succ_pos _

lemma skipBlanks (h : Spells t x) (rest : List Char) : skipBlanks (t ++ rest) = t ++ rest := by
  obtain ⟨c, cs, rfl, hblank, -⟩ := h.begins
  rw [List.cons_append, skipBlanks_cons hblank]

lemma noItem (h : Spells t x) (first : Bool) (rest : List Char) :
    (noItem first (t ++ rest) : Option (Outline α)) = none := by
  obtain ⟨c, cs, rfl, -, hc⟩ := h.begins
  rw [List.cons_append]
  unfold Outline.noItem
  split
  · next h => cases h
  · next h => exact absurd (List.cons.inj h).1 hc
  · rfl

/-- A token is found with any fuel if it is found with some. -/
lemma of_succ (begins : ∃ c cs, t = c :: cs ∧ isBlank c = false ∧ c ≠ ']')
    (h : ∀ (n : ℕ) (rest : List Char), t.length ≤ n + 1 → EndsNumber rest →
      scanValue (n + 1) (t ++ rest) = (x, some rest)) : Spells t x := by
  refine ⟨begins, fun n rest hn hrest => ?_⟩
  obtain ⟨c, cs, rfl, -⟩ := begins
  obtain ⟨n, rfl⟩ : ∃ k, n = k + 1 := ⟨n - 1, by simp at hn; omega⟩
  exact h n rest hn hrest

end Spells

/-! ### Integers -/

lemma scanValue_intNumeral {m : ℤ} (lower : -2 ^ 63 ≤ m) (upper : m < 2 ^ 64)
    (hrest : EndsNumber rest) (n : ℕ) :
    (scanValue (n + 1) ((intNumeral m).toList ++ rest) : Scan α) =
      (number (.ok (.int m)), some rest) := by
  cases m with
  | ofNat k =>
    have hk : k < UInt64.size := by
      simp only [Int.ofNat_eq_natCast] at upper
      exact_mod_cast upper
    obtain ⟨c, cs, hcs⟩ := List.exists_cons_of_ne_nil (leads_digits k).1
    have hc : isDigit c = true := isDigit_of_mem_digits (hcs ▸ List.mem_cons_self)
    have hchars : (intNumeral (.ofNat k)).toList = digits k := by simp [intNumeral, numeral]
    rw [hchars, hcs, List.cons_append, scanValue_of_isDigit hc, ← List.cons_append, ← hcs,
      scanNumber_digits hrest, wholeNumber, if_neg Bool.false_ne_true, if_pos hk]
    rfl
  | negSucc k =>
    have hk : ¬ (k + 1 = 0 ∨ UInt64.size < 2 * (k + 1)) := by
      have hsize : UInt64.size = 2 ^ 64 := rfl
      omega
    have hchars : (intNumeral (.negSucc k)).toList = '-' :: digits (k + 1) := by
      simp [intNumeral, numeral]
    rw [hchars, List.cons_append, scanValue_minus, scanNumber_digits hrest, wholeNumber,
      if_pos rfl, if_neg hk, Int.negSucc_eq]
    rfl

/-! ### Arrays -/

/-- The texts of items after the first one, with blanks in front of each and of the closing
bracket. -/
def joinItems (pad close : List Char) : List (List Char) → List Char
  | [] => close ++ [']']
  | t :: ts => ',' :: (pad ++ (t ++ joinItems pad close ts))

/-- The items of an array.  The induction is on those after the first one. -/
lemma scanItems_joinItems {pad close front : List Char} (hpad : Blanks pad) (hclose : Blanks close)
    (hfront : Blanks front) {t : List Char} {x : Outline α} {items : List (List Char × Outline α)}
    (spells : ∀ i ∈ (t, x) :: items, Spells i.1 i.2) (first : Bool) {n : ℕ}
    (hn : t.length + (joinItems pad close (items.map (·.1))).length ≤ n) (rest : List Char) :
    scanItems first n (front ++ (t ++ (joinItems pad close (items.map (·.1)) ++ rest))) =
      (x :: items.map (·.2), none, some rest) := by
  induction items generalizing t x first n front with
  | nil =>
    have hx : Spells t x := spells (t, x) List.mem_cons_self
    simp only [List.map_nil, joinItems, List.length_append, List.length_singleton] at hn
    obtain ⟨n, rfl⟩ : ∃ k, n = k + 1 := ⟨n - 1, by omega⟩
    have hscan : scanValue n (t ++ (close ++ ']' :: rest)) = (x, some (close ++ ']' :: rest)) :=
      hx.scans n _ (by omega) (endsNumber_blanks hclose (by decide) _)
    rw [scanItems, skipBlanks_append hfront, hx.skipBlanks, hx.noItem, scanValue_blanks hfront]
    simp only [List.map_nil, joinItems, List.append_assoc, List.cons_append, List.nil_append, hscan,
      skipBlanks_append hclose, skipBlanks_cons (show isBlank ']' = false by decide)]
  | cons i items ih =>
    obtain ⟨t', x'⟩ := i
    have hx : Spells t x := spells (t, x) List.mem_cons_self
    have hpos := hx.length_pos
    simp only [List.map_cons, joinItems, List.length_cons, List.length_append] at hn
    obtain ⟨n, rfl⟩ : ∃ k, n = k + 1 := ⟨n - 1, by omega⟩
    have hscan : scanValue n (t ++ ',' ::
        (pad ++ (t' ++ (joinItems pad close (items.map (·.1)) ++ rest)))) = (x, some _) :=
      hx.scans n _ (by omega) (endsNumber_cons (by decide) _)
    have hmore : scanItems false n
        (pad ++ (t' ++ (joinItems pad close (items.map (·.1)) ++ rest))) = _ :=
      ih hpad (fun i hi => spells i (List.mem_cons_of_mem _ hi)) false (by omega)
    rw [scanItems, skipBlanks_append hfront, hx.skipBlanks, hx.noItem, scanValue_blanks hfront]
    simp only [List.map_cons, joinItems, List.cons_append, List.append_assoc, hscan,
      skipBlanks_cons (show isBlank ',' = false by decide), hmore]

/-- An array. -/
lemma Spells.array {pad close : List Char} (hpad : Blanks pad) (hclose : Blanks close)
    {t : List Char} {x : Outline α} {items : List (List Char × Outline α)}
    (spells : ∀ i ∈ (t, x) :: items, Spells i.1 i.2) :
    Spells ('[' :: (pad ++ (t ++ joinItems pad close (items.map (·.1)))))
      (array (x :: items.map (·.2)) none) := by
  refine .of_succ ⟨'[', _, rfl, by decide, by decide⟩ fun n rest hn _ => ?_
  have hx : Spells t x := spells (t, x) List.mem_cons_self
  simp only [List.length_cons, List.length_append] at hn
  have hitems : scanItems true n (t ++ (joinItems pad close (items.map (·.1)) ++ rest)) = _ :=
    scanItems_joinItems hpad hclose (List.forall_mem_nil _) spells true (by omega) rest
  obtain ⟨c, cs, hcs, -, hc⟩ := hx.begins
  simp only [List.cons_append, List.append_assoc, scanValue,
    skipBlanks_cons (show isBlank '[' = false by decide), skipBlanks_append hpad, hx.skipBlanks]
  rw [hcs, List.cons_append] at hitems ⊢
  split
  · next h => exact absurd (List.cons.inj h).1 hc
  · rw [hitems]

/-! ### Objects -/

/-- A member: a key, the text of its value, and the outline of this value. -/
structure Member (α : Type) where
  key : String
  spelling : List Char
  outline : Outline α

/-- The texts of members after the first one, with blanks in front of each and of the closing
brace, and with blanks in front of their values. -/
def joinMembers (pad close gap : List Char) : List (Member α) → List Char
  | [] => close ++ ['\x7d']
  | m :: ms => ',' :: (pad ++ (quote m.key ++ ':' ::
      (gap ++ (m.spelling ++ joinMembers pad close gap ms))))

/-- The outlines of members. -/
def Member.outlines (m : Member α) : Outline α × Outline α := (text (.ok m.key), m.outline)

omit [Scalar α] in
lemma scanKey_quote (k : String) (first : Bool) (scanned : Scan α) (cs : List Char) :
    scanKey first scanned (skipBlanks (quote k ++ cs)) = (text (.ok k), some cs) := by
  rw [quote, List.cons_append, skipBlanks_cons (by decide), List.append_assoc]
  exact scanText_quote k cs

/-- The members of an object.  The induction is on those after the first one. -/
lemma scanMembers_joinMembers {pad close gap front : List Char} (hpad : Blanks pad)
    (hclose : Blanks close) (hgap : Blanks gap) (hfront : Blanks front) {m : Member α}
    {ms : List (Member α)} (spells : ∀ m' ∈ m :: ms, Spells m'.spelling m'.outline) (first : Bool)
    {n : ℕ} (hn : m.spelling.length + (joinMembers pad close gap ms).length ≤ n)
    (rest : List Char) :
    scanMembers first n (front ++ (quote m.key ++ ':' ::
        (gap ++ (m.spelling ++ (joinMembers pad close gap ms ++ rest))))) =
      (m.outlines :: ms.map Member.outlines, none, some rest) := by
  induction ms generalizing m first n front with
  | nil =>
    have hm := spells m List.mem_cons_self
    simp only [joinMembers, List.length_append, List.length_singleton] at hn
    obtain ⟨n, rfl⟩ : ∃ k, n = k + 1 := ⟨n - 1, by omega⟩
    have hscan : scanValue n (m.spelling ++ (close ++ '\x7d' :: rest)) =
        (m.outline, some (close ++ '\x7d' :: rest)) :=
      hm.scans n _ (by omega) (endsNumber_blanks hclose (by decide) _)
    simp only [scanMembers, skipBlanks_append hfront, scanKey_quote,
      skipBlanks_cons (show isBlank ':' = false by decide), scanValue_blanks hgap, joinMembers,
      List.append_assoc, List.cons_append, List.nil_append, hscan, skipBlanks_append hclose,
      skipBlanks_cons (show isBlank '\x7d' = false by decide), List.map_nil, Member.outlines]
  | cons m' ms ih =>
    have hm := spells m List.mem_cons_self
    have hpos := hm.length_pos
    simp only [joinMembers, List.length_cons, List.length_append] at hn
    obtain ⟨n, rfl⟩ : ∃ k, n = k + 1 := ⟨n - 1, by omega⟩
    have hscan : scanValue n (m.spelling ++ ',' :: (pad ++ (quote m'.key ++ ':' ::
        (gap ++ (m'.spelling ++ (joinMembers pad close gap ms ++ rest)))))) = (m.outline, some _) :=
      hm.scans n _ (by omega) (endsNumber_cons (by decide) _)
    have hmore : scanMembers false n (pad ++ (quote m'.key ++ ':' ::
        (gap ++ (m'.spelling ++ (joinMembers pad close gap ms ++ rest))))) = _ :=
      ih hpad (fun x hx => spells x (List.mem_cons_of_mem _ hx)) false (by omega)
    simp only [scanMembers, skipBlanks_append hfront, scanKey_quote,
      skipBlanks_cons (show isBlank ':' = false by decide), scanValue_blanks hgap, joinMembers,
      List.append_assoc, List.cons_append, hscan,
      skipBlanks_cons (show isBlank ',' = false by decide), hmore, List.map_cons, Member.outlines]

/-- An object. -/
lemma Spells.object {pad close gap : List Char} (hpad : Blanks pad) (hclose : Blanks close)
    (hgap : Blanks gap) {m : Member α} {ms : List (Member α)}
    (spells : ∀ m' ∈ m :: ms, Spells m'.spelling m'.outline) :
    Spells ('\x7b' :: (pad ++ (quote m.key ++ ':' ::
        (gap ++ (m.spelling ++ joinMembers pad close gap ms)))))
      (object (m.outlines :: ms.map Member.outlines) none) := by
  refine .of_succ ⟨'\x7b', _, rfl, by decide, by decide⟩ fun n rest hn _ => ?_
  simp only [List.length_cons, List.length_append] at hn
  have hmembers : scanMembers true n
      (quote m.key ++ ':' :: (gap ++ (m.spelling ++ (joinMembers pad close gap ms ++ rest)))) = _ :=
    scanMembers_joinMembers hpad hclose hgap (List.forall_mem_nil _) spells true (by omega) rest
  have hquote : ∀ cs, Outline.skipBlanks (quote m.key ++ cs) = quote m.key ++ cs := fun cs =>
    skipBlanks_cons (show isBlank '"' = false by decide) _
  simp only [List.cons_append, List.append_assoc, scanValue,
    skipBlanks_cons (show isBlank '\x7b' = false by decide), skipBlanks_append hpad, hquote]
  split
  · next h => exact absurd (List.cons.inj h).1 (by decide)
  · rw [hmembers]

/-! ### Values that are already there -/

omit [Scalar α] in
lemma ofJsonItems_eq_map (xs : List (Json α)) : ofJsonItems xs = xs.map ofJson := by
  induction xs with
  | nil => rfl
  | cons x xs ih => rw [ofJsonItems, ih, List.map_cons]

omit [Scalar α] in
lemma ofJsonMembers_eq_map (ms : List (String × Json α)) :
    ofJsonMembers ms = ms.map fun m => (text (.ok m.1), ofJson m.2) := by
  induction ms with
  | nil => rfl
  | cons m ms ih => rw [ofJsonMembers, ih, List.map_cons]

variable {pad close gap : List Char} {f : Json α → List Char}

/-- An array whose items are written in some way. -/
lemma Spells.arr (hpad : Blanks pad) (hclose : Blanks close) {x : Json α} {xs : List (Json α)}
    (spells : ∀ y ∈ x :: xs, Spells (f y) (ofJson y)) :
    Spells ('[' :: (pad ++ (f x ++ joinItems pad close (xs.map f)))) (ofJson (.arr (x :: xs))) := by
  have hitems : ∀ i ∈ (f x, ofJson x) :: xs.map (fun y => (f y, ofJson y)), Spells i.1 i.2 := by
    simpa using spells
  simpa [ofJson, ofJsonItems, ofJsonItems_eq_map, Function.comp_def] using
    Spells.array hpad hclose hitems

/-- The member that a value is for a key, if it is written in some way. -/
def memberOf (f : Json α → List Char) (m : String × Json α) : Member α := ⟨m.1, f m.2, ofJson m.2⟩

/-- An object whose values are written in some way. -/
lemma Spells.obj (hpad : Blanks pad) (hclose : Blanks close) (hgap : Blanks gap)
    {m : String × Json α} {ms : List (String × Json α)}
    (spells : ∀ m' ∈ m :: ms, Spells (f m'.2) (ofJson m'.2)) :
    Spells ('\x7b' :: (pad ++ (quote m.1 ++ ':' :: (gap ++ (f m.2 ++
      joinMembers pad close gap (ms.map (memberOf f))))))) (ofJson (.obj (m :: ms))) := by
  have hmembers : ∀ m' ∈ memberOf f m :: ms.map (memberOf f), Spells m'.spelling m'.outline := by
    rw [← List.map_cons, List.forall_mem_map]
    exact spells
  simpa [ofJson, ofJsonMembers, ofJsonMembers_eq_map, memberOf, Member.outlines, Function.comp_def]
    using Spells.object hpad hclose hgap hmembers

end Outline

open Outline

namespace Json

/-- What is written for a value without blanks is scanned as the outline of this value. -/
def Scanned (v : Json α) : Prop := Spells (compactChars v) (ofJson v)

/-! ### Leaves -/

lemma scanned_null : (.null : Json α).Scanned :=
  .of_succ ⟨'n', _, rfl, by decide, by decide⟩ fun _ _ _ _ => rfl

lemma scanned_bool (b : Bool) : (.bool b : Json α).Scanned := by
  cases b with
  | true => exact .of_succ ⟨'t', _, rfl, by decide, by decide⟩ fun _ _ _ _ => rfl
  | false => exact .of_succ ⟨'f', _, rfl, by decide, by decide⟩ fun _ _ _ _ => rfl

/-- What consists of characters of numbers begins like a value. -/
lemma begins_of_forall_isNumberChar {cs : List Char} (hne : cs ≠ [])
    (hcs : ∀ c ∈ cs, Codec.isNumberChar c = true) :
    ∃ c cs', cs = c :: cs' ∧ isBlank c = false ∧ c ≠ ']' := by
  obtain ⟨c, cs, rfl⟩ := List.exists_cons_of_ne_nil hne
  exact ⟨c, cs, rfl, begins_of_isNumberChar (hcs c List.mem_cons_self)⟩

lemma scanned_int {n : ℤ} (lower : -2 ^ 63 ≤ n) (upper : n < 2 ^ 64) :
    (.int n : Json α).Scanned := by
  refine .of_succ ?_ fun k rest _ hrest => scanValue_intNumeral lower upper hrest k
  cases n with
  | ofNat k =>
    simpa [compactChars, intNumeral, numeral] using begins_of_forall_isNumberChar
      (leads_digits k).1 fun c hc => isNumberChar_of_mem_digits hc
  | negSucc k =>
    refine ⟨'-', digits (k + 1), ?_, by decide, by decide⟩
    simp [compactChars, intNumeral, numeral]

lemma scanned_num {x : α} (reads : Scalar.ReadsBack x) : (.num x : Json α).Scanned := by
  refine .of_succ ?_ fun k rest _ hrest => scanValue_jsonText reads hrest k
  refine begins_of_forall_isNumberChar (fun hnil => ?_) reads.chars
  have hscan := reads.scan
  rw [show (Scalar.jsonText x).toList = [] from hnil] at hscan
  cases hscan

lemma scanned_str (s : String) : (.str s : Json α).Scanned := by
  refine .of_succ ⟨'"', _, rfl, by decide, by decide⟩ fun n rest _ _ => ?_
  rw [compactChars, quote, List.cons_append, List.append_assoc]
  exact scanText_quote s rest

lemma scanned_arr_nil : (.arr [] : Json α).Scanned :=
  .of_succ ⟨'[', _, rfl, by decide, by decide⟩ fun _ _ _ _ => rfl

lemma scanned_obj_nil : (.obj [] : Json α).Scanned :=
  .of_succ ⟨'\x7b', _, rfl, by decide, by decide⟩ fun _ _ _ _ => rfl

/-! ### Both layouts -/

lemma compactItems_eq (xs : List (Json α)) :
    compactItems xs = joinItems [] [] (xs.map compactChars) := by
  induction xs with
  | nil => rfl
  | cons x xs ih => simp [compactItems, joinItems, ih]

lemma compactMembers_eq (ms : List (String × Json α)) :
    compactMembers ms = joinMembers [] [] [] (ms.map (memberOf compactChars)) := by
  induction ms with
  | nil => rfl
  | cons m ms ih => simp [compactMembers, joinMembers, memberOf, ih]

/-- **Values that are written without blanks are scanned again.** -/
theorem Legible.scanned {v : Json α} (hv : v.Legible) : v.Scanned := by
  have hnil : Blanks [] := List.forall_mem_nil _
  induction hv with
  | null => exact scanned_null
  | bool b => exact scanned_bool b
  | int lower upper => exact scanned_int lower upper
  | num reads => exact scanned_num reads
  | str s => exact scanned_str s
  | @arr items _ ih =>
    cases items with
    | nil => exact scanned_arr_nil
    | cons x xs =>
      rw [Scanned, compactChars, compactItems_eq]
      exact Spells.arr hnil hnil ih
  | @obj members _ ih =>
    cases members with
    | nil => exact scanned_obj_nil
    | cons m ms =>
      rw [Scanned, compactChars, compactMembers_eq]
      exact Spells.obj hnil hnil hnil ih

lemma blanks_newline (level : ℕ) : Blanks (newline level) := by
  intro c hc
  rcases List.mem_cons.mp hc with rfl | hc
  · decide
  · rw [List.eq_of_mem_replicate hc]
    decide

lemma prettyItems_eq (level : ℕ) (xs : List (Json α)) : prettyItems level xs =
    joinItems (newline (level + 1)) (newline level) (xs.map (prettyChars (level + 1))) := by
  induction xs with
  | nil => rfl
  | cons x xs ih => simp [prettyItems, joinItems, ih]

lemma prettyMembers_eq (level : ℕ) (ms : List (String × Json α)) : prettyMembers level ms =
    joinMembers (newline (level + 1)) (newline level) [' ']
      (ms.map (memberOf (prettyChars (level + 1)))) := by
  induction ms with
  | nil => rfl
  | cons m ms ih => simp [prettyMembers, joinMembers, memberOf, ih]

/-- **Values that are written on many lines are scanned again.** -/
theorem Legible.spells_pretty {v : Json α} (hv : v.Legible) (level : ℕ) :
    Spells (prettyChars level v) (ofJson v) := by
  have hspace : Blanks [' '] := by simp [Blanks, isBlank]
  induction hv generalizing level with
  | null => exact scanned_null
  | bool b =>
    have hb : (.bool b : Json α).Scanned := scanned_bool b
    cases b <;> exact hb
  | int lower upper => exact scanned_int lower upper
  | num reads => exact scanned_num reads
  | str s => exact scanned_str s
  | @arr items _ ih =>
    cases items with
    | nil => exact scanned_arr_nil
    | cons x xs =>
      rw [prettyChars, prettyItems_eq]
      exact Spells.arr (blanks_newline _) (blanks_newline _) fun y hy => ih y hy (level + 1)
  | @obj members _ ih =>
    cases members with
    | nil => exact scanned_obj_nil
    | cons m ms =>
      rw [prettyChars, prettyMembers_eq]
      exact Spells.obj (blanks_newline _) (blanks_newline _) hspace fun y hy => ih y hy (level + 1)

lemma Legible.length_pos {v : Json α} (hv : v.Legible) : 0 < (compactChars v).length :=
  Spells.length_pos hv.scanned

/-- A text that spells a value has its outline, and nothing follows it. -/
lemma scan_of_spells {t : List Char} {o : Outline α} (h : Spells t o) : scan t = (o, some []) := by
  have hscan := h.scans (2 * t.length + 2) [] (by omega) (by simp [EndsNumber])
  rwa [List.append_nil] at hscan

/-- The text of a value has the outline of the value, and nothing follows it. -/
theorem Legible.scan_compact {v : Json α} (hv : v.Legible) :
    scan v.compact.toList = (ofJson v, some []) := by
  rw [compact, String.toList_ofList]
  exact scan_of_spells hv.scanned

/-- So does the text on many lines. -/
theorem Legible.scan_pretty {v : Json α} (hv : v.Legible) :
    scan v.pretty.toList = (ofJson v, some []) := by
  rw [pretty, String.toList_ofList]
  exact scan_of_spells (hv.spells_pretty 0)

/-! ## Line breaks -/

lemma newline_notMem_escape (c : Char) : '\n' ∉ escape c := by
  have hhex : ∀ width n, '\n' ∉ Text.toHex width n := by
    intro width n
    induction width generalizing n with
    | zero => simp [Text.toHex]
    | succ width ih =>
      have hlast : ∀ d : Fin 16, '\n' ≠ Text.hexChar d.val := by decide
      have hdigit := hlast ⟨n % 16, Nat.mod_lt n (by decide)⟩
      simp [Text.toHex, ih, hdigit]
  unfold escape
  split_ifs with h₁ h₂ h₃
  case neg => simpa using fun h => h₃ h.symm
  all_goals simp [hhex]

lemma newline_notMem_quote (s : String) : '\n' ∉ quote s := by
  simp [quote, newline_notMem_escape]

lemma newline_notMem_of_isNumberChar {cs : List Char}
    (h : ∀ c ∈ cs, Codec.isNumberChar c = true) : '\n' ∉ cs := by
  intro hmem
  exact absurd (h _ hmem) (by decide)

lemma newline_notMem_compactItems {xs : List (Json α)} (h : ∀ x ∈ xs, '\n' ∉ compactChars x) :
    '\n' ∉ compactItems xs := by
  induction xs with
  | nil => simp [compactItems]
  | cons x xs ih =>
    have hrest := ih fun y hy => h y (List.mem_cons_of_mem _ hy)
    simp [compactItems, h x List.mem_cons_self, hrest]

lemma newline_notMem_compactMembers {ms : List (String × Json α)}
    (h : ∀ m ∈ ms, '\n' ∉ compactChars m.2) : '\n' ∉ compactMembers ms := by
  induction ms with
  | nil => simp [compactMembers]
  | cons m ms ih =>
    have hrest := ih fun y hy => h y (List.mem_cons_of_mem _ hy)
    simp [compactMembers, newline_notMem_quote, h m List.mem_cons_self, hrest]

/-- The text of a value is a single line, whatever strings it has. -/
theorem Legible.newline_notMem {v : Json α} (hv : v.Legible) : '\n' ∉ compactChars v := by
  have hdigits : ∀ n, '\n' ∉ digits n := fun n =>
    newline_notMem_of_isNumberChar fun c hc => isNumberChar_of_mem_digits hc
  induction hv with
  | null => simp [compactChars]
  | bool b => cases b <;> simp [compactChars]
  | @int n _ _ => cases n <;> simp [compactChars, intNumeral, numeral, hdigits]
  | num reads => exact newline_notMem_of_isNumberChar reads.chars
  | str s => exact newline_notMem_quote s
  | @arr items _ ih =>
    cases items with
    | nil => simp [compactChars]
    | cons x xs =>
      have hrest := newline_notMem_compactItems fun y hy => ih y (List.mem_cons_of_mem _ hy)
      simp [compactChars, ih x List.mem_cons_self, hrest]
  | @obj members _ ih =>
    cases members with
    | nil => simp [compactChars]
    | cons m ms =>
      have hrest := newline_notMem_compactMembers fun y hy => ih y (List.mem_cons_of_mem _ hy)
      simp [compactChars, newline_notMem_quote, ih m List.mem_cons_self, hrest]

end Json

end Punter
