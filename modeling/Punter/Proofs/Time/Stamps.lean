/-
# Timestamps are read again

A timestamp that was read is written as a text that is read as the same timestamp
(`Timestamp.parse?_text`), in whatever form and with whatever offset it was given: leap seconds
remain leap seconds, and years before the first or after the last with four digits keep their sign.

The parts of the text are numerals of a fixed width and marks between them, each of which is read
back on its own; that they fit together again is a matter of the calendar.
-/
import Mathlib
import Punter.Proofs.Time.Calendar
import Punter.Proofs.Files.Kept
import Punter.Time.Timestamp

namespace Punter

open Number Text

/-! ## Numerals of a width -/

namespace Number

/-- A run of digits. -/
structure Run (ds : List Char) : Prop where
  ne_nil : ds ≠ []
  digit : ∀ c ∈ ds, isDigit c = true

lemma length_digits_le {width n : ℕ} (hwidth : 0 < width) (hn : n < 10 ^ width) :
    (digits n).length ≤ width := by
  induction width generalizing n with
  | zero => omega
  | succ width ih =>
    rw [digits]
    split_ifs with h
    · simp
    · have hpos : 0 < width := by
        rcases Nat.eq_zero_or_pos width with rfl | hpos
        · omega
        · exact hpos
      have hdiv : n / 10 < 10 ^ width := by rw [pow_succ] at hn; omega
      simpa using ih hpos hdiv

lemma digits_ne_nil (n : ℕ) : digits n ≠ [] := by
  rw [digits]
  split_ifs <;> simp

lemma run_paddedNumeral (width n : ℕ) : Run (paddedNumeral width n).toList := by
  simp only [paddedNumeral, String.toList_ofList]
  refine ⟨by simp [digits_ne_nil], fun c hc => ?_⟩
  rcases List.mem_append.mp hc with hc | hc
  · rw [List.eq_of_mem_replicate hc]
    decide
  · exact isDigit_of_mem_digits hc

lemma ofDigits_paddedNumeral (width n : ℕ) : ofDigits (paddedNumeral width n).toList = n := by
  simp only [paddedNumeral, String.toList_ofList, ofDigits_zeros, ofDigits_digits]

lemma length_paddedNumeral {width n : ℕ} (hwidth : 0 < width) (hn : n < 10 ^ width) :
    (paddedNumeral width n).toList.length = width := by
  have hlength := length_digits_le hwidth hn
  simp only [paddedNumeral, String.toList_ofList, List.length_append, List.length_replicate]
  omega

/-- A run of digits denotes a number of at most as many digits. -/
lemma ofDigits_lt {ds : List Char} (h : ∀ c ∈ ds, isDigit c = true) :
    ofDigits ds < 10 ^ ds.length := by
  have hvalue : ∀ {c}, isDigit c = true → digitValue c < 10 := by
    intro c hc
    simp only [isDigit, Bool.and_eq_true, decide_eq_true_eq, Char.le_def] at hc
    have hupper : c.toNat ≤ 57 := hc.2
    unfold digitValue
    omega
  induction ds using List.reverseRecOn with
  | nil => simp [ofDigits]
  | append_singleton ds c ih =>
    have hc := hvalue (h c (by simp))
    have hds := ih fun d hd => h d (by simp [hd])
    simp only [ofDigits, List.foldl_append, List.foldl_cons, List.foldl_nil, List.length_append,
      List.length_singleton, pow_succ] at hds ⊢
    omega

end Number

namespace Timestamp

open Duration (nanosPerSecond)

/-! ## Parts of a text -/

lemma isBlank_of_isDigit {c : Char} (hc : isDigit c = true) : isBlank c = false := by
  simp only [isDigit, Bool.and_eq_true, decide_eq_true_eq, Char.le_def] at hc
  have hlower : 48 ≤ c.toNat := hc.1
  have hupper : c.toNat ≤ 57 := hc.2
  simp [isBlank]
  omega

lemma trimStart_cons {c : Char} (hc : isBlank c = false) (cs : List Char) :
    trimStart (c :: cs) = c :: cs := by
  simp [trimStart, hc]

variable {ds rest : List Char}

lemma trimStart_run (h : Run ds) : trimStart (ds ++ rest) = ds ++ rest := by
  obtain ⟨c, cs, rfl⟩ := List.exists_cons_of_ne_nil h.ne_nil
  exact trimStart_cons (isBlank_of_isDigit (h.digit c List.mem_cons_self)) _

/-- Digits up to a character that is none. -/
lemma takeWhile_run {c : Char} (h : Run ds) (hc : isDigit c = false) :
    (ds ++ c :: rest).takeWhile isDigit = ds := by
  rw [List.takeWhile_append_of_pos h.digit, List.takeWhile_cons, hc]
  simp

lemma dropWhile_run {c : Char} (h : Run ds) (hc : isDigit c = false) :
    (ds ++ c :: rest).dropWhile isDigit = c :: rest := by
  rw [List.dropWhile_append_of_pos h.digit, List.dropWhile_cons, hc]
  simp

/-- Digits of a given number are read, whatever follows. -/
lemma readDigits_run {width : ℕ} (h : Run ds) (hlength : ds.length = width) :
    readDigits width (ds ++ rest) = some (ofDigits ds, rest) := by
  have htake : ((ds ++ rest).take width).takeWhile isDigit = ds := by
    rw [← hlength, List.take_left, List.takeWhile_eq_self_iff]
    exact h.digit
  simp only [readDigits]
  rw [htake, if_neg (by simp [h.ne_nil]), List.drop_left]

lemma readNumber_paddedNumeral {n : ℕ} (hn : n < 100) :
    readNumber 2 ((paddedNumeral 2 n).toList ++ rest) = some (n, rest) := by
  have hrun := run_paddedNumeral 2 n
  rw [readNumber, trimStart_run hrun, readDigits_run hrun (length_paddedNumeral (by decide) hn),
    ofDigits_paddedNumeral]

lemma readMark_cons {c : Char} (hc : isBlank c = false) : readMark c (c :: rest) = some rest := by
  simp [readMark, trimStart_cons hc]

/-- All digits of a year with a sign are read. -/
lemma readDigits_signed {n : ℕ} {c : Char} (hc : isDigit c = false) :
    readDigits ((paddedNumeral 4 n).toList ++ c :: rest).length
      ((paddedNumeral 4 n).toList ++ c :: rest) = some (n, c :: rest) := by
  have hrun := run_paddedNumeral 4 n
  simp only [readDigits, List.take_length]
  rw [takeWhile_run hrun hc, if_neg (by simp [hrun.ne_nil]), List.drop_left,
    ofDigits_paddedNumeral]

lemma readYear_minus (cs : List Char) :
    readYear ('-' :: cs) = (readDigits cs.length cs).map fun (n, rest) => (-(n : ℤ), rest) := by
  simp only [readYear, trimStart_cons (show isBlank '-' = false by decide)]

lemma readYear_plus (cs : List Char) :
    readYear ('+' :: cs) = (readDigits cs.length cs).map fun (n, rest) => ((n : ℤ), rest) := by
  simp only [readYear, trimStart_cons (show isBlank '+' = false by decide)]

lemma readYear_yearText (year : ℤ) :
    readYear ((yearText year).toList ++ '-' :: rest) = some (year, '-' :: rest) := by
  have hdash : isDigit '-' = false := by decide
  unfold yearText
  split_ifs with hfour hneg
  · -- four digits without a sign
    have hrun := run_paddedNumeral 4 year.toNat
    have hread : readDigits 4 ((paddedNumeral 4 year.toNat).toList ++ '-' :: rest) =
        some (year.toNat, '-' :: rest) := by
      rw [readDigits_run hrun (length_paddedNumeral (by decide) (by omega)),
        ofDigits_paddedNumeral]
    obtain ⟨c, cs, hcs⟩ := List.exists_cons_of_ne_nil hrun.ne_nil
    have hc : isDigit c = true := hrun.digit c (hcs ▸ List.mem_cons_self)
    simp only [readYear, trimStart_run hrun]
    split
    · next h =>
      rw [hcs] at h
      obtain ⟨rfl, -⟩ := List.cons.inj h
      cases hc
    · next h =>
      rw [hcs] at h
      obtain ⟨rfl, -⟩ := List.cons.inj h
      cases hc
    · rw [hread]
      simp [Int.toNat_of_nonneg hfour.1]
  · have htext : ("-" ++ paddedNumeral 4 year.natAbs).toList ++ '-' :: rest =
        '-' :: ((paddedNumeral 4 year.natAbs).toList ++ '-' :: rest) := by simp
    have hyear : -(year.natAbs : ℤ) = year := by omega
    rw [htext, readYear_minus, readDigits_signed hdash]
    simp only [Option.map_some, hyear]
  · have htext : ("+" ++ paddedNumeral 4 year.natAbs).toList ++ '-' :: rest =
        '+' :: ((paddedNumeral 4 year.natAbs).toList ++ '-' :: rest) := by simp
    have hyear : (year.natAbs : ℤ) = year := by omega
    rw [htext, readYear_plus, readDigits_signed hdash]
    simp only [Option.map_some, hyear]

/-- Places of a second that are written as `digits` digits. -/
lemma readFraction_places {places n : ℕ} (hplaces : 0 < places) (hnine : places ≤ 9)
    (hn : n < 10 ^ places) :
    readFraction ('.' :: ((paddedNumeral places n).toList ++ 'Z' :: rest)) =
      some (n * 10 ^ (9 - places), 'Z' :: rest) := by
  have hz : isDigit 'Z' = false := by decide
  have hrun := run_paddedNumeral places n
  have hlength := length_paddedNumeral hplaces hn
  have htake : (paddedNumeral places n).toList.take 9 = (paddedNumeral places n).toList :=
    List.take_of_length_le (hlength.trans_le hnine)
  simp only [readFraction]
  rw [takeWhile_run hrun hz, dropWhile_run hrun hz, htake, if_neg (by simp [hrun.ne_nil]), hlength,
    ofDigits_paddedNumeral]

lemma readFraction_fractionText {nanos : ℕ} (h : nanos < 10 ^ 9) :
    readFraction ((fractionText nanos).toList ++ 'Z' :: rest) = some (nanos, 'Z' :: rest) := by
  have htext : ∀ s : String,
      ("." ++ s).toList ++ 'Z' :: rest = '.' :: (s.toList ++ 'Z' :: rest) := by
    simp
  unfold fractionText
  split_ifs with hzero hmilli hmicro
  · simp [readFraction, hzero]
  · rw [htext, readFraction_places (by decide) (by decide) (by omega)]
    congr
    omega
  · rw [htext, readFraction_places (by decide) (by decide) (by omega)]
    congr
    omega
  · rw [htext, readFraction_places (by decide) (by decide) h]
    simp

/-! ## Whole timestamps -/

/-- A timestamp as readers give them: in a year that there is, and with a second of more than
`10 ^ 9` nanoseconds only where a minute may have a leap second. -/
structure Regular (t : Timestamp) : Prop where
  year : inRange t.year = true
  nanos_lt : t.nanos < 2 * nanosPerSecond
  leap : nanosPerSecond ≤ t.nanos → t.seconds % 60 = 59

/-- The day of a timestamp. -/
def date (t : Timestamp) : Date := Date.ofDays (t.seconds / daySeconds)

/-- The time of day of a timestamp. -/
def clock (t : Timestamp) : Clock :=
  let rest := (t.seconds % daySeconds).toNat
  ⟨rest / 3600, rest / 60 % 60, rest % 60 + t.nanos / nanosPerSecond, t.nanos % nanosPerSecond⟩

variable {t : Timestamp}

lemma toList_text (t : Timestamp) : t.text.toList =
    (yearText t.date.year).toList ++ '-' :: ((paddedNumeral 2 t.date.month).toList ++
      '-' :: ((paddedNumeral 2 t.date.day).toList ++ 'T' ::
        ((paddedNumeral 2 t.clock.hour).toList ++ ':' :: ((paddedNumeral 2 t.clock.minute).toList ++
          ':' :: ((paddedNumeral 2 t.clock.second).toList ++
            ((fractionText t.clock.nanos).toList ++ ['Z'])))))) := by
  simp [text, date, clock]

lemma readDate_text {year : ℤ} {month day : ℕ} (hmonth : month < 100) (hday : day < 100) :
    readDate ((yearText year).toList ++ '-' :: ((paddedNumeral 2 month).toList ++
      '-' :: ((paddedNumeral 2 day).toList ++ rest))) = some (⟨year, month, day⟩, rest) := by
  have hdash : isBlank '-' = false := by decide
  simp only [readDate, readYear_yearText, Option.bind_eq_bind, Option.bind_some,
    readMark_cons hdash, readNumber_paddedNumeral hmonth, readNumber_paddedNumeral hday]
  rfl

lemma readClock_text {hour minute second nanos : ℕ} (hhour : hour < 100) (hminute : minute < 100)
    (hsecond : second < 100) (hnanos : nanos < 10 ^ 9) :
    readClock ((paddedNumeral 2 hour).toList ++ ':' :: ((paddedNumeral 2 minute).toList ++
      ':' :: ((paddedNumeral 2 second).toList ++ ((fractionText nanos).toList ++ 'Z' :: rest)))) =
      some (⟨hour, minute, second, nanos⟩, 'Z' :: rest) := by
  have hcolon : isBlank ':' = false := by decide
  simp only [readClock, readNumber_paddedNumeral hhour, Option.bind_eq_bind, Option.bind_some,
    readMark_cons hcolon, readNumber_paddedNumeral hminute, readNumber_paddedNumeral hsecond,
    readFraction_fractionText hnanos]
  rfl

lemma Clock.isValid_iff {c : Clock} :
    c.isValid = true ↔ c.hour < 24 ∧ c.minute < 60 ∧ c.second < 61 := by
  simp [isValid, and_assoc]

lemma Regular.clock_isValid (h : t.Regular) : t.clock.isValid = true := by
  have hnanos := h.nanos_lt
  have hleap := h.leap
  rw [Clock.isValid_iff]
  simp only [clock, daySeconds, nanosPerSecond] at hnanos hleap ⊢
  omega

/-- A timestamp is the moment of its day and its time of day. -/
lemma Regular.ofParts_eq (h : t.Regular) : ofParts t.date t.clock 0 = t := by
  have hdays : t.date.toDays = t.seconds / daySeconds := (Date.ofDays_spec _).2
  have hnanos := h.nanos_lt
  have hleap := h.leap
  have hseconds : (ofParts t.date t.clock 0).seconds = t.seconds := by
    simp only [ofParts, hdays, clock, daySeconds, nanosPerSecond] at hnanos hleap ⊢
    omega
  have hplaces : (ofParts t.date t.clock 0).nanos = t.nanos := by
    simp only [ofParts]
    split_ifs with hsixty
    · simp only [clock, daySeconds, nanosPerSecond] at hnanos hleap hsixty ⊢
      omega
    · simp only [clock, daySeconds, nanosPerSecond] at hnanos hleap hsixty ⊢
      omega
  calc ofParts t.date t.clock 0
      = ⟨(ofParts t.date t.clock 0).seconds, (ofParts t.date t.clock 0).nanos⟩ := rfl
    _ = t := by rw [hseconds, hplaces]

/-- A regular timestamp is read from its text. -/
lemma Regular.parse?_text (h : t.Regular) : parse? t.text = some t := by
  have hvalid : t.date.isValid = true := (Date.ofDays_spec _).1
  have hday : t.date.month < 100 ∧ t.date.day < 100 := by
    have hlength : Date.monthLength t.date.year t.date.month ≤ 31 := by
      unfold Date.monthLength
      split_ifs <;> omega
    simp only [Date.isValid, Bool.and_eq_true, decide_eq_true_eq] at hvalid
    omega
  have hclock := h.clock_isValid
  have hparts : t.clock.hour < 100 ∧ t.clock.minute < 100 ∧ t.clock.second < 100 := by
    rw [Clock.isValid_iff] at hclock
    omega
  have hnanos : t.clock.nanos < 10 ^ 9 := Nat.mod_lt _ (by decide)
  have hoffset : readOffset (trimStart ['Z']) = some (0, []) := rfl
  have hyear : inRange t.date.year = true := h.year
  simp only [parse?, toList_text, readDate_text hday.1 hday.2, readBreak, true_or, if_true,
    readClock_text hparts.1 hparts.2.1 hparts.2.2 hnanos, Option.bind_eq_bind, Option.bind_some,
    hoffset, h.ofParts_eq, h.year, hyear, hvalid, hclock]
  rfl

/-- An offset is a number of minutes. -/
lemma readOffset_mod {cs rest : List Char} {offset : ℤ} (h : readOffset cs = some (offset, rest)) :
    offset % 60 = 0 := by
  unfold readOffset at h
  extract_lets signed at h
  have hsigned : ∀ {negative cs}, signed negative cs = some (offset, rest) → offset % 60 = 0 := by
    intro negative cs h
    obtain ⟨⟨hours, cs₁⟩, -, h⟩ := Option.bind_eq_some_iff.mp h
    obtain ⟨⟨minutes, cs₂⟩, -, h⟩ := Option.bind_eq_some_iff.mp h
    dsimp only at h
    by_cases hout : 24 ≤ hours ∨ 60 ≤ minutes
    · rw [if_pos hout] at h
      cases h
    · rw [if_neg hout] at h
      obtain ⟨rfl, -⟩ := Prod.mk.inj (Option.some.inj h)
      split_ifs <;> omega
  split at h
  · cases h
    rfl
  · cases h
    rfl
  · exact hsigned h
  · exact hsigned h
  · exact hsigned h
  · split_ifs at h
    cases h
    rfl
  · cases h

lemma readFraction_lt {cs rest : List Char} {nanos : ℕ} (h : readFraction cs = some (nanos, rest)) :
    nanos < 10 ^ 9 := by
  unfold readFraction at h
  split at h
  · next places =>
    dsimp only at h
    split_ifs at h
    cases h
    set kept := (places.takeWhile isDigit).take 9 with hkept
    have hdigits : ∀ c ∈ kept, isDigit c = true := fun c hc =>
      List.mem_takeWhile_imp (List.mem_of_mem_take hc)
    have hlength : kept.length ≤ 9 := by simp [hkept]
    calc ofDigits kept * 10 ^ (9 - kept.length)
        < 10 ^ kept.length * 10 ^ (9 - kept.length) :=
          Nat.mul_lt_mul_of_pos_right (ofDigits_lt hdigits) (by positivity)
      _ = 10 ^ 9 := by rw [← pow_add, Nat.add_sub_of_le hlength]
  · cases h
    decide

lemma regular_of_parse? {s : String} (h : parse? s = some t) : t.Regular := by
  obtain ⟨⟨date, cs₁⟩, -, h⟩ := Option.bind_eq_some_iff.mp h
  obtain ⟨cs₂, -, h⟩ := Option.bind_eq_some_iff.mp h
  obtain ⟨⟨clock, cs₃⟩, hclock, h⟩ := Option.bind_eq_some_iff.mp h
  obtain ⟨⟨offset, cs₄⟩, hoffset, h⟩ := Option.bind_eq_some_iff.mp h
  dsimp only at h
  split_ifs at h with hvalid
  simp only [Bool.and_eq_true, Clock.isValid_iff] at hvalid
  obtain rfl : ofParts date clock offset = t := Option.some.inj h
  have hminutes := readOffset_mod hoffset
  have hnanos : clock.nanos < 10 ^ 9 := by
    obtain ⟨⟨hour, cs₁⟩, -, hclock⟩ := Option.bind_eq_some_iff.mp hclock
    obtain ⟨cs₂, -, hclock⟩ := Option.bind_eq_some_iff.mp hclock
    obtain ⟨⟨minute, cs₃⟩, -, hclock⟩ := Option.bind_eq_some_iff.mp hclock
    obtain ⟨cs₄, -, hclock⟩ := Option.bind_eq_some_iff.mp hclock
    obtain ⟨⟨second, cs₅⟩, -, hclock⟩ := Option.bind_eq_some_iff.mp hclock
    obtain ⟨⟨nanos, cs₆⟩, hnanos, hclock⟩ := Option.bind_eq_some_iff.mp hclock
    cases hclock
    exact readFraction_lt hnanos
  refine ⟨hvalid.2, ?_, ?_⟩
  · simp only [ofParts, nanosPerSecond]
    split_ifs
    · omega
    · omega
  · simp only [ofParts, nanosPerSecond, daySeconds]
    split_ifs
    · omega
    · omega

/-- **Timestamps are read again** from the texts that are written for them. -/
theorem parse?_text {s : String} (h : parse? s = some t) : parse? t.text = some t :=
  (regular_of_parse? h).parse?_text

end Timestamp

end Punter
