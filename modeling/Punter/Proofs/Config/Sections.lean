/-
# Configurations that were read can be written

Every section of a configuration is stable (`Codec.Stable`), and so is the whole.  A section that is
missing has its standard value, which is kept because it is what is read from an object without
members (`Codec.Stable.keeps_of_bare`); so only single fields need to be looked at.

The section about retries is no record of the usual kind: its fatal codes are picked out first, and
its other members are set aside and read as the fields of a backoff.
-/
import Mathlib
import Punter.Proofs.Service.Codes
import Punter.Proofs.Service.Wire
import Punter.Config.Basic

namespace Punter

open Codec

variable {α T : Type} [Scalar α] {r r' : Reading}

/-- What is read from an object without members is kept. -/
lemma Codec.Stable.keeps_of_bare {c : Codec α T} (h : c.Stable r) {v : T}
    (hread : c.read r (.object [] none) = .ok v) : c.Keeps r v :=
  h.keeps (fun _ hn => by simp [Outline.numbers, Outline.numbersMembers] at hn) hread

/-! ## Lengths of time -/

namespace Duration

lemma millis_ofMillis (n : ℕ) : (ofMillis n).millis = n :=
  Nat.mul_div_cancel n (by decide : 0 < nanosPerMilli)

lemma keeps_millisCodec {n : ℕ} (hn : n < UInt64.size) :
    (millisCodec : Codec α Duration).Keeps r (.ofMillis n) := by
  have hwrite : (millisCodec : Codec α Duration).write (.ofMillis n) = count64.write n := by
    simp only [millisCodec, millis_ofMillis, Nat.mod_eq_of_lt hn]
    rfl
  obtain ⟨legible, recovers⟩ : (count64 : Codec α ℕ).Keeps r n :=
    keeps_count (Nat.le_sub_one_of_lt hn) (by decide)
  have hread : (count64 : Codec α ℕ).read r (.ofJson (count64.write n)) = .ok n := recovers
  refine ⟨hwrite ▸ legible, ?_⟩
  rw [Recovers, hwrite]
  simp only [millisCodec, hread]
  rfl

lemma stable_millisCodec : (millisCodec : Codec α Duration).Stable r where
  keeps sound hread := by
    obtain ⟨n, hn, rfl⟩ := exists_of_map_eq_ok hread
    have hle : n ≤ UInt64.size - 1 := le_of_count hn
    exact keeps_millisCodec (Nat.lt_of_le_sub_one (by decide) hle)
  ne_null _ _ _ := nofun

end Duration

/-! ## Retries -/

lemma ErrorCode.variantOf_label (c : ErrorCode) :
    variantOf ErrorCode.all (some .unknown) c.label = .ok c := by
  rw [ErrorCode.label_eq_text, ErrorCode.all_eq]
  cases c <;> rfl

lemma ErrorCode.stable_codec : (ErrorCode.codec : Codec α ErrorCode).Stable r :=
  stable_variants ErrorCode.variantOf_label

lemma Backoff.stable_fields : (Backoff.fields : Fields α _ _).Stable r :=
  ⟨.standard stable_count32 (keeps_count (show 3 ≤ UInt32.size - 1 by decide) (by decide)),
    .standard Duration.stable_millisCodec
      (Duration.keeps_millisCodec (show 200 < UInt64.size by decide)),
    .standard Duration.stable_millisCodec
      (Duration.keeps_millisCodec (show 5000 < UInt64.size by decide)), trivial⟩

namespace Config

namespace Retry

/-- Members that are not named like the codes are left as they are. -/
lemma takeCodes_ofJsonMembers {found : Option (List ErrorCode)} {ms : List (String × Json α)}
    (h : ∀ m ∈ ms, m.1 ≠ codesName ∧ m.2.depth ≤ r.depth) :
    takeCodes r found (Outline.ofJsonMembers ms) = .ok (found, Outline.ofJsonMembers ms) := by
  induction ms with
  | nil => rfl
  | cons m ms ih =>
    rw [List.forall_mem_cons] at h
    simp only [Outline.ofJsonMembers, takeCodes, Outline.key, bind, Except.bind, h.1.1, if_false,
      setAside_ofJson h.1.2, ih h.2]
    rfl

/-- The codes are picked out wherever they stand. -/
lemma takeCodes_middle {codes : List ErrorCode} {j : Json α}
    (hread : codesCodec.read r (.ofJson j) = .ok codes) {as bs : List (String × Json α)}
    (h : ∀ m ∈ as ++ bs, m.1 ≠ codesName ∧ m.2.depth ≤ r.depth) :
    takeCodes r none (Outline.ofJsonMembers (as ++ (codesName, j) :: bs)) =
      .ok (some codes, Outline.ofJsonMembers (as ++ bs)) := by
  induction as with
  | nil =>
    simp only [List.nil_append, Outline.ofJsonMembers, takeCodes, Outline.key, bind, Except.bind,
      if_true, hread]
    exact takeCodes_ofJsonMembers h
  | cons m as ih =>
    rw [List.cons_append, List.forall_mem_cons] at h
    simp only [List.cons_append, Outline.ofJsonMembers, takeCodes, Outline.key, bind, Except.bind,
      h.1.1, if_false, setAside_ofJson h.1.2, ih h.2]
    rfl

/-- What is picked out is kept, and the rest is part of the object. -/
lemma of_takeCodes (stable : (codesCodec : Codec α _).Stable r)
    {found codes : Option (List ErrorCode)} {members others : List (Outline α × Outline α)}
    (sound : ∀ m ∈ members, m.2.Sound)
    (hfound : ∀ cs ∈ found, (codesCodec : Codec α _).Keeps r cs)
    (h : takeCodes r found members = .ok (codes, others)) :
    (∀ cs ∈ codes, (codesCodec : Codec α _).Keeps r cs) ∧ others ⊆ members := by
  induction members generalizing found codes others with
  | nil =>
    cases h
    exact ⟨hfound, List.Subset.refl _⟩
  | cons m members ih =>
    rw [List.forall_mem_cons] at sound
    obtain ⟨key, -, h⟩ := exists_of_bind_eq_ok h
    split at h
    · cases found with
      | some cs => cases h
      | none =>
        obtain ⟨cs, hcs, h⟩ := exists_of_bind_eq_ok h
        have hkeeps := stable.keeps sound.1 hcs
        obtain ⟨hcodes, hothers⟩ := ih sound.2 (by simpa using hkeeps) h
        exact ⟨hcodes, List.subset_cons_of_subset _ hothers⟩
    · obtain ⟨u, -, h⟩ := exists_of_bind_eq_ok h
      obtain ⟨⟨codes', others'⟩, htake, h⟩ := exists_of_bind_eq_ok h
      cases h
      obtain ⟨hcodes, hothers⟩ := ih sound.2 hfound htake
      exact ⟨hcodes, List.cons_subset_cons _ hothers⟩

/-- How the section is read once the codes are picked out. -/
lemma read_of_takeCodes (enter : r.enter = .ok r') {ms others : List (String × Json α)}
    {codes : Option (List ErrorCode)} (htake : takeCodes r' none (Outline.ofJsonMembers ms) =
      .ok (codes, Outline.ofJsonMembers others))
    {slots : Option ℕ × Option Duration × Option Duration × Unit}
    {values : ℕ × Duration × Duration × Unit}
    (hfill : (Backoff.fields : Fields α _ _).fillAll ⟨.buffer, r'.depth⟩
      (Backoff.fields : Fields α _ _).empty (Outline.ofJsonMembers others) = .ok slots)
    (hcomplete : (Backoff.fields : Fields α _ _).complete slots = .ok values) :
    codec.read r (.ofJson (.obj ms)) =
      .ok ⟨Backoff.ofValues values, ⟨codes.getD Classifier.standardCodes⟩⟩ := by
  simp only [codec, Outline.ofJson, enter, htake, Outline.finish, hfill, hcomplete, bind,
    Except.bind]
  rfl

lemma stable_codesCodec : (codesCodec : Codec α _).Stable r :=
  stable_list fun _ _ => ErrorCode.stable_codec

/-- The members written for a backoff. -/
lemma forall_mem_fields (b : Backoff) : ∀ m ∈ (Backoff.fields : Fields α _ _).members b.values,
    m.1 ≠ codesName ∧ m.2.depth ≤ r.depth := by
  have hmembers : (Backoff.fields : Fields α _ _).members b.values =
      [("max_retries", .ofNat b.maxRetries), ("base_delay", Duration.millisCodec.write b.base),
        ("cap_delay", Duration.millisCodec.write b.cap)] := rfl
  have hnames : "max_retries" ≠ codesName ∧ "base_delay" ≠ codesName ∧ "cap_delay" ≠ codesName := by
    decide
  rw [hmembers, List.forall_mem_cons, List.forall_mem_cons, List.forall_mem_singleton]
  exact ⟨⟨hnames.1, Nat.zero_le _⟩, ⟨hnames.2.1, Nat.zero_le _⟩, hnames.2.2, Nat.zero_le _⟩

lemma keeps_codec (enter : r.enter = .ok r') {b : Backoff} {codes : List ErrorCode}
    (hfields : (Backoff.fields : Fields α _ _).Keeps ⟨.buffer, r'.depth⟩ b.values)
    (hcodes : (codesCodec : Codec α _).Keeps r' codes) :
    (codec : Codec α Retrier).Keeps r ⟨b, ⟨codes⟩⟩ := by
  refine ⟨.obj (List.forall_mem_append.mpr
    ⟨hfields.legible, List.forall_mem_singleton.mpr hcodes.legible⟩), ?_⟩
  have hmembers : ∀ m ∈ (Backoff.fields : Fields α _ _).members b.values ++ [],
      m.1 ≠ codesName ∧ m.2.depth ≤ r'.depth := by
    rw [List.append_nil]
    exact forall_mem_fields b
  have htake := takeCodes_middle hcodes.recovers hmembers
  rw [List.append_nil] at htake
  exact read_of_takeCodes enter htake
    (Fields.fillAll_members (Fields.distinct_of_apart rfl) hfields.recovers)
    (Fields.complete_slots hfields.recovers)

lemma stable_codec (hr : 2 ≤ r.depth) : (codec : Codec α Retrier).Stable r where
  keeps {o v} sound hread := by
    simp only [codec] at hread
    split at hread
    · obtain ⟨r', enter, hread⟩ := exists_of_bind_eq_ok hread
      obtain ⟨⟨codes, others⟩, htake, hread⟩ := exists_of_bind_eq_ok hread
      obtain ⟨u, -, hread⟩ := exists_of_bind_eq_ok hread
      obtain ⟨slots, hslots, hread⟩ := exists_of_bind_eq_ok hread
      obtain ⟨values, hvalues, hread⟩ := exists_of_bind_eq_ok hread
      cases hread
      obtain ⟨hcodes, hothers⟩ := of_takeCodes stable_codesCodec
        (fun m hm => sound.of_mem_members hm) (fun _ h => by cases h) htake
      have hfilled := Fields.filled_empty.fillAll Backoff.stable_fields
        (fun m hm => sound.of_mem_members (hothers hm)) hslots
      have hdepth := Reading.depth_of_enter enter
      obtain ⟨r'', enter'⟩ := Reading.exists_enter (r := r') (by omega)
      refine keeps_codec enter (hfilled.complete Backoff.stable_fields hvalues) ?_
      cases codes with
      | some cs => exact hcodes cs rfl
      | none => exact keeps_list enter' fun c _ => keeps_variants c.variantOf_label
    · exact absurd hread Outline.refuse_ne_ok
  ne_null _ _ _ := nofun

end Retry

/-! ## The other sections -/

lemma Remote.stable_codec : (Remote.codec : Codec α Remote).Stable r :=
  stable_record rfl (fun _ _ => ⟨.standard stable_string ⟨.str _, rfl⟩,
    .standard stable_string ⟨.str _, rfl⟩,
    .standard stable_count64 (keeps_count (show 30 ≤ UInt64.size - 1 by decide) (by decide)),
    .standard Uuid.stable_codec.option keeps_option_none, trivial⟩) fun _ => rfl

lemma Breaker.stable_codec : (Breaker.codec : Codec α ℕ).Stable r :=
  stable_record rfl (fun _ _ => ⟨.standard stable_count32
    (keeps_count (show 5 ≤ UInt32.size - 1 by decide) (by decide)), trivial⟩) fun _ => rfl

lemma Start.stable_codec (hepsilon : Scalar.ReadsBack (Start.standard : Start α).epsilon)
    (hdecay : Scalar.ReadsBack (Start.standard : Start α).decayRate) :
    (Start.codec : Codec α (Start α)).Stable r :=
  stable_record rfl (fun _ _ => ⟨.standard stable_scalar (keeps_scalar hepsilon),
    .standard stable_scalar (keeps_scalar hdecay), trivial⟩) fun _ => rfl

lemma Training.stable_codec : (Training.codec : Codec α Training).Stable r :=
  stable_record rfl (fun _ _ => ⟨.standard stable_size
    (keeps_count (show 10 ≤ UInt64.size - 1 by decide) (by decide)),
    .standard stable_path ⟨.str _, rfl⟩,
    .standard stable_size (keeps_count (show 500 ≤ UInt64.size - 1 by decide) (by decide)),
    .standard stable_count32 (keeps_count (show 1000 ≤ UInt32.size - 1 by decide) (by decide)),
    .standard stable_size (keeps_count (show 20 ≤ UInt64.size - 1 by decide) (by decide)),
    .standard stable_bool ⟨.bool _, rfl⟩,
    .standard stable_count64.option keeps_option_none, trivial⟩) fun _ => rfl

end Config

/-- The probability of wins, the balance, the cost of spins and the weight of the pace have to be
read again. -/
lemma Simulation.Settings.stable_codec
    (hwin : Scalar.ReadsBack (Settings.standard : Settings α).winProbability)
    (hbalance : Scalar.ReadsBack (Settings.standard : Settings α).startingBalance)
    (hcost : Scalar.ReadsBack (Settings.standard : Settings α).costPerSpin)
    (hweight : Scalar.ReadsBack (Settings.standard : Settings α).likenessWeight) :
    (Settings.codec : Codec α (Settings α)).Stable r :=
  stable_record rfl (fun _ _ => ⟨.standard stable_count64
    (keeps_count (show 10 ≤ UInt64.size - 1 by decide) (by decide)),
    .standard stable_scalar (keeps_scalar hwin), .standard stable_scalar (keeps_scalar hbalance),
    .standard stable_scalar (keeps_scalar hcost), .standard stable_scalar (keeps_scalar hweight),
    .standard stable_bool ⟨.bool _, rfl⟩, .standard stable_bool ⟨.bool _, rfl⟩,
    .standard stable_bool ⟨.bool _, rfl⟩,
    .standard stable_size (keeps_count (show 16 ≤ UInt64.size - 1 by decide) (by decide)),
    trivial⟩) fun _ => rfl

/-! ## Whole configurations -/

namespace Config

/-- The numbers that have to be written where a file says nothing. -/
def literals : List α := [0.2, 0.95, 1.0, 10.0, 0.35, 500.0, 0.01, 0.3]

/-- **Configurations are stable.**  Each section that is missing is read from an object without
members. -/
theorem stable_codec (hliterals : ∀ x ∈ (literals : List α), Scalar.ReadsBack x) :
    (Config.codec : Codec α (Config α)).Stable .ofText := by
  simp only [literals, List.forall_mem_cons] at hliterals
  obtain ⟨hepsilon, hdecay, hmin, hmax, hwin, hbalance, hcost, hweight, -⟩ := hliterals
  refine stable_record rfl (fun r enter => ?_) fun _ => rfl
  obtain rfl : r = ⟨.text, 126⟩ := by cases enter; rfl
  have hremote : (Remote.codec : Codec α Remote).Stable ⟨.text, 126⟩ := Remote.stable_codec
  have hretry : (Retry.codec : Codec α Retrier).Stable ⟨.text, 126⟩ :=
    Retry.stable_codec (by decide)
  have hbreaker : (Breaker.codec : Codec α ℕ).Stable ⟨.text, 126⟩ := Breaker.stable_codec
  have hstart : (Start.codec : Codec α (Start α)).Stable ⟨.text, 126⟩ :=
    Start.stable_codec hepsilon hdecay
  have hprofile : (Profile.codec : Codec α (Profile α)).Stable ⟨.text, 126⟩ :=
    Profile.stable_codec hmin hmax
  have htraining : (Training.codec : Codec α Training).Stable ⟨.text, 126⟩ := Training.stable_codec
  have hsimulation : (Simulation.Settings.codec : Codec α _).Stable ⟨.text, 126⟩ :=
    Simulation.Settings.stable_codec hwin hbalance hcost hweight
  exact ⟨.standard hremote (hremote.keeps_of_bare rfl), .standard hretry (hretry.keeps_of_bare rfl),
    .standard hbreaker (hbreaker.keeps_of_bare rfl), .standard hstart (hstart.keeps_of_bare rfl),
    .standard hprofile (hprofile.keeps_of_bare rfl),
    .standard htraining (htraining.keeps_of_bare rfl),
    .standard hsimulation (hsimulation.keeps_of_bare rfl), trivial⟩

end Config

end Punter
