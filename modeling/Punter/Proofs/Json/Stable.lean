/-
# Values that were read can be written and read again

A codec keeps a value if it writes a legible value for it and reads this one as what it was
(`Codec.Keeps`), and it is stable if it keeps all values that it reads, whatever they were read from
(`Codec.Stable`).  All that is asked of the outline is that its numbers can be written and read.

Every way to build a codec gives a stable codec from stable parts.  For a record this needs an
invariant: all fields that have been read so far are kept (`Fields.Filled`).  The fields that are
missing at the end have a value of their own, which has to be kept as well, or not to be written.
-/
import Mathlib
import Punter.Json.Tagged
import Punter.Proofs.Json.Canonical

namespace Punter

variable {α T : Type} [Scalar α]

/-! ## What it means to be stable -/

namespace Codec

/-- What is written for a value is legible, and is read as this value. -/
structure Keeps (c : Codec α T) (r : Reading) (v : T) : Prop where
  legible : (c.write v).Legible
  recovers : c.Recovers r v

/-- All values that are read from sound outlines are kept. -/
structure Stable (c : Codec α T) (r : Reading) : Prop where
  keeps : ∀ {o : Outline α} {v : T}, o.Sound → c.read r o = .ok v → c.Keeps r v
  /-- A value that was not read from `null` is not written as `null`. -/
  ne_null : ∀ {o : Outline α} {v : T}, o.Sound → o ≠ .null → c.read r o = .ok v → c.write v ≠ .null

end Codec

lemma Outline.refuse_ne_ok {o : Outline α} {expected : String} {v : T} :
    o.refuse expected ≠ .ok v := by
  intro h
  unfold refuse at h
  split at h <;> cases h

/-! ## Levels -/

namespace Reading

variable {r r' : Reading}

lemma depth_of_enter (h : r.enter = .ok r') : r.depth ≤ r'.depth + 1 := by
  unfold enter at h
  split at h
  · cases h
  · next hdepth =>
    cases h
    exact hdepth.le
  · cases h
    exact Nat.le_succ _

lemma exists_enter (h : 0 < r.depth) : ∃ r', r.enter = .ok r' := by
  obtain ⟨origin, depth⟩ := r
  cases origin <;> cases depth <;> simp_all [enter]

end Reading

/-! ## Scalars -/

namespace Codec

variable {r : Reading}

lemma stable_bool : (bool : Codec α Bool).Stable r where
  keeps _ _ := ⟨.bool _, rfl⟩
  ne_null _ _ _ := nofun

lemma keeps_scalar {x : α} (hx : Scalar.ReadsBack x) : (scalar : Codec α α).Keeps r x := by
  have hwrite : (scalar : Codec α α).write x = .num x := if_pos hx.isFinite
  exact ⟨hwrite ▸ .num hx, recovers_scalar hx.isFinite r⟩

lemma readsBack_of_scalar {o : Outline α} {x : α} (sound : o.Sound)
    (hread : scalar.read r o = .ok x) : Scalar.ReadsBack x := by
  simp only [scalar] at hread
  split at hread
  · cases hread
    exact (Outline.sound_number.mp sound).2
  · cases hread
    exact (Outline.sound_number.mp sound).2
  · exact absurd hread Outline.refuse_ne_ok

lemma stable_scalar : (scalar : Codec α α).Stable r where
  keeps sound hread := keeps_scalar (readsBack_of_scalar sound hread)
  ne_null sound _ hread := by
    have hx := readsBack_of_scalar sound hread
    simp [scalar, Json.ofScalar, hx.isFinite]

lemma keeps_count {name : String} {bound n : ℕ} (hn : n ≤ bound) (hbound : bound < 2 ^ 64) :
    (count name bound : Codec α ℕ).Keeps r n := by
  refine ⟨.int (by omega) (by omega), ?_⟩
  have hin : (0 : ℤ) ≤ n ∧ (n : ℤ) ≤ bound := by omega
  simp [Recovers, count, Json.ofNat, Outline.ofJson, hin]

lemma le_of_count {name : String} {bound n : ℕ} {o : Outline α}
    (hread : (count name bound).read r o = .ok n) : n ≤ bound := by
  simp only [count] at hread
  split at hread
  · split at hread
    · cases hread
      omega
    · cases hread
  · exact absurd hread Outline.refuse_ne_ok

lemma stable_count {name : String} {bound : ℕ} (hbound : bound < 2 ^ 64) :
    (count name bound : Codec α ℕ).Stable r where
  keeps _ hread := keeps_count (le_of_count hread) hbound
  ne_null _ _ _ := nofun

lemma stable_count64 : (count64 : Codec α ℕ).Stable r := stable_count (by decide)

lemma stable_count32 : (count32 : Codec α ℕ).Stable r := stable_count (by decide)

lemma stable_size : (size : Codec α ℕ).Stable r := stable_count (by decide)

lemma stable_stringNamed (expected : String) :
    (stringNamed expected : Codec α String).Stable r where
  keeps _ _ := ⟨.str _, rfl⟩
  ne_null _ _ _ := nofun

lemma stable_string : (string : Codec α String).Stable r := stable_stringNamed _

lemma stable_path : (path : Codec α String).Stable r := stable_stringNamed _

/-- A special form is stable if its texts are: if what is read is written as a text that is read as
the same. -/
lemma stable_special {thing : String} {parse : String → Option T} {reason : String → String}
    {print : T → String} (h : ∀ s v, parse s = some v → parse (print v) = some v) :
    (special thing parse reason print : Codec α T).Stable r where
  keeps _ hread := by
    refine ⟨.str _, ?_⟩
    simp only [special] at hread
    split at hread
    · split at hread
      · next hparse =>
        cases hread
        simp only [Recovers, special, Outline.ofJson, h _ _ hparse]
      · cases hread
    · exact absurd hread Outline.refuse_ne_ok
  ne_null _ _ _ := nofun

lemma keeps_variants {all : List (String × T)} {other : Option T} {label : T → String} {v : T}
    (h : variantOf all other (label v) = .ok v) :
    (variants all other label : Codec α T).Keeps r v :=
  ⟨.str _, h⟩

/-- Variants are stable if each can be told by its label. -/
lemma stable_variants {all : List (String × T)} {other : Option T} {label : T → String}
    (h : ∀ v, variantOf all other (label v) = .ok v) :
    (variants all other label : Codec α T).Stable r where
  keeps _ _ := keeps_variants (h _)
  ne_null _ _ _ := nofun

lemma stable_any : (any : Codec α (Json α)).Stable r where
  keeps sound hread := by
    have hsettled := Outline.settled_of_toJson _ _ _ sound hread
    exact ⟨hsettled.legible, recovers_any hsettled.canonical hsettled.depth_le⟩
  ne_null _ ho hread := by
    rintro rfl
    exact ho (Outline.eq_null_of_toJson hread)

/-! ## Options and lists -/

variable {c : Codec α T}

lemma keeps_option_none : c.option.Keeps r none := ⟨.null, rfl⟩

omit [Scalar α] in
/-- What is no `null`, and can be read, is read as what it is without the option. -/
lemma read_option {o : Outline α} (ho : o ≠ .null) {v : Option T} (h : c.option.read r o = .ok v) :
    ∃ w, v = some w ∧ c.read r o = .ok w := by
  simp only [option] at h
  split at h
  · exact absurd rfl ho
  · cases h
  · obtain ⟨w, hw, rfl⟩ := exists_of_map_eq_ok h
    exact ⟨w, rfl, hw⟩

lemma Keeps.option {v : T} (h : c.Keeps r v) (hv : c.write v ≠ .null) :
    c.option.Keeps r (some v) := by
  refine ⟨h.legible, ?_⟩
  have hread : c.read r (.ofJson (c.write v)) = .ok v := h.recovers
  change c.option.read r (.ofJson (c.write v)) = .ok (some v)
  simp only [Codec.option]
  split
  · next hnull => exact absurd (Outline.eq_null_of_ofJson hnull) hv
  · next hbroken => exact absurd hbroken (Outline.ofJson_ne_broken _ _)
  · rw [hread]
    rfl

lemma Stable.option (h : c.Stable r) : c.option.Stable r where
  keeps {o v} sound hread := by
    by_cases ho : o = .null
    · subst ho
      cases hread
      exact keeps_option_none
    · obtain ⟨w, rfl, hw⟩ := read_option ho hread
      exact (h.keeps sound hw).option (h.ne_null sound ho hw)
  ne_null {o v} sound ho hread := by
    obtain ⟨w, rfl, hw⟩ := read_option ho hread
    exact h.ne_null sound ho hw

lemma Stable.keeps_all (h : c.Stable r) {items : List (Outline α)} (sound : ∀ o ∈ items, o.Sound)
    {vs : List T} (hread : readAll c r items = .ok vs) : ∀ v ∈ vs, c.Keeps r v := by
  induction items generalizing vs with
  | nil =>
    cases hread
    simp
  | cons o os ih =>
    rw [List.forall_mem_cons] at sound
    obtain ⟨v, hv, hread⟩ := exists_of_bind_eq_ok hread
    obtain ⟨vs', hvs, hread⟩ := exists_of_bind_eq_ok hread
    cases hread
    exact List.forall_mem_cons.mpr ⟨h.keeps sound.1 hv, ih sound.2 hvs⟩

lemma readAll_write {vs : List T} (h : ∀ v ∈ vs, c.Keeps r v) :
    readAll c r (Outline.ofJsonItems (vs.map c.write)) = .ok vs := by
  induction vs with
  | nil => rfl
  | cons v vs ih =>
    rw [List.forall_mem_cons] at h
    have hread : c.read r (.ofJson (c.write v)) = .ok v := h.1.recovers
    simp only [List.map_cons, Outline.ofJsonItems, readAll, hread, ih h.2]
    rfl

lemma keeps_list {r' : Reading} (enter : r.enter = .ok r') {vs : List T}
    (h : ∀ v ∈ vs, c.Keeps r' v) : (list c).Keeps r vs := by
  refine ⟨.arr ?_, ?_⟩
  · simpa using fun v hv => (h v hv).legible
  · simp only [Recovers, list, Outline.ofJson, enter, bind, Except.bind, readAll_write h]
    rfl

lemma stable_list (h : ∀ r', r.enter = .ok r' → c.Stable r') : (list c).Stable r where
  keeps {o v} sound hread := by
    simp only [list] at hread
    split at hread
    · obtain ⟨r', enter, hread⟩ := exists_of_bind_eq_ok hread
      obtain ⟨vs, hvs, hread⟩ := exists_of_bind_eq_ok hread
      obtain ⟨-, rfl⟩ := eq_of_finish_eq_ok hread
      exact keeps_list enter ((h r' enter).keeps_all (fun x hx => sound.of_mem_items hx) hvs)
    · exact absurd hread Outline.refuse_ne_ok
  ne_null _ _ _ := nofun

end Codec

/-! ## Fields -/

/-- A field of a record is kept: its value is read as what was written for it, or the field is not
written and means this value by its absence. -/
structure Field.Keeps (f : Field α T) (r : Reading) (v : T) : Prop where
  recovers : f.Recovers r v
  legible : f.omits v = false → (f.codec.write v).Legible

/-- All values that a field has after reading are kept. -/
structure Field.Stable (f : Field α T) (r : Reading) : Prop where
  codec : f.codec.Stable r
  /-- A value that is not written is what the absence of the field means. -/
  omitted : ∀ v, f.omits v = true → Fields.resolve f none = .ok v
  /-- What the absence of the field means is kept. -/
  absent : ∀ v, Fields.resolve f none = .ok v → f.Keeps r v

namespace Field

variable {f : Field α T} {c : Codec α T} {r : Reading} {name : String}

lemma Stable.keeps (h : f.Stable r) {v : T} (hv : f.codec.Keeps r v) : f.Keeps r v :=
  ⟨⟨fun _ => hv.recovers, h.omitted v⟩, fun _ => hv.legible⟩

lemma keeps_of_never_omitted {v : T} (hv : f.codec.Keeps r v) (homits : f.omits v = false) :
    f.Keeps r v :=
  ⟨⟨fun _ => hv.recovers, fun h => by simp [homits] at h⟩, fun _ => hv.legible⟩

lemma Stable.required (h : c.Stable r) : (Field.required name c).Stable r where
  codec := h
  omitted _ homits := by simp [Field.required] at homits
  absent _ hresolve := by cases hresolve

lemma Stable.standard (h : c.Stable r) {v : T} (hv : c.Keeps r v) :
    (Field.standard name c v).Stable r where
  codec := h
  omitted _ homits := by simp [Field.standard] at homits
  absent w hresolve := by
    obtain rfl : v = w := Except.ok.inj hresolve
    exact keeps_of_never_omitted hv rfl

lemma Stable.optional (h : c.Stable r) : (Field.optional name c).Stable r where
  codec := h.option
  omitted _ homits := by simp [Field.optional] at homits
  absent w hresolve := by
    obtain rfl : none = w := Except.ok.inj hresolve
    exact keeps_of_never_omitted Codec.keeps_option_none rfl

/-- A field that is not written where it is `none` has to mean `none` by its absence. -/
lemma Stable.whenSome {f : Field α (Option T)} (h : f.Stable r)
    (hnone : Fields.resolve f none = .ok none) : f.whenSome.Stable r where
  codec := h.codec
  omitted v homits := by
    cases v with
    | none => exact hnone
    | some w => cases homits
  absent v hresolve := by
    obtain rfl : none = v := Except.ok.inj (hnone.symm.trans hresolve)
    exact ⟨⟨nofun, fun _ => hnone⟩, nofun⟩

/-- An array may lack the field as well, if that means the same. -/
lemma Stable.orAbsent (h : f.Stable r) {v : T} (hv : Fields.resolve f none = .ok v) :
    (f.orAbsent v).Stable r where
  codec := h.codec
  omitted w homits := hv.symm.trans (h.omitted w homits)
  absent w hresolve := by
    obtain rfl : v = w := Except.ok.inj hresolve
    have hkeeps := h.absent v hv
    exact ⟨⟨hkeeps.recovers.written, fun _ => rfl⟩, hkeeps.legible⟩

lemma Stable.orNamed (h : f.Stable r) (name : String) : (f.orNamed name).Stable r where
  codec := h.codec
  omitted v homits := h.omitted v homits
  absent v hresolve := ⟨⟨(h.absent v hresolve).recovers.written, h.omitted v⟩,
    (h.absent v hresolve).legible⟩

end Field

namespace Fields

variable {R S : Type} {r : Reading}

/-- All fields are stable. -/
def Stable (r : Reading) {R S : Type} : Fields α R S → Prop
  | nil => True
  | cons f fs => f.Stable r ∧ fs.Stable r

/-- The values of all fields are kept. -/
def Keeps (r : Reading) {R S : Type} : Fields α R S → R → Prop
  | nil, _ => True
  | cons f fs, (v, vs) => f.Keeps r v ∧ fs.Keeps r vs

/-- The values that have been read so far are kept. -/
def Filled (r : Reading) {R S : Type} : Fields α R S → S → Prop
  | nil, _ => True
  | cons f fs, (slot, slots) => (∀ v ∈ slot, f.Keeps r v) ∧ fs.Filled r slots

lemma Keeps.recovers {fs : Fields α R S} {vs : R} (h : fs.Keeps r vs) : fs.Recovers r vs := by
  induction fs with
  | nil => trivial
  | cons f fs ih => exact ⟨h.1.recovers, ih h.2⟩

lemma Keeps.legible {fs : Fields α R S} {vs : R} (h : fs.Keeps r vs) :
    ∀ m ∈ fs.members vs, m.2.Legible := by
  induction fs with
  | nil => nofun
  | cons f fs ih =>
    obtain ⟨v, vs⟩ := vs
    rw [members]
    split
    · exact ih h.2
    · next homits =>
      exact List.forall_mem_cons.mpr ⟨h.1.legible (by simpa using homits), ih h.2⟩

lemma filled_empty {fs : Fields α R S} : fs.Filled r fs.empty := by
  induction fs with
  | nil => trivial
  | cons f fs ih => exact ⟨nofun, ih⟩

/-- A member fills a slot with a value that is kept, or none. -/
lemma Filled.fill {fs : Fields α R S} (stable : fs.Stable r) {key : String} {o : Outline α}
    (sound : o.Sound) {slots slots' : S} (h : fs.Filled r slots)
    (hfill : fill r key o fs slots = .ok slots') : fs.Filled r slots' := by
  induction fs with
  | nil => trivial
  | cons f fs ih =>
    obtain ⟨slot, slots⟩ := slots
    simp only [Fields.fill] at hfill
    split at hfill
    · cases slot with
      | some v => cases hfill
      | none =>
        obtain ⟨v, hv, rfl⟩ := exists_of_map_eq_ok hfill
        have hkeeps := stable.1.keeps (stable.1.codec.keeps sound hv)
        exact ⟨by simpa using hkeeps, h.2⟩
    · obtain ⟨slots'', hslots, rfl⟩ := exists_of_map_eq_ok hfill
      exact ⟨h.1, ih stable.2 h.2 hslots⟩

lemma Filled.fillAll {fs : Fields α R S} (stable : fs.Stable r)
    {members : List (Outline α × Outline α)} (sound : ∀ m ∈ members, m.2.Sound)
    {slots slots' : S} (h : fs.Filled r slots) (hfill : fillAll r fs slots members = .ok slots') :
    fs.Filled r slots' := by
  induction members generalizing slots with
  | nil =>
    cases hfill
    exact h
  | cons m members ih =>
    rw [List.forall_mem_cons] at sound
    obtain ⟨key, -, hfill⟩ := exists_of_bind_eq_ok hfill
    obtain ⟨slots₁, hslots, hfill⟩ := exists_of_bind_eq_ok hfill
    exact ih sound.2 (h.fill stable sound.1 hslots) hfill

lemma Filled.complete {fs : Fields α R S} (stable : fs.Stable r) {slots : S} {vs : R}
    (h : fs.Filled r slots) (hcomplete : fs.complete slots = .ok vs) : fs.Keeps r vs := by
  induction fs with
  | nil => trivial
  | cons f fs ih =>
    obtain ⟨slot, slots⟩ := slots
    obtain ⟨v, hv, hcomplete⟩ := exists_of_bind_eq_ok hcomplete
    obtain ⟨vs', hvs, hcomplete⟩ := exists_of_bind_eq_ok hcomplete
    cases hcomplete
    refine ⟨?_, ih stable.2 h.2 hvs⟩
    cases slot with
    | some w =>
      cases hv
      exact h.1 v rfl
    | none => exact stable.1.absent v hv

lemma keeps_of_readItems {whole : String} {ending : Option Fault} {index : ℕ}
    {fs : Fields α R S} (stable : fs.Stable r) {items rest : List (Outline α)}
    (sound : ∀ o ∈ items, o.Sound) {vs : R}
    (hread : readItems r whole ending index fs items = .ok (vs, rest)) : fs.Keeps r vs := by
  induction fs generalizing index items with
  | nil => trivial
  | cons f fs ih =>
    cases items with
    | nil =>
      simp only [readItems] at hread
      split at hread
      · cases hread
      · next v habsent =>
        obtain ⟨⟨vs', rest'⟩, hvs, hread⟩ := exists_of_bind_eq_ok hread
        cases hread
        have hresolve : resolve f none = .ok v := by simp [resolve, habsent]
        exact ⟨stable.1.absent v hresolve, ih stable.2 sound hvs⟩
      · cases hread
    | cons o os =>
      rw [List.forall_mem_cons] at sound
      obtain ⟨v, hv, hread⟩ := exists_of_bind_eq_ok hread
      obtain ⟨⟨vs', rest'⟩, hvs, hread⟩ := exists_of_bind_eq_ok hread
      cases hread
      exact ⟨stable.1.keeps (stable.1.codec.keeps sound.1 hv), ih stable.2 sound.2 hvs⟩

end Fields

/-! ## Records -/

section Apart

variable {R S : Type}

omit [Scalar α]

/-- Whether no field is read under the name of a later one. -/
def Fields.apart {R S : Type} : Fields α R S → Bool
  | .nil => true
  | .cons f fs => fs.names.all (fun name => !f.hasName name) && fs.apart

lemma Fields.distinct_of_apart {fs : Fields α R S} (h : fs.apart = true) : fs.Distinct := by
  induction fs with
  | nil => trivial
  | cons f fs ih =>
    simp only [apart, Bool.and_eq_true, List.all_eq_true, Bool.not_eq_true'] at h
    exact ⟨h.1, ih h.2⟩

end Apart

namespace Codec

variable {R S : Type} {r r' : Reading} {what : String} {fs : Fields α R S} {make : R → T}
  {parts : T → R}

lemma keeps_record (enter : r.enter = .ok r') (apart : fs.apart = true) {v : T}
    (h : fs.Keeps r' (parts v)) (make_parts : make (parts v) = v) :
    (record what fs make parts).Keeps r v :=
  ⟨.obj h.legible, recovers_record enter (Fields.distinct_of_apart apart) h.recovers make_parts⟩

lemma keeps_of_readObject (stable : fs.Stable r) {members : List (Outline α × Outline α)}
    {ending : Option Fault} (sound : ∀ m ∈ members, m.2.Sound) {vs : R}
    (hread : readObject r fs members ending = .ok vs) : fs.Keeps r vs := by
  obtain ⟨slots, hslots, hread⟩ := exists_of_bind_eq_ok hread
  obtain ⟨slots', hfinish, hread⟩ := exists_of_bind_eq_ok hread
  obtain ⟨-, rfl⟩ := eq_of_finish_eq_ok hfinish
  exact (Fields.filled_empty.fillAll stable sound hslots).complete stable hread

lemma keeps_of_readArray (stable : fs.Stable r) {items : List (Outline α)}
    {ending : Option Fault} (sound : ∀ o ∈ items, o.Sound) {vs : R}
    (hread : readArray r what fs items ending = .ok vs) : fs.Keeps r vs := by
  obtain ⟨⟨vs', rest⟩, hvs, hread⟩ := exists_of_bind_eq_ok hread
  have hleft : vs' = vs := by
    simp only [noneLeft] at hread
    split at hread
    · exact (eq_of_finish_eq_ok hread).2
    · split at hread
      · exact (eq_of_finish_eq_ok hread).2
      · cases hread
      · cases hread
  exact hleft ▸ Fields.keeps_of_readItems stable sound hvs

/-- **Records are stable** if their fields are, one level below. -/
theorem stable_record (apart : fs.apart = true) (fields : ∀ r', r.enter = .ok r' → fs.Stable r')
    (parts_make : ∀ vs, parts (make vs) = vs) : (record what fs make parts).Stable r where
  keeps {o v} sound hread := by
    simp only [record] at hread
    split at hread
    · obtain ⟨r', enter, hread⟩ := exists_of_bind_eq_ok hread
      obtain ⟨vs, hvs, hread⟩ := exists_of_bind_eq_ok hread
      cases hread
      have hkeeps := keeps_of_readObject (fields r' enter) (fun m hm => sound.of_mem_members hm) hvs
      refine keeps_record enter apart ?_ ?_
      · rwa [parts_make]
      · rw [parts_make]
    · obtain ⟨r', enter, hread⟩ := exists_of_bind_eq_ok hread
      obtain ⟨vs, hvs, hread⟩ := exists_of_bind_eq_ok hread
      cases hread
      have hkeeps := keeps_of_readArray (fields r' enter) (fun o ho => sound.of_mem_items ho) hvs
      refine keeps_record enter apart ?_ ?_
      · rwa [parts_make]
      · rw [parts_make]
    · exact absurd hread Outline.refuse_ne_ok
  ne_null _ _ _ := nofun

end Codec

/-! ## Tagged values -/

namespace Codec

variable {r : Reading} {tag : String} {all : List (String × T)}

omit [Scalar α] in
lemma setAside_ofJson {v : Json α} (h : v.depth ≤ r.depth) : setAside r (.ofJson v) = .ok () := by
  simp only [setAside, Outline.toJson_ofJson r.depth v h]
  rfl

/-- Members that are not named like the tag are left as they are. -/
lemma takeTag_ofJsonMembers {found : Option T} {ms : List (String × Json α)}
    (h : ∀ m ∈ ms, m.1 ≠ tag ∧ m.2.depth ≤ r.depth) :
    takeTag r tag all found (Outline.ofJsonMembers ms) = .ok (found, Outline.ofJsonMembers ms) := by
  induction ms with
  | nil => rfl
  | cons m ms ih =>
    rw [List.forall_mem_cons] at h
    simp only [Outline.ofJsonMembers, takeTag, Outline.key, bind, Except.bind, h.1.1, if_false,
      setAside_ofJson h.1.2, ih h.2]
    rfl

/-- A tag that is written in front of other members is found. -/
lemma readTagged_write {what : String} {r' : Reading} (enter : r.enter = .ok r') {name : String}
    {t : T} (hname : variantOf all none name = .ok t) {ms : List (String × Json α)}
    (h : ∀ m ∈ ms, m.1 ≠ tag ∧ m.2.depth ≤ r'.depth) :
    readTagged what tag all r (.ofJson (.obj ((tag, .str name) :: ms))) =
      .ok (t, .ofJson (.obj ms)) := by
  simp only [readTagged, Outline.ofJson, Outline.ofJsonMembers, enter, takeTag, Outline.key,
    tagValue, hname, bind, Except.bind, if_true, takeTag_ofJsonMembers h]
  rfl

lemma subset_of_takeTag {found t : Option T} {members others : List (Outline α × Outline α)}
    (h : takeTag r tag all found members = .ok (t, others)) : others ⊆ members := by
  induction members generalizing found t others with
  | nil =>
    cases h
    exact List.Subset.refl _
  | cons m members ih =>
    obtain ⟨key, -, h⟩ := exists_of_bind_eq_ok h
    split at h
    · cases found with
      | some v => cases h
      | none =>
        obtain ⟨v, -, h⟩ := exists_of_bind_eq_ok h
        exact List.subset_cons_of_subset _ (ih h)
    · obtain ⟨u, -, h⟩ := exists_of_bind_eq_ok h
      obtain ⟨⟨t', others'⟩, htake, h⟩ := exists_of_bind_eq_ok h
      cases h
      exact List.cons_subset_cons _ (ih htake)

/-- What is left when the tag has been read is sound. -/
lemma sound_of_readTagged {what : String} {o rest : Outline α} {t : T} (sound : o.Sound)
    (h : readTagged what tag all r o = .ok (t, rest)) : rest.Sound := by
  unfold readTagged at h
  split at h
  · obtain ⟨r', -, h⟩ := exists_of_bind_eq_ok h
    obtain ⟨⟨found, others⟩, htake, h⟩ := exists_of_bind_eq_ok h
    obtain ⟨u, -, h⟩ := exists_of_bind_eq_ok h
    split at h
    · cases h
      intro n hn
      obtain ⟨m, hm, hn⟩ := Outline.mem_numbersMembers.mp hn
      exact sound n (Outline.mem_numbersMembers.mpr ⟨m, subset_of_takeTag htake hm, hn⟩)
    · cases h
  · obtain ⟨r', -, h⟩ := exists_of_bind_eq_ok h
    obtain ⟨u, -, h⟩ := exists_of_bind_eq_ok h
    cases h
  · obtain ⟨r', -, h⟩ := exists_of_bind_eq_ok h
    obtain ⟨v, -, h⟩ := exists_of_bind_eq_ok h
    obtain ⟨u, -, h⟩ := exists_of_bind_eq_ok h
    cases (eq_of_finish_eq_ok h).2
    intro n hn
    obtain ⟨x, hx, hn⟩ := Outline.mem_numbersItems.mp hn
    exact sound n (Outline.mem_numbersItems.mpr ⟨x, List.mem_cons_of_mem _ hx, hn⟩)
  · exact absurd h Outline.refuse_ne_ok

end Codec

end Punter
