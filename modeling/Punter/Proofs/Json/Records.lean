/-
# Written records are read again

A codec recovers a value if it reads what it writes for it (`Codec.Recovers`).  For free-form data
this is so up to the order of members, as long as the data is not too deep.  A record is recovered
if each of its fields is, where a field that is not written has to mean by its absence what was not
written, and no field is read under the name of another one.

Together with the scanner this carries over to texts (`Codec.ofText_toText`).
-/
import Mathlib
import Punter.Proofs.Json.Scanned

namespace Punter

variable {α T : Type}

/-! ## Free-form data -/

namespace Json

mutual

/-- How many arrays and objects are nested in a value. -/
def depth : Json α → ℕ
  | arr items => depthItems items + 1
  | obj members => depthMembers members + 1
  | _ => 0

/-- The greatest depth of some items. -/
def depthItems : List (Json α) → ℕ
  | [] => 0
  | x :: xs => max (depth x) (depthItems xs)

/-- The greatest depth of the values of some members. -/
def depthMembers : List (String × Json α) → ℕ
  | [] => 0
  | (_, v) :: ms => max (depth v) (depthMembers ms)

end

end Json

namespace Outline

/-- All values up to a depth are read with the members of their objects in canonical order. -/
def Canonizes (α : Type) (d : ℕ) : Prop :=
  ∀ v : Json α, v.depth ≤ d → toJson d (ofJson v) = .ok v.canonicalize

lemma Canonizes.items {d : ℕ} (h : Canonizes α d) {items : List (Json α)}
    (hitems : Json.depthItems items ≤ d) :
    toJsonItems d (ofJsonItems items) = .ok (Json.canonicalizeItems items) := by
  induction items with
  | nil => rfl
  | cons x xs ih =>
    rw [Json.depthItems, max_le_iff] at hitems
    simp only [ofJsonItems, toJsonItems, h x hitems.1, ih hitems.2]
    rfl

lemma Canonizes.members {d : ℕ} (h : Canonizes α d) {members : List (String × Json α)}
    (hmembers : Json.depthMembers members ≤ d) :
    toJsonMembers d (ofJsonMembers members) = .ok (Json.canonicalizeMembers members) := by
  induction members with
  | nil => rfl
  | cons m ms ih =>
    obtain ⟨k, x⟩ := m
    rw [Json.depthMembers, max_le_iff] at hmembers
    simp only [ofJsonMembers, toJsonMembers, key, h x hmembers.1, ih hmembers.2]
    rfl

/-- A value is read with the members of its objects in canonical order.  The induction is on the
depth. -/
theorem toJson_ofJson (d : ℕ) : Canonizes α d := by
  induction d with
  | zero =>
    intro v h
    cases v <;> simp [Json.depth] at h <;> rfl
  | succ d ih =>
    intro v h
    cases v with
    | arr items =>
      rw [Json.depth] at h
      rw [ofJson, toJson, ih.items (Nat.le_of_succ_le_succ h)]
      rfl
    | obj members =>
      rw [Json.depth] at h
      rw [ofJson, toJson, ih.members (Nat.le_of_succ_le_succ h)]
      rfl
    | _ => rfl

end Outline

/-! ## Recovered values -/

namespace Codec

/-- What is written for a value is read as this value. -/
def Recovers (c : Codec α T) (r : Reading) (v : T) : Prop :=
  c.read r (.ofJson (c.write v)) = .ok v

variable [Scalar α] {r : Reading}

lemma recovers_bool (r : Reading) (b : Bool) : (bool : Codec α Bool).Recovers r b := rfl

lemma recovers_scalar {x : α} (hx : Scalar.isFinite x = true) (r : Reading) :
    (scalar : Codec α α).Recovers r x := by
  simp [Recovers, scalar, Json.ofScalar, hx, Outline.ofJson]

omit [Scalar α] in
lemma recovers_any {v : Json α} (hv : v.canonicalize = v) (hdepth : v.depth ≤ r.depth) :
    (any : Codec α (Json α)).Recovers r v := by
  change Outline.toJson r.depth (.ofJson v) = .ok v
  rw [Outline.toJson_ofJson r.depth v hdepth, hv]

lemma recovers_anyObject_nil {r' : Reading} (enter : r.enter = .ok r') :
    (anyObject : Codec α (List (String × Json α))).Recovers r [] := by
  simp only [Recovers, anyObject, Outline.ofJson, enter]
  rfl

end Codec

/-! ## Records -/

/-- A field of a record is recovered. -/
structure Field.Recovers (f : Field α T) (r : Reading) (v : T) : Prop where
  written : f.omits v = false → f.codec.Recovers r v
  omitted : f.omits v = true → Fields.resolve f none = .ok v

lemma Field.recovers_required {name : String} {c : Codec α T} {r : Reading} {v : T}
    (h : c.Recovers r v) : (Field.required name c).Recovers r v where
  written _ := h
  omitted homits := by simp [Field.required] at homits

namespace Fields

/-- The names under which fields are written. -/
def names {R S : Type} : Fields α R S → List String
  | nil => []
  | cons f fs => f.name :: fs.names

/-- No field is read under the name of a later one. -/
def Distinct {R S : Type} : Fields α R S → Prop
  | nil => True
  | cons f fs => (∀ name ∈ fs.names, f.hasName name = false) ∧ fs.Distinct

/-- All fields are recovered. -/
def Recovers (r : Reading) {R S : Type} : Fields α R S → R → Prop
  | nil, _ => True
  | cons f fs, (v, vs) => f.Recovers r v ∧ fs.Recovers r vs

/-- The values that have been read when all that was written has been read. -/
def slots {R S : Type} : Fields α R S → R → S
  | nil, _ => ()
  | cons f fs, (v, vs) => (if f.omits v then none else some v, fs.slots vs)

variable {R S : Type} {r : Reading}

lemma mem_names {fs : Fields α R S} {vs : R} {m : String × Json α} (hm : m ∈ fs.members vs) :
    m.1 ∈ fs.names := by
  induction fs with
  | nil => cases hm
  | cons f fs ih =>
    obtain ⟨v, vs⟩ := vs
    rw [members] at hm
    split at hm
    · exact List.mem_cons_of_mem _ (ih hm)
    · rcases List.mem_cons.mp hm with rfl | hm
      · exact List.mem_cons_self
      · exact List.mem_cons_of_mem _ (ih hm)

/-- Members that are not named as the first field are read by the others. -/
lemma fillAll_cons {f : Field α T} {fs : Fields α R S} {ms : List (String × Json α)}
    (h : ∀ m ∈ ms, f.hasName m.1 = false) (slot : Option T) (slots : S) :
    fillAll r (.cons f fs) (slot, slots) (Outline.ofJsonMembers ms) =
      (fillAll r fs slots (Outline.ofJsonMembers ms)).map fun slots => (slot, slots) := by
  induction ms generalizing slots with
  | nil => rfl
  | cons m ms ih =>
    obtain ⟨k, v⟩ := m
    have hk : f.hasName k = false := h (k, v) List.mem_cons_self
    have hfill : fill r k (.ofJson v) (.cons f fs) (slot, slots) =
        (fill r k (.ofJson v) fs slots).map fun slots => (slot, slots) := by
      simp only [fill, hk, Bool.false_eq_true, if_false]
    simp only [Outline.ofJsonMembers, fillAll, Outline.key, hfill, bind, Except.bind]
    cases fill r k (.ofJson v) fs slots with
    | error e => rfl
    | ok slots' => exact ih (fun m hm => h m (List.mem_cons_of_mem _ hm)) slots'

/-- What was written for the fields is read.  The induction is on the fields. -/
lemma fillAll_members {fs : Fields α R S} {vs : R} (distinct : fs.Distinct)
    (recovers : fs.Recovers r vs) :
    fillAll r fs fs.empty (Outline.ofJsonMembers (fs.members vs)) = .ok (fs.slots vs) := by
  induction fs with
  | nil => rfl
  | cons f fs ih =>
    obtain ⟨v, vs⟩ := vs
    obtain ⟨hnames, hdistinct⟩ := distinct
    obtain ⟨hfield, hfields⟩ := recovers
    -- so the members of the other fields pass by the first one
    have hothers : ∀ m ∈ fs.members vs, f.hasName m.1 = false :=
      fun m hm => hnames m.1 (mem_names hm)
    cases homits : f.omits v with
    | true =>
      rw [members, if_pos homits, empty, fillAll_cons hothers, ih hdistinct hfields]
      simp [slots, homits, Except.map]
    | false =>
      have hread : f.codec.read r (.ofJson (f.codec.write v)) = .ok v := hfield.written homits
      have hfill : fill r f.name (.ofJson (f.codec.write v)) (.cons f fs) (none, fs.empty) =
          .ok (some v, fs.empty) := by
        have hname : f.hasName f.name = true := by simp [Field.hasName]
        simp only [fill, hname, if_true, hread]
        rfl
      rw [members, if_neg (by simp [homits])]
      simp only [Outline.ofJsonMembers, fillAll, Outline.key, empty, hfill, bind, Except.bind]
      rw [fillAll_cons hothers, ih hdistinct hfields]
      simp [slots, homits, Except.map]

lemma complete_slots {fs : Fields α R S} {vs : R} (recovers : fs.Recovers r vs) :
    fs.complete (fs.slots vs) = .ok vs := by
  induction fs with
  | nil => rfl
  | cons f fs ih =>
    obtain ⟨v, vs⟩ := vs
    obtain ⟨hfield, hfields⟩ := recovers
    have hresolve : resolve f (if f.omits v then none else some v) = .ok v := by
      cases homits : f.omits v with
      | true => exact hfield.omitted homits
      | false => rfl
    simp only [slots, complete, hresolve, ih hfields]
    rfl

end Fields

namespace Codec

variable [Scalar α] {r r' : Reading}

/-- **Records are recovered** if their fields are, one level below. -/
theorem recovers_record {R S : Type} {what : String} {fs : Fields α R S} {make : R → T}
    {parts : T → R} {v : T} (enter : r.enter = .ok r') (distinct : fs.Distinct)
    (fields : fs.Recovers r' (parts v)) (make_parts : make (parts v) = v) :
    (record what fs make parts).Recovers r v := by
  have hobject : readObject r' fs (Outline.ofJsonMembers (fs.members (parts v))) none =
      .ok (parts v) := by
    simp only [readObject, Fields.fillAll_members distinct fields, Outline.finish, bind,
      Except.bind]
    exact Fields.complete_slots fields
  simp only [Recovers, record, Outline.ofJson, enter, hobject, bind, Except.bind]
  rw [make_parts]
  rfl

end Codec

/-! ## Texts -/

variable [Scalar α]

/-- A text in which a value is found, with nothing but blanks behind it. -/
def Json.IsText (v : Json α) (s : String) : Prop :=
  ∃ rest, Outline.scan s.toList = (.ofJson v, some rest) ∧ Outline.Blanks rest

/-- The texts that the agent writes for a value, without blanks and on many lines. -/
lemma Json.Legible.isText {v : Json α} (h : v.Legible) :
    ∀ s ∈ [v.compact, v.pretty], v.IsText s := by
  intro s hs
  rcases List.mem_pair.mp hs with rfl | rfl
  · exact ⟨[], h.scan_compact, List.forall_mem_nil _⟩
  · exact ⟨[], h.scan_pretty, List.forall_mem_nil _⟩

namespace Codec

/-- A text is read as the value that is found in it. -/
lemma ofText_of_isText {c : Codec α T} {j : Json α} {s : String} (h : j.IsText s) {v : T}
    (hread : c.read .ofText (.ofJson j) = .ok v) : c.ofText s = .ok v := by
  obtain ⟨rest, hscan, hblanks⟩ := h
  have hend : Outline.skipBlanks rest = [] := by
    simpa [Outline.skipBlanks] using Outline.skipBlanks_append hblanks []
  unfold ofText
  rw [hscan]
  dsimp only
  rw [hread]
  simp [hend]

/-- **Texts are read again.** -/
theorem ofText_toText {c : Codec α T} {v : T} (legible : (c.write v).Legible)
    (recovers : c.Recovers .ofText v) : c.ofText (c.toText v) = .ok v :=
  ofText_of_isText (legible.isText _ List.mem_cons_self) recovers

end Codec

end Punter
