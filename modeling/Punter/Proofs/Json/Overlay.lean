/-
# Objects that give some of the fields of a record

Where all fields of a record have standard values, an object may give any of them, in any order.  It
is then read as the standard record with the values of these fields replaced
(`Codec.read_overlay`).

What is said of a field has two sides, the JSON value and what it means (`Given`).  Which JSON
values mean what is said here without the codecs: a count is an integer up to a bound, a number may
be written as an integer or with a point, a variant goes by a name, and so on.  The codecs read all
of these as what they mean (`Codec.Takes`).
-/
import Mathlib
import Punter.Proofs.Json.Stable

namespace Punter

variable {α S T : Type}

/-! ## What JSON values mean -/

namespace Json

/-- `true` or `false`. -/
inductive IsFlag : Json α → Bool → Prop
  | bool (b : Bool) : IsFlag (.bool b) b

/-- A string. -/
inductive IsString : Json α → String → Prop
  | str (s : String) : IsString (.str s) s

/-- A string of a special form. -/
inductive IsSpecial (parse : String → Option T) : Json α → T → Prop
  | str {s : String} {v : T} (h : parse s = some v) : IsSpecial parse (.str s) v

/-- A count of at most `bound`. -/
inductive IsCount (bound : ℕ) : Json α → ℕ → Prop
  | int {n : ℕ} (h : n ≤ bound) : IsCount bound (.int n) n

/-- Any number, with a point or without. -/
inductive IsNumber [Scalar α] : Json α → α → Prop
  | int (n : ℤ) : IsNumber (.int n) (Scalar.ofInt n)
  | num (x : α) : IsNumber (.num x) x

/-- A variant, by one of its names, or by an object from such a name to `null`. -/
inductive IsVariant (named : String → T → Prop) : Json α → T → Prop
  | name {s : String} {v : T} (h : named s v) : IsVariant named (.str s) v
  | key {s : String} {v : T} (h : named s v) : IsVariant named (.obj [(s, .null)]) v

/-- A value that may be `null`. -/
inductive IsOption (means : Json α → T → Prop) : Json α → Option T → Prop
  | null : IsOption means .null none
  | some {j : Json α} {v : T} (h : means j v) : IsOption means j (some v)

/-- A list. -/
inductive IsList (means : Json α → T → Prop) : Json α → List T → Prop
  | arr {items : List (Json α)} {vs : List T} (h : List.Forall₂ means items vs) :
      IsList means (.arr items) vs

/-- An object that has the members that are said for a value, in any order. -/
inductive IsObject (members : T → List (String × Json α)) : Json α → T → Prop
  | obj {ms : List (String × Json α)} {v : T} (h : ms.Perm (members v)) :
      IsObject members (.obj ms) v

end Json

/-! ## Reading what has a meaning -/

namespace Codec

open Json

variable [Scalar α] {r : Reading} {c : Codec α T} {means : Json α → T → Prop}

/-- Values that mean something are read as what they mean. -/
def Takes (c : Codec α T) (r : Reading) (means : Json α → T → Prop) : Prop :=
  ∀ (j : Json α) (v : T), means j v → c.read r (.ofJson j) = .ok v

lemma takes_bool : (bool : Codec α Bool).Takes r IsFlag := by
  rintro _ _ ⟨b⟩
  rfl

lemma takes_stringNamed (expected : String) :
    (stringNamed expected : Codec α String).Takes r IsString := by
  rintro _ _ ⟨s⟩
  rfl

lemma takes_special {thing : String} {parse : String → Option T} {reason : String → String}
    {print : T → String} :
    (special thing parse reason print : Codec α T).Takes r (IsSpecial parse) := by
  rintro _ _ ⟨h⟩
  simp only [special, Outline.ofJson, h]

lemma takes_count {name : String} {bound : ℕ} :
    (count name bound : Codec α ℕ).Takes r (IsCount bound) := by
  rintro _ _ ⟨h⟩
  simp [count, Outline.ofJson, h]

lemma takes_scalar : (scalar : Codec α α).Takes r IsNumber := by
  rintro _ _ (n | x) <;> rfl

/-- An object from a name to `null` opens a level. -/
lemma takes_variants {all : List (String × T)} {other : Option T} {label : T → String}
    {named : String → T → Prop} (h : ∀ s v, named s v → variantOf all other s = .ok v)
    (hr : 0 < r.depth) : (variants all other label : Codec α T).Takes r (IsVariant named) := by
  rintro _ v (hname | @⟨s, _, hname⟩)
  · exact h _ _ hname
  · obtain ⟨r', enter⟩ := Reading.exists_enter hr
    obtain ⟨origin, depth⟩ := r
    have hvariant := h s v hname
    cases origin <;>
      simp only [variants, Outline.ofJson, Outline.ofJsonMembers, enter, variantKey, hvariant,
        nothing, bind, Except.bind] <;> rfl

omit [Scalar α] in
lemma takes_option (h : c.Takes r means) (hnull : ∀ v, ¬ means .null v) :
    c.option.Takes r (IsOption means) := by
  rintro _ _ (_ | hv)
  · rfl
  · have hread := h _ _ hv
    simp only [option]
    split
    · next hj => exact absurd (Outline.eq_null_of_ofJson hj ▸ hv) (hnull _)
    · next hj => exact absurd hj (Outline.ofJson_ne_broken _ _)
    · rw [hread]
      rfl

omit [Scalar α] in
lemma readAll_of_takes (h : c.Takes r means) {items : List (Json α)} {vs : List T}
    (hitems : List.Forall₂ means items vs) :
    readAll c r (Outline.ofJsonItems items) = .ok vs := by
  induction hitems with
  | nil => rfl
  | cons hx _ ih =>
    simp only [Outline.ofJsonItems, readAll, h _ _ hx, ih]
    rfl

lemma takes_list {r' : Reading} (enter : r.enter = .ok r') (h : c.Takes r' means) :
    (list c).Takes r (IsList means) := by
  rintro _ _ ⟨hitems⟩
  simp only [list, Outline.ofJson, enter, bind, Except.bind, readAll_of_takes h hitems]
  rfl

end Codec

/-! ## What is given -/

/-- A JSON value together with what it means. -/
structure Given (means : Json α → T → Prop) where
  json : Json α
  value : T
  sound : means json value

namespace Given

variable {means : Json α → T → Prop}

/-- The member of a name, if something is given. -/
def members (name : String) (g : Option (Given means)) : List (String × Json α) :=
  (g.map fun g => (name, g.json)).toList

/-- What is given, in place of something else. -/
def orElse (g : Option (Given means)) (v : T) : T := (g.map (·.value)).getD v

lemma forall_mem_members {name : String} {g : Option (Given means)} {P : String × Json α → Prop}
    (h : ∀ j v, means j v → P (name, j)) : ∀ m ∈ members name g, P m := by
  intro m hm
  cases g with
  | none => cases hm
  | some g =>
    rw [List.mem_singleton.mp hm]
    exact h _ _ g.sound

end Given

/-! ## Fields -/

/-- The members that give a field a value, or none. -/
inductive Field.Tells (f : Field α T) (r : Reading) : Option T → List (String × Json α) → Prop
  | none : f.Tells r none []
  | some {j : Json α} {v : T} (h : f.codec.read r (.ofJson j) = .ok v) :
      f.Tells r (some v) [(f.name, j)]

/-- What is given for a field tells it what to make of that. -/
lemma Given.tells_make {means : Json α → S → Prop} {f : Field α T} {r : Reading} {make : S → T}
    (h : ∀ j v, means j v → f.codec.read r (.ofJson j) = .ok (make v)) (g : Option (Given means)) :
    f.Tells r (g.map fun g => make g.value) (Given.members f.name g) := by
  cases g with
  | none => exact .none
  | some g => exact .some (h _ _ g.sound)

lemma Given.tells {means : Json α → T → Prop} {f : Field α T} {r : Reading}
    (h : f.codec.Takes r means) (g : Option (Given means)) :
    f.Tells r (g.map (·.value)) (Given.members f.name g) :=
  Given.tells_make h g

namespace Fields

/-- The members that give values to some of the fields, in their order. -/
inductive Tells (r : Reading) :
    {R S : Type} → Fields α R S → S → List (String × Json α) → Prop
  | nil : Tells r .nil () []
  | cons {T R S : Type} {f : Field α T} {fs : Fields α R S} {slot : Option T} {slots : S}
      {mine others : List (String × Json α)} (h : f.Tells r slot mine)
      (hs : Tells r fs slots others) : Tells r (.cons f fs) (slot, slots) (mine ++ others)

/-- The standard values of all fields, if all have one. -/
def standards {R S : Type} : Fields α R S → Option R
  | nil => some ()
  | cons f fs => match f.absent, fs.standards with
    | .standard v, some vs => some (v, vs)
    | _, _ => none

/-- The values that have been read, in place of others. -/
def overlay {R S : Type} : Fields α R S → S → R → R
  | nil, _, _ => ()
  | cons _ fs, (slot, slots), (v, vs) => (slot.getD v, fs.overlay slots vs)

variable {R S : Type} {fs : Fields α R S} {r : Reading}

lemma fillAll_append (slots : S) (ms ms' : List (Outline α × Outline α)) :
    fillAll r fs slots (ms ++ ms') = fillAll r fs slots ms >>= fun s => fillAll r fs s ms' := by
  induction ms generalizing slots with
  | nil => rfl
  | cons m ms ih =>
    obtain ⟨k, o⟩ := m
    simp only [List.cons_append, fillAll]
    cases hkey : k.key with
    | error e => rfl
    | ok key =>
      cases hfill : fill r key o fs slots with
      | error e => simp [hfill, bind, Except.bind]
      | ok slots' => simpa [hfill, bind, Except.bind] using ih slots'

lemma Tells.mem_names {slots : S} {told : List (String × Json α)} (h : fs.Tells r slots told) :
    ∀ m ∈ told, m.1 ∈ fs.names := by
  induction h with
  | nil => nofun
  | cons hfield _ ih =>
    intro m hm
    rcases List.mem_append.mp hm with hm | hm
    · cases hfield with
      | none => cases hm
      | some _ => exact List.mem_cons.mpr (.inl (by rw [List.mem_singleton.mp hm]))
    · exact List.mem_cons_of_mem _ (ih m hm)

/-- The order of the members does not matter.  The induction is on the fields: the member of the
first one is found somewhere, and the others are read before it and after it. -/
lemma Tells.fillAll {slots : S} {told ms : List (String × Json α)} (h : fs.Tells r slots told)
    (distinct : fs.Distinct) (perm : ms.Perm told) :
    fillAll r fs fs.empty (Outline.ofJsonMembers ms) = .ok slots := by
  induction h generalizing ms with
  | nil =>
    rw [perm.eq_nil]
    rfl
  | @cons T R S f fs slot slots mine others hfield hfields ih =>
    have hothers : ∀ m ∈ others, f.hasName m.1 = false :=
      fun m hm => distinct.1 m.1 (hfields.mem_names m hm)
    cases hfield with
    | none =>
      rw [empty, fillAll_cons fun m hm => hothers m (perm.subset hm), ih distinct.2 perm]
      rfl
    | @some j v hread =>
      obtain ⟨as, bs, rfl⟩ := List.append_of_mem (perm.mem_iff.mpr List.mem_cons_self)
      have hperm : (as ++ bs).Perm others := (List.perm_middle.symm.trans perm).cons_inv
      have hnames : ∀ m ∈ as ++ bs, f.hasName m.1 = false :=
        fun m hm => hothers m (hperm.subset hm)
      rw [List.forall_mem_append] at hnames
      have hall := ih distinct.2 hperm
      rw [Outline.ofJsonMembers_eq_map, List.map_append, fillAll_append] at hall
      obtain ⟨mid, has, hbs⟩ := exists_of_bind_eq_ok hall
      rw [← Outline.ofJsonMembers_eq_map] at has hbs
      have hfill : fill r f.name (.ofJson j) (.cons f fs) (none, mid) = .ok (some v, mid) := by
        have hname : f.hasName f.name = true := by simp [Field.hasName]
        simp only [fill, hname, if_true, hread]
        rfl
      rw [Outline.ofJsonMembers_eq_map, List.map_append, List.map_cons, fillAll_append,
        ← Outline.ofJsonMembers_eq_map, ← Outline.ofJsonMembers_eq_map, empty,
        fillAll_cons hnames.1, has]
      simp only [Except.map, bind, Except.bind, Fields.fillAll, Outline.key, hfill]
      rw [fillAll_cons hnames.2, hbs]
      rfl

/-- Fields that have not been read have their standard values. -/
lemma complete_of_standards {slots : S} {vs : R} (h : fs.standards = some vs) :
    fs.complete slots = .ok (fs.overlay slots vs) := by
  induction fs with
  | nil => rfl
  | cons f fs ih =>
    obtain ⟨slot, slots⟩ := slots
    simp only [standards] at h
    split at h
    · next v vs' habsent hstandards =>
      cases h
      have hresolve : resolve f slot = .ok (slot.getD v) := by
        cases slot <;> simp [resolve, habsent]
      simp only [complete, hresolve, ih hstandards]
      rfl
    · cases h

end Fields

/-! ## Records -/

namespace Codec

variable [Scalar α] {R S : Type} {r r' : Reading} {what : String} {fs : Fields α R S}
  {make : R → T} {parts : T → R}

/-- **What an object says is laid over the standard values.** -/
theorem read_overlay (enter : r.enter = .ok r') {told ms : List (String × Json α)}
    (perm : ms.Perm told) {slots : S} (tells : fs.Tells r' slots told) (apart : fs.apart = true)
    {vs : R} (standards : fs.standards = some vs) {v : T} (hv : make (fs.overlay slots vs) = v) :
    (record what fs make parts).read r (.ofJson (.obj ms)) = .ok v := by
  have hobject : readObject r' fs (Outline.ofJsonMembers ms) none = .ok (fs.overlay slots vs) := by
    simp only [readObject, tells.fillAll (Fields.distinct_of_apart apart) perm, Outline.finish,
      bind, Except.bind]
    exact Fields.complete_of_standards standards
  simp only [record, Outline.ofJson, enter, hobject, bind, Except.bind]
  rw [hv]
  rfl

end Codec

end Punter
