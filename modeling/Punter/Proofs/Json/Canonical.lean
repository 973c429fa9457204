/-
# Free-form data that was read

A reader that takes any value gives one in canonical form: the members of its objects are ordered by
their keys, no key occurs twice, and the value is not deeper than the reader allows.  It can be
written again if the numbers of the text can (`Outline.settled_of_toJson`).

Which numbers a text has is said for its outline (`Outline.numbers`).  The scanner gives integers of
64 bits only, with or without a sign (`Outline.fits_of_scan`).
-/
import Mathlib
import Punter.Proofs.Json.Records

namespace Punter

open Number

variable {α : Type}

/-! ## Readers that succeed -/

section Except

variable {A B : Type} {x : Except Fault A} {b : B}

lemma exists_of_bind_eq_ok {f : A → Except Fault B} (h : x >>= f = .ok b) :
    ∃ a, x = .ok a ∧ f a = .ok b := by
  cases x with
  | error e => cases h
  | ok a => exact ⟨a, rfl, h⟩

lemma exists_of_map_eq_ok {f : A → B} (h : x.map f = .ok b) : ∃ a, x = .ok a ∧ f a = b := by
  cases x with
  | error e => cases h
  | ok a => exact ⟨a, rfl, Except.ok.inj h⟩

lemma eq_of_finish_eq_ok {ending : Option Fault} {b' : B}
    (h : Outline.finish ending b = .ok b') :
    ending = none ∧ b = b' := by
  cases ending with
  | none => exact ⟨rfl, Except.ok.inj h⟩
  | some f => cases h

end Except

/-! ## Members in canonical order -/

namespace Json

/-- The keys of the members ascend. -/
def Ordered (members : List (String × Json α)) : Prop := members.Pairwise (·.1 < ·.1)

variable {k : String} {v : Json α} {ms : List (String × Json α)} {m : String × Json α}

lemma mem_of_mem_insert (hm : m ∈ insert k v ms) : m = (k, v) ∨ m ∈ ms := by
  induction ms with
  | nil => exact .inl (List.mem_singleton.mp hm)
  | cons x ms ih =>
    rw [insert] at hm
    split_ifs at hm with hlt heq
    · exact List.mem_cons.mp hm
    · exact (List.mem_cons.mp hm).imp_right (List.mem_cons_of_mem _)
    · rcases List.mem_cons.mp hm with rfl | hm
      · exact .inr List.mem_cons_self
      · exact (ih hm).imp_right (List.mem_cons_of_mem _)

lemma ordered_insert (h : Ordered ms) : Ordered (insert k v ms) := by
  induction ms with
  | nil => exact List.pairwise_singleton _ _
  | cons x ms ih =>
    obtain ⟨hx, hms⟩ := List.pairwise_cons.mp h
    rw [insert]
    split_ifs with hlt heq
    · refine List.pairwise_cons.mpr ⟨List.forall_mem_cons.mpr ⟨hlt, fun m hm => ?_⟩, h⟩
      exact lt_trans hlt (hx m hm)
    · exact List.pairwise_cons.mpr ⟨fun m hm => heq ▸ hx m hm, hms⟩
    · refine List.pairwise_cons.mpr ⟨fun m hm => ?_, ih hms⟩
      rcases mem_of_mem_insert hm with rfl | hm
      · exact lt_of_le_of_ne (not_lt.mp hlt) (Ne.symm heq)
      · exact hx m hm

/-- A key above all others is set at the end. -/
lemma insert_of_forall_lt (h : ∀ m ∈ ms, m.1 < k) : insert k v ms = ms ++ [(k, v)] := by
  induction ms with
  | nil => rfl
  | cons x ms ih =>
    have hx : x.1 < k := h x List.mem_cons_self
    rw [insert, if_neg (not_lt.mpr hx.le), if_neg hx.ne', ih fun m hm => h m (.tail _ hm)]
    rfl

lemma mem_of_mem_canonical (hm : m ∈ canonical ms) : m ∈ ms := by
  have hfold : ∀ ms acc : List (String × Json α),
      m ∈ ms.foldl (fun acc m => insert m.1 m.2 acc) acc → m ∈ ms ∨ m ∈ acc := by
    intro ms
    induction ms with
    | nil => exact fun acc => .inr
    | cons x ms ih =>
      intro acc hm
      rcases ih _ hm with hm | hm
      · exact .inl (.tail _ hm)
      · rcases mem_of_mem_insert hm with rfl | hm
        · exact .inl List.mem_cons_self
        · exact .inr hm
  simpa using hfold ms [] hm

lemma ordered_canonical (ms : List (String × Json α)) : Ordered (canonical ms) := by
  have hfold : ∀ ms acc : List (String × Json α), Ordered acc →
      Ordered (ms.foldl (fun acc m => insert m.1 m.2 acc) acc) := by
    intro ms
    induction ms with
    | nil => exact fun acc h => h
    | cons x ms ih => exact fun acc h => ih _ (ordered_insert h)
  exact hfold ms [] List.Pairwise.nil

/-- Members in canonical order stay as they are.  The induction is on the members still to be set,
all of which are above those that have been set. -/
lemma Ordered.canonical_eq (h : Ordered ms) : canonical ms = ms := by
  have hfold : ∀ ms acc : List (String × Json α), Ordered (acc ++ ms) →
      ms.foldl (fun acc m => insert m.1 m.2 acc) acc = acc ++ ms := by
    intro ms
    induction ms with
    | nil => simp
    | cons x ms ih =>
      intro acc h
      have habove : ∀ m ∈ acc, m.1 < x.1 := fun m hm =>
        (List.pairwise_append.mp h).2.2 m hm x List.mem_cons_self
      rw [List.foldl_cons, insert_of_forall_lt habove, ih _ (by simpa using h)]
      simp
  exact hfold ms [] h

lemma canonicalizeItems_eq {items : List (Json α)} (h : ∀ x ∈ items, x.canonicalize = x) :
    canonicalizeItems items = items := by
  induction items with
  | nil => rfl
  | cons x xs ih => rw [canonicalizeItems, h x List.mem_cons_self, ih fun y hy => h y (.tail _ hy)]

lemma canonicalizeMembers_eq (h : ∀ m ∈ ms, m.2.canonicalize = m.2) :
    canonicalizeMembers ms = ms := by
  induction ms with
  | nil => rfl
  | cons m ms ih =>
    rw [canonicalizeMembers, h m List.mem_cons_self, ih fun y hy => h y (.tail _ hy)]

lemma depthItems_le {items : List (Json α)} {d : ℕ} :
    depthItems items ≤ d ↔ ∀ x ∈ items, x.depth ≤ d := by
  induction items with
  | nil => simp [depthItems]
  | cons x xs ih => simp [depthItems, ih]

lemma depthMembers_le {d : ℕ} : depthMembers ms ≤ d ↔ ∀ m ∈ ms, m.2.depth ≤ d := by
  induction ms with
  | nil => simp [depthMembers]
  | cons x xs ih => simp [depthMembers, ih]

end Json

/-! ## Numbers -/

namespace Json.Number

/-- The number as one of those the agent computes with. -/
def toScalar [Scalar α] : Json.Number α → α
  | int n => Scalar.ofInt n
  | real x => x

/-- An integer fits into 64 bits, with or without a sign. -/
def Fits : Json.Number α → Prop
  | int n => -2 ^ 63 ≤ n ∧ n < 2 ^ 64
  | real _ => True

end Json.Number

namespace Outline

/-! ## `null` -/

lemma eq_null_of_ofJson {v : Json α} (h : ofJson v = .null) : v = .null := by
  cases v <;> first | rfl | cases h

lemma ofJson_ne_broken (v : Json α) (b : Break) : ofJson v ≠ .broken b := by
  cases v <;> nofun

/-- Only `null` is read as `null`. -/
lemma eq_null_of_toJson {d : ℕ} {o : Outline α} (h : o.toJson d = .ok .null) : o = .null := by
  cases o with
  | null => rfl
  | bool b => cases h
  | number value => rcases value with f | n | x <;> cases h
  | text content => cases content <;> cases h
  | array items ending =>
    cases d with
    | zero => cases h
    | succ d =>
      obtain ⟨vs, -, h⟩ := exists_of_bind_eq_ok h
      cases (eq_of_finish_eq_ok h).2
  | object members ending =>
    cases d with
    | zero => cases h
    | succ d =>
      obtain ⟨ms, -, h⟩ := exists_of_bind_eq_ok h
      cases (eq_of_finish_eq_ok h).2
  | broken b => cases h
  | misplaced o => cases h

/-! ## The numbers of a text -/

mutual

/-- The numbers of a text in their order. -/
def numbers : Outline α → List (Json.Number α)
  | number (.ok n) => [n]
  | array items _ => numbersItems items
  | object members _ => numbersMembers members
  | _ => []

/-- The numbers of items. -/
def numbersItems : List (Outline α) → List (Json.Number α)
  | [] => []
  | x :: xs => numbers x ++ numbersItems xs

/-- The numbers of the values of members. -/
def numbersMembers : List (Outline α × Outline α) → List (Json.Number α)
  | [] => []
  | (_, x) :: ms => numbers x ++ numbersMembers ms

end

lemma mem_numbersItems {n : Json.Number α} {items : List (Outline α)} :
    n ∈ numbersItems items ↔ ∃ x ∈ items, n ∈ x.numbers := by
  induction items with
  | nil => simp [numbersItems]
  | cons x xs ih => simp [numbersItems, ih]

lemma mem_numbersMembers {n : Json.Number α} {members : List (Outline α × Outline α)} :
    n ∈ numbersMembers members ↔ ∃ m ∈ members, n ∈ m.2.numbers := by
  induction members with
  | nil => simp [numbersMembers]
  | cons m ms ih => simp [numbersMembers, ih]

/-- The integers fit into 64 bits. -/
def Fits (o : Outline α) : Prop := ∀ n ∈ o.numbers, n.Fits

lemma fits_of_numbers_eq_nil {o : Outline α} (h : o.numbers = []) : o.Fits := by
  simp [Fits, h]

lemma fits_array {items : List (Outline α)} {ending : Option Fault}
    (h : ∀ n ∈ numbersItems items, n.Fits) : (array items ending).Fits := h

lemma fits_object {members : List (Outline α × Outline α)} {ending : Option Fault}
    (h : ∀ n ∈ numbersMembers members, n.Fits) : (object members ending).Fits := h

lemma fits_scanWord {value : Outline α} (hvalue : value.numbers = []) (ws cs : List Char) :
    (scanWord value ws cs).1.Fits := by
  fun_induction scanWord value ws cs with
  | case1 => exact fits_of_numbers_eq_nil hvalue
  | case2 => exact fits_of_numbers_eq_nil rfl
  | case3 _ _ _ ih => exact ih
  | case4 => exact fits_of_numbers_eq_nil rfl

lemma fits_scanText (content : List Char) (half : Option ℕ) (earlier : Option Fault)
    (cs : List Char) : (scanText content half earlier cs : Scan α).1.Fits := by
  fun_induction @scanText α content half earlier cs <;>
    first | assumption | exact fits_of_numbers_eq_nil rfl

lemma fits_digitless (rest : List Char) : (digitless rest : Scan α).1.Fits :=
  fits_of_numbers_eq_nil rfl

section Scan

variable [Scalar α] {negative pointed : Bool} {whole fraction cs : List Char}

lemma fits_realNumber (d : Decimal) : (number (realNumber negative d) : Outline α).Fits := by
  unfold realNumber
  split
  · simp [Fits, numbers, Json.Number.Fits]
  · exact fits_of_numbers_eq_nil rfl

lemma fits_wholeNumber (n : ℕ) : (number (wholeNumber negative n) : Outline α).Fits := by
  have hint : ∀ m : ℤ, -2 ^ 63 ≤ m → m < 2 ^ 64 → (number (.ok (.int m)) : Outline α).Fits := by
    intro m hlower hupper
    simpa [Fits, numbers, Json.Number.Fits] using And.intro hlower hupper
  have hsize : UInt64.size = 2 ^ 64 := rfl
  unfold wholeNumber
  split_ifs with hneg hout hin
  · exact fits_realNumber _
  · exact hint _ (by omega) (by omega)
  · exact hint _ (by omega) (by omega)
  · exact fits_realNumber _

lemma fits_scanExponent :
    (scanExponent negative whole fraction pointed cs : Scan α).1.Fits := by
  unfold scanExponent
  dsimp only
  split
  · next c rest =>
    by_cases hexp : c = 'e' ∨ c = 'E'
    · rw [if_pos hexp]
      split
      · exact fits_digitless _
      · exact fits_realNumber _
    · rw [if_neg hexp]
      split
      · exact fits_realNumber _
      · exact fits_wholeNumber _
  · split
    · exact fits_realNumber _
    · exact fits_wholeNumber _

lemma fits_scanFraction : (scanFraction negative whole cs : Scan α).1.Fits := by
  unfold scanFraction
  split
  · split
    · exact fits_digitless _
    · exact fits_scanExponent
  · exact fits_scanExponent

lemma fits_scanNumber : (scanNumber negative cs : Scan α).1.Fits := by
  unfold scanNumber
  split
  · exact fits_digitless _
  · exact fits_scanFraction
  · exact fits_of_numbers_eq_nil rfl
  · exact fits_scanFraction

/-- All values, items and members that are scanned with some fuel have integers that fit. -/
def ScansFit (α : Type) [Scalar α] (n : ℕ) : Prop :=
  (∀ cs, (scanValue n cs : Scan α).1.Fits) ∧
    (∀ first cs, ∀ k ∈ numbersItems (@scanItems α _ first n cs).1, k.Fits) ∧
      ∀ first cs, ∀ k ∈ numbersMembers (@scanMembers α _ first n cs).1, k.Fits

variable {n : ℕ}

lemma ScansFit.value (h : ScansFit α n) : ∀ cs, (scanValue (n + 1) cs : Scan α).1.Fits := by
  intro cs
  unfold scanValue
  split
  · exact fits_of_numbers_eq_nil rfl
  · exact fits_scanWord rfl _ _
  · exact fits_scanWord rfl _ _
  · exact fits_scanWord rfl _ _
  · exact fits_scanNumber
  · exact fits_scanText _ _ _ _
  · split
    · exact fits_of_numbers_eq_nil rfl
    · exact fits_array (h.2.1 _ _)
  · split
    · exact fits_of_numbers_eq_nil rfl
    · exact fits_object (h.2.2 _ _)
  · split
    · exact fits_scanNumber
    · exact fits_of_numbers_eq_nil rfl

lemma ScansFit.items (h : ScansFit α n) (first : Bool) (cs : List Char) :
    ∀ k ∈ numbersItems (@scanItems α _ first (n + 1) cs).1, k.Fits := by
  have hone : ∀ {x : Outline α}, x.Fits → ∀ k ∈ numbersItems [x], k.Fits := by
    intro x hx k hk
    exact hx k (by simpa [numbersItems] using hk)
  have hvalue : ∀ {x : Outline α} {rest : Option (List Char)},
      scanValue n cs = (x, rest) → x.Fits := by
    intro x rest hscan
    have hfits := h.1 cs
    rwa [hscan] at hfits
  unfold scanItems
  split
  · next x hx =>
    refine hone (fits_of_numbers_eq_nil ?_)
    unfold noItem at hx
    split at hx
    · split at hx <;> cases hx <;> rfl
    · cases hx
      rfl
    · cases hx
  · split
    · next hscan => exact hone (hvalue hscan)
    · next hscan =>
      split
      · exact hone (hvalue hscan)
      · intro k hk
        rcases List.mem_append.mp hk with hk | hk
        · exact hvalue hscan k hk
        · exact h.2.1 _ _ k hk
      · exact hone (hvalue hscan)
      · exact hone (hvalue hscan)

lemma ScansFit.members (h : ScansFit α n) (first : Bool) (cs : List Char) :
    ∀ k ∈ numbersMembers (@scanMembers α _ first (n + 1) cs).1, k.Fits := by
  have hone : ∀ {key x : Outline α}, x.Fits → ∀ k ∈ numbersMembers [(key, x)], k.Fits := by
    intro key x hx k hk
    exact hx k (by simpa [numbersMembers] using hk)
  have hvalue : ∀ {cs : List Char} {x : Outline α} {rest : Option (List Char)},
      scanValue n cs = (x, rest) → x.Fits := by
    intro cs x rest hscan
    have hfits := h.1 cs
    rwa [hscan] at hfits
  unfold scanMembers
  split
  · exact hone (fits_of_numbers_eq_nil rfl)
  · split
    · split
      · next hscan => exact hone (hvalue hscan)
      · next hscan =>
        split
        · exact hone (hvalue hscan)
        · intro k hk
          rcases List.mem_append.mp hk with hk | hk
          · exact hvalue hscan k hk
          · exact h.2.2 _ _ k hk
        · exact hone (hvalue hscan)
        · exact hone (hvalue hscan)
    · exact hone (fits_of_numbers_eq_nil rfl)
    · exact hone (fits_of_numbers_eq_nil rfl)

lemma scansFit (n : ℕ) : ScansFit α n := by
  induction n with
  | zero =>
    have hstray : (stray : Outline α).numbers = [] := rfl
    refine ⟨fun _ => fits_of_numbers_eq_nil hstray, fun first cs k hk => ?_,
      fun first cs k hk => ?_⟩
    · simp [scanItems, numbersItems, hstray] at hk
    · simp [scanMembers, numbersMembers, hstray] at hk
  | succ n ih => exact ⟨ih.value, ih.items, ih.members⟩

/-- The integers of a text fit into 64 bits. -/
theorem fits_of_scan (cs : List Char) : (scan cs : Scan α).1.Fits := (scansFit _).1 cs

end Scan

/-! ## Reading any value -/

variable [Scalar α]

/-- The integers fit into 64 bits, and all numbers are read as what they are when the agent writes
them. -/
def Sound (o : Outline α) : Prop := ∀ n ∈ o.numbers, n.Fits ∧ Scalar.ReadsBack n.toScalar

section Sound

variable {k o : Outline α} {items : List (Outline α)} {members : List (Outline α × Outline α)}
  {ending : Option Fault}

lemma Sound.of_mem_items (h : (array items ending).Sound) (ho : o ∈ items) : o.Sound :=
  fun n hn => h n (mem_numbersItems.mpr ⟨o, ho, hn⟩)

lemma Sound.of_mem_members (h : (object members ending).Sound) (ho : (k, o) ∈ members) : o.Sound :=
  fun n hn => h n (mem_numbersMembers.mpr ⟨(k, o), ho, hn⟩)

end Sound

end Outline

/-- A value in canonical form that can be written, of at most `d` levels. -/
structure Json.Settled [Scalar α] (d : ℕ) (v : Json α) : Prop where
  legible : v.Legible
  canonical : v.canonicalize = v
  depth_le : v.depth ≤ d

namespace Outline

variable [Scalar α]

/-- All values up to a depth are read in canonical form. -/
def Settles (α : Type) [Scalar α] (d : ℕ) : Prop :=
  ∀ (o : Outline α) (v : Json α), o.Sound → toJson d o = .ok v → v.Settled d

lemma Settles.of_items {d : ℕ} (h : Settles α d) {items : List (Outline α)}
    (sound : ∀ x ∈ items, x.Sound) {vs : List (Json α)} (hread : toJsonItems d items = .ok vs) :
    ∀ v ∈ vs, v.Settled d := by
  induction items generalizing vs with
  | nil =>
    cases hread
    simp
  | cons x xs ih =>
    rw [List.forall_mem_cons] at sound
    obtain ⟨v, hv, hread⟩ := exists_of_bind_eq_ok hread
    obtain ⟨vs', hvs, hread⟩ := exists_of_bind_eq_ok hread
    cases hread
    exact List.forall_mem_cons.mpr ⟨h x v sound.1 hv, ih sound.2 hvs⟩

lemma Settles.of_members {d : ℕ} (h : Settles α d) {members : List (Outline α × Outline α)}
    (sound : ∀ m ∈ members, m.2.Sound) {ms : List (String × Json α)}
    (hread : toJsonMembers d members = .ok ms) : ∀ m ∈ ms, m.2.Settled d := by
  induction members generalizing ms with
  | nil =>
    cases hread
    simp
  | cons m members ih =>
    rw [List.forall_mem_cons] at sound
    obtain ⟨name, -, hread⟩ := exists_of_bind_eq_ok hread
    obtain ⟨v, hv, hread⟩ := exists_of_bind_eq_ok hread
    obtain ⟨ms', hms, hread⟩ := exists_of_bind_eq_ok hread
    cases hread
    exact List.forall_mem_cons.mpr ⟨h m.2 v sound.1 hv, ih sound.2 hms⟩

end Outline

namespace Json

variable [Scalar α] {d : ℕ}

lemma settled_arr {vs : List (Json α)} (h : ∀ v ∈ vs, v.Settled d) : (arr vs).Settled (d + 1) where
  legible := .arr fun v hv => (h v hv).legible
  canonical := by rw [canonicalize, canonicalizeItems_eq fun v hv => (h v hv).canonical]
  depth_le := Nat.succ_le_succ (depthItems_le.mpr fun v hv => (h v hv).depth_le)

/-- Only the order of the members changes, and which of them are left. -/
lemma settled_obj {ms : List (String × Json α)} (h : ∀ m ∈ ms, m.2.Settled d) :
    (obj (canonical ms)).Settled (d + 1) := by
  have hms : ∀ m ∈ canonical ms, m.2.Settled d := fun m hm => h m (mem_of_mem_canonical hm)
  refine ⟨.obj fun m hm => (hms m hm).legible, ?_, ?_⟩
  · rw [canonicalize, canonicalizeMembers_eq fun m hm => (hms m hm).canonical,
      (ordered_canonical ms).canonical_eq]
  · exact Nat.succ_le_succ (depthMembers_le.mpr fun m hm => (hms m hm).depth_le)

end Json

namespace Outline

variable [Scalar α]

lemma sound_number {n : Json.Number α} :
    (number (.ok n) : Outline α).Sound ↔ n.Fits ∧ Scalar.ReadsBack n.toScalar := by
  simp [Sound, numbers]

lemma settles_of_pred {d : ℕ} (ih : ∀ d', d = d' + 1 → Settles α d') : Settles α d := by
  intro o v sound hread
  cases o with
  | null =>
    cases hread
    exact ⟨.null, rfl, d.zero_le⟩
  | bool b =>
    cases hread
    exact ⟨.bool b, rfl, d.zero_le⟩
  | number value =>
    rcases value with f | n | x
    · cases hread
    · cases hread
      have hfits := (sound_number.mp sound).1
      exact ⟨.int hfits.1 hfits.2, rfl, d.zero_le⟩
    · cases hread
      exact ⟨.num (sound_number.mp sound).2, rfl, d.zero_le⟩
  | text content =>
    cases content with
    | error f => cases hread
    | ok s =>
      cases hread
      exact ⟨.str s, rfl, d.zero_le⟩
  | array items ending =>
    cases d with
    | zero => cases hread
    | succ d =>
      obtain ⟨vs, hvs, hread⟩ := exists_of_bind_eq_ok hread
      obtain ⟨-, rfl⟩ := eq_of_finish_eq_ok hread
      exact Json.settled_arr ((ih d rfl).of_items (fun x hx => sound.of_mem_items hx) hvs)
  | object members ending =>
    cases d with
    | zero => cases hread
    | succ d =>
      obtain ⟨ms, hms, hread⟩ := exists_of_bind_eq_ok hread
      obtain ⟨-, rfl⟩ := eq_of_finish_eq_ok hread
      exact Json.settled_obj ((ih d rfl).of_members (fun m hm => sound.of_mem_members hm) hms)
  | broken b => cases hread
  | misplaced o => cases hread

/-- **Any value is read in canonical form.**  The induction is on the depth. -/
theorem settled_of_toJson (d : ℕ) : Settles α d := by
  induction d with
  | zero => exact settles_of_pred nofun
  | succ d ih =>
    refine settles_of_pred fun d' hd => ?_
    rwa [← Nat.succ.inj hd]

end Outline

end Punter
