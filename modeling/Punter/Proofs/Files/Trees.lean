/-
# What stands in a file tree

A file tree says what stands at each place (`FileTree.get?`), and an operation on it is known by
what it makes of this.  The working directory and what is above it are directories by themselves, and
nothing can be put there (`FileTree.Proper`).  A new file gets a place at which nothing stands, since
there are more names than nodes.
-/
import Mathlib
import Punter.Files.Tree

namespace Punter.FileTree

variable {t t' : FileTree} {p q : Place}

/-! ## Putting and removing -/

@[simp]
lemma here_remove (t : FileTree) (p : Place) : (t.remove p).here = t.here := rfl

@[simp]
lemma here_put (t : FileTree) (p : Place) (n : FileNode) : (t.put p n).here = t.here := rfl

/-- A place at which something can be put. -/
def Proper (t : FileTree) (p : Place) : Prop := ¬ p <+: t.here

lemma proper_of_get?_ne_directory (h : t.get? p ≠ some .directory) : t.Proper p :=
  fun hp => h (by rw [get?, if_pos hp])

lemma proper_of_get?_eq_none (h : t.get? p = none) : t.Proper p :=
  proper_of_get?_ne_directory (by simp [h])

lemma ne_append_of_isPrefix {dir : Place} {name : String} (h : p <+: dir) :
    p ≠ dir ++ [name] := by
  rintro rfl
  simpa using h.length_le

lemma get?_remove_of_ne (h : q ≠ p) : (t.remove p).get? q = t.get? q := by
  unfold get?
  rw [here_remove, remove, List.find?_filter]
  congr 3
  funext n
  by_cases hn : n.1 = q <;> simp [hn, h]

lemma get?_remove (hp : t.Proper p) (q : Place) :
    (t.remove p).get? q = if q = p then none else t.get? q := by
  split
  · next hq =>
    rw [hq, get?, here_remove, if_neg hp, remove, List.find?_filter, Option.map_eq_none_iff,
      List.find?_eq_none]
    simp
  · next hq => exact get?_remove_of_ne hq

lemma get?_put (hp : t.Proper p) (n : FileNode) (q : Place) :
    (t.put p n).get? q = if q = p then some n else t.get? q := by
  have hremove := get?_remove hp q
  unfold get? at hremove ⊢
  rw [here_remove] at hremove
  rw [here_put]
  by_cases hq : q <+: t.here
  · have hne : q ≠ p := fun h => hp (h ▸ hq)
    rw [if_pos hq, if_neg hne, if_pos hq]
  · rw [if_neg hq, if_neg hq] at hremove ⊢
    rw [put, List.find?_append, Option.map_or, hremove]
    by_cases hqp : q = p
    · simp [hqp]
    · simp [hqp, Ne.symm hqp]

lemma content?_eq_of_get?_eq (h : t'.get? q = t.get? q) : t'.content? q = t.content? q := by
  rw [content?, content?, h]

/-- Whatever is removed, no file is left at its place, and the others stay. -/
lemma content?_remove (t : FileTree) (p q : Place) :
    (t.remove p).content? q = if q = p then none else t.content? q := by
  split
  · next hq =>
    by_cases hp : t.Proper p
    · rw [content?, get?_remove hp, if_pos hq]
    · rw [content?, hq, get?, here_remove, if_pos (not_not.mp hp)]
  · next hq => exact content?_eq_of_get?_eq (get?_remove_of_ne hq)

/-! ## Writing and moving -/

/-- A file can stand below directories. -/
lemma reach_eq_ok {above p : Place} {name : String}
    (h : ∀ q, q <+: p → q ≠ [] → t.get? (above ++ q) = some .directory) :
    t.reach above (p ++ [name]) = .ok () := by
  induction p generalizing above with
  | nil => rfl
  | cons x p ih =>
    have hfirst := h [x] (by simp) (by simp)
    have hrest : t.reach (above ++ [x]) (p ++ [name]) = .ok () := ih fun q hq _ => by
      have hq' := h (x :: q) (List.cons_prefix_cons.mpr ⟨rfl, hq⟩) (by simp)
      rwa [List.append_assoc, List.singleton_append]
    rw [List.cons_append, reach, hfirst]
    · exact hrest
    · simp

/-- There are directories along the way to a place, and there. -/
def Dirs (t : FileTree) (dir : Place) : Prop := ∀ p, p <+: dir → t.get? p = some .directory

namespace Dirs

variable {dir : Place} (h : t.Dirs dir)

include h

lemma put {name : String} (proper : t.Proper (dir ++ [name])) (n : FileNode) :
    (t.put (dir ++ [name]) n).Dirs dir := by
  intro p hp
  rw [get?_put proper, if_neg (ne_append_of_isPrefix hp)]
  exact h p hp

lemma reach (name : String) : t.reach [] (dir ++ [name]) = .ok () :=
  reach_eq_ok fun q hq _ => h q hq

/-- A file is written where no directory stands. -/
lemma write_eq_ok (name : String) (hname : t.get? (dir ++ [name]) ≠ some .directory)
    (content : String) :
    t.write (dir ++ [name]) content = .ok (t.put (dir ++ [name]) (.file content)) := by
  simp only [write, h.reach]
  rfl

/-- A file is moved to where no directory stands. -/
lemma rename_eq_ok {source target content : String}
    (hsource : t.get? (dir ++ [source]) = some (.file content))
    (htarget : t.get? (dir ++ [target]) ≠ some .directory) :
    t.rename (dir ++ [source]) (dir ++ [target]) =
      .ok ((t.remove (dir ++ [source])).put (dir ++ [target]) (.file content)) := by
  have hread : t.read (dir ++ [source]) = .ok content := by
    simp only [read, h.reach, hsource]
    rfl
  simp only [rename, hread, h.reach]
  rfl

end Dirs

lemma put_of_write {content : String} (h : t.write p content = .ok t') :
    t.get? p ≠ some .directory ∧ t' = t.put p (.file content) := by
  simp only [write, bind, Except.bind] at h
  split at h
  · cases h
  · split at h
    · cases h
    · next hdir => exact ⟨hdir, (Except.ok.inj h).symm⟩

lemma get?_of_read {content : String} (h : t.read p = .ok content) :
    t.get? p = some (.file content) := by
  simp only [read, bind, Except.bind] at h
  split at h
  · cases h
  · split at h
    · next hget =>
      obtain rfl := Except.ok.inj h
      exact hget
    · cases h
    · cases h

/-- A file that is moved has the content with which it was read. -/
lemma put_of_rename {source target : Place} (h : t.rename source target = .ok t') :
    ∃ content, t.get? source = some (.file content) ∧ t.get? target ≠ some .directory ∧
      t' = (t.remove source).put target (.file content) := by
  simp only [rename, bind, Except.bind] at h
  split at h
  · cases h
  · next content hread =>
    split at h
    · cases h
    · split at h
      · cases h
      · next hdir => exact ⟨content, get?_of_read hread, hdir, (Except.ok.inj h).symm⟩

/-! ## New files -/

/-- The number that is found is free, unless none was among those that were tried. -/
lemma freeNumber_spec (t : FileTree) (dir : Place) (tries n : ℕ) :
    t.get? (dir ++ [temporaryName (t.freeNumber dir tries n)]) = none ∨
      (t.freeNumber dir tries n = n + tries ∧
        ∀ i < tries, t.get? (dir ++ [temporaryName (n + i)]) ≠ none) := by
  induction tries generalizing n with
  | zero => exact .inr ⟨rfl, by simp⟩
  | succ tries ih =>
    cases hget : t.get? (dir ++ [temporaryName n]) with
    | none => exact .inl (by simp only [freeNumber, hget])
    | some node =>
      simp only [freeNumber, hget]
      rcases ih (n + 1) with hfree | ⟨heq, htaken⟩
      · exact .inl hfree
      · refine .inr ⟨by rw [heq]; omega, fun i hi => ?_⟩
        cases i with
        | zero => simp [hget]
        | succ i =>
          rw [show n + (i + 1) = n + 1 + i by omega]
          exact htaken i (by omega)

lemma temporaryName_injective : Function.Injective temporaryName := by
  intro m n h
  have hchars := congrArg String.toList h
  simp only [temporaryName, Number.numeral, String.toList_append, String.toList_ofList] at hchars
  have hdigits := congrArg Number.ofDigits (List.append_cancel_left hchars)
  rwa [Number.ofDigits_digits, Number.ofDigits_digits] at hdigits

/-- What stands in a directory is a node, unless it leads to the working directory. -/
lemma mem_places_of_get?_ne_none {dir : Place} {name : String}
    (h : t.get? (dir ++ [name]) ≠ none) :
    dir ++ [name] ∈ t.here.take (dir.length + 1) :: t.nodes.map Prod.fst := by
  rw [get?] at h
  split at h
  · next hprefix =>
    have htake := List.prefix_iff_eq_take.mp hprefix
    rw [List.length_append, List.length_singleton] at htake
    exact htake ▸ List.mem_cons_self
  · rw [Ne, Option.map_eq_none_iff, List.find?_eq_none] at h
    push Not at h
    obtain ⟨node, hnode, heq⟩ := h
    exact List.mem_cons_of_mem _ (List.mem_map.mpr ⟨node, hnode, by simpa using heq⟩)

/-- Only as many places are taken as there are nodes, and one more. -/
lemma exists_free (t : FileTree) (dir : Place) :
    ∃ n ≤ t.nodes.length + 1, t.get? (dir ++ [temporaryName n]) = none := by
  by_contra hall
  push Not at hall
  -- otherwise there would be more of them
  let places := (List.range (t.nodes.length + 2)).map fun n => dir ++ [temporaryName n]
  have hnodup : places.Nodup := by
    refine List.nodup_range.map fun m n h => temporaryName_injective ?_
    exact (List.cons.inj (List.append_cancel_left h)).1
  have hsubset : places ⊆ t.here.take (dir.length + 1) :: t.nodes.map Prod.fst := by
    intro p hp
    obtain ⟨n, hn, rfl⟩ := List.mem_map.mp hp
    exact mem_places_of_get?_ne_none (hall n (Nat.lt_succ_iff.mp (List.mem_range.mp hn)))
  have hlength := (hnodup.subperm hsubset).length_le
  simp [places] at hlength

/-- New files are put where nothing stands. -/
lemma get?_freePlace (t : FileTree) (dir : Place) : t.get? (t.freePlace dir) = none := by
  rcases t.freeNumber_spec dir (t.nodes.length + 1) 0 with hfree | ⟨heq, htaken⟩
  · exact hfree
  · obtain ⟨n, hn, hfree⟩ := t.exists_free dir
    rcases hn.lt_or_eq with hlt | rfl
    · exact absurd hfree (by simpa using htaken n hlt)
    · rw [freePlace, heq, Nat.zero_add]
      exact hfree

end Punter.FileTree
