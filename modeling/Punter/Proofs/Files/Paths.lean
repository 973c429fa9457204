/-
# Where paths lead

A path is read component by component, from the front when one looks where it leads, and from the
back when one looks for its directory.  This file brings both together: the directory of a path
that was joined from a directory and a name leads to where the directory leads, and the path itself
to the name below it.  The names of exports are such names.
-/
import Mathlib
import Punter.Files.Path

namespace Punter.Path

/-! ## Components -/

variable {here : Place}

/-- Where a path with these characters leads. -/
def componentsOf (here : Place) (cs : List Char) : Place :=
  (split cs).foldl follow (if cs.head? = some '/' then [] else here)

lemma components_eq (here : Place) (path : String) :
    components here path = componentsOf here path.toList := by
  have hslash : path.startsWith "/" = true ↔ path.toList.head? = some '/' := by
    rw [String.startsWith_string_iff]
    cases path.toList with
    | nil => simp
    | cons c cs => simp [List.cons_prefix_cons, eq_comm]
  simp only [components, componentsOf, origin, hslash]

lemma split_cons_of_ne {c : Char} (hc : c ≠ '/') {cs part : List Char} {parts : List (List Char)}
    (h : split cs = part :: parts) : split (c :: cs) = (c :: part) :: parts := by
  rw [split, h]
  simp [hc]

lemma exists_split (cs : List Char) : ∃ part parts, split cs = part :: parts := by
  cases cs with
  | nil => exact ⟨[], [], rfl⟩
  | cons c cs =>
    rw [split]
    split
    · exact ⟨_, _, rfl⟩
    · split <;> exact ⟨_, _, rfl⟩

lemma split_slash (cs : List Char) : split ('/' :: cs) = [] :: split cs := by
  obtain ⟨part, parts, h⟩ := exists_split cs
  rw [split, h]
  rfl

/-- A slash separates what is before it from what is after it. -/
lemma split_append (xs ys : List Char) : split (xs ++ '/' :: ys) = split xs ++ split ys := by
  induction xs with
  | nil => exact split_slash ys
  | cons c xs ih =>
    by_cases hc : c = '/'
    · rw [hc, List.cons_append, split_slash, split_slash, ih]
      rfl
    · obtain ⟨part, parts, h⟩ := exists_split xs
      rw [h, List.cons_append] at ih
      rw [List.cons_append, split_cons_of_ne hc ih, split_cons_of_ne hc h]
      rfl

lemma split_of_notMem {cs : List Char} (h : '/' ∉ cs) : split cs = [cs] := by
  induction cs with
  | nil => rfl
  | cons c cs ih =>
    rw [List.mem_cons, not_or] at h
    exact split_cons_of_ne (Ne.symm h.1) (ih h.2)

/-- What follows a slash is followed from where the path before it leads. -/
lemma componentsOf_append (xs : List Char) {ys : List Char} (h : '/' ∉ ys) :
    componentsOf here (xs ++ '/' :: ys) = follow (componentsOf here (xs ++ ['/'])) ys := by
  have hhead : (xs ++ '/' :: ys).head? = (xs ++ ['/']).head? := by cases xs <;> rfl
  rw [componentsOf, componentsOf, hhead, split_append, split_append, split_of_notMem h]
  simp only [List.foldl_append, List.foldl_cons, List.foldl_nil]
  rfl

/-- A slash at the end leads nowhere. -/
lemma componentsOf_slash {xs : List Char} (h : xs ≠ []) :
    componentsOf here (xs ++ ['/']) = componentsOf here xs := by
  have hhead : (xs ++ ['/']).head? = xs.head? := by
    cases xs with
    | nil => exact (h rfl).elim
    | cons => rfl
  rw [componentsOf, componentsOf, hhead, split_append, List.foldl_append]
  rfl

/-- What is cut off at the end of a path does not matter to where it leads.  The characters are
given from the back. -/
lemma componentsOf_trimEnd (cs : List Char) :
    componentsOf here (trimEnd cs).reverse = componentsOf here cs.reverse := by
  fun_induction trimEnd cs with
  | case1 => rfl
  | case2 rest hrest ih =>
    have hne : rest.reverse ≠ [] := by simpa using hrest
    rw [ih, List.reverse_cons, componentsOf_slash hne]
  | case3 rest ih =>
    have hdot : ('.' :: '/' :: rest).reverse = rest.reverse ++ '/' :: ['.'] := by simp
    rw [ih, hdot, componentsOf_append _ (by decide), List.reverse_cons]
    rfl
  | case4 => rfl

/-! ## The way along a path -/

lemma self_mem_way (here : Place) (parts : List (List Char)) : here ∈ way here parts := by
  cases parts <;> simp [way]

lemma isPrefix_follow {p : Place} {part : List Char} (h : p <+: follow here part) :
    p <+: here ∨ p = follow here part := by
  unfold follow at h ⊢
  split
  · next hnone =>
    rw [if_pos hnone] at h
    exact .inl h
  · next hnone =>
    rw [if_neg hnone] at h
    split
    · next hback =>
      rw [if_pos hback] at h
      exact .inl (h.trans (List.dropLast_prefix here))
    · next hback =>
      rw [if_neg hback] at h
      exact (List.prefix_concat_iff.mp h).symm

/-- Whatever leads to where components lead was come through, or is behind the beginning. -/
lemma mem_way_of_isPrefix {p : Place} {parts : List (List Char)}
    (h : p <+: parts.foldl follow here) : p <+: here ∨ p ∈ way here parts := by
  induction parts generalizing here with
  | nil => exact .inl h
  | cons part parts ih =>
    rcases ih h with h | h
    · rcases isPrefix_follow h with h | rfl
      · exact .inl h
      · exact .inr (List.mem_cons_of_mem _ (self_mem_way _ _))
    · exact .inr (List.mem_cons_of_mem _ h)

lemma isPrefix_follow_of_ne {part : List Char} (h : part ≠ ['.', '.']) (here : Place) :
    here <+: follow here part := by
  unfold follow
  split
  · exact List.prefix_rfl
  · exact List.prefix_append _ _

lemma isPrefix_foldl_follow {parts : List (List Char)} (h : ['.', '.'] ∉ parts)
    (here : Place) : here <+: parts.foldl follow here := by
  induction parts generalizing here with
  | nil => exact List.prefix_rfl
  | cons part parts ih =>
    obtain ⟨hpart, hparts⟩ := List.ne_and_not_mem_of_not_mem_cons h
    exact (isPrefix_follow_of_ne hpart.symm here).trans (ih hparts _)

/-- On a way that never leads back one comes through nothing but what is on the way. -/
lemma isPrefix_of_mem_way {q : Place} {parts : List (List Char)}
    (h : ['.', '.'] ∉ parts) (hq : q ∈ way here parts) : q <+: parts.foldl follow here := by
  induction parts generalizing here with
  | nil =>
    obtain rfl := List.mem_singleton.mp hq
    exact List.prefix_rfl
  | cons part parts ih =>
    rcases List.mem_cons.mp hq with rfl | hq
    · exact isPrefix_foldl_follow h q
    · exact ih (List.ne_and_not_mem_of_not_mem_cons h).2 hq

lemma isPrefix_of_mem_places {dir : String} {q : Place} (h : ['.', '.'] ∉ split dir.toList)
    (hq : q ∈ places here dir) : q <+: components here dir :=
  isPrefix_of_mem_way h hq

/-- A path that does not lead back does not when its end is cut off. -/
lemma dots_mem_of_trimEnd (cs : List Char) (h : ['.', '.'] ∈ split (trimEnd cs).reverse) :
    ['.', '.'] ∈ split cs.reverse := by
  fun_induction trimEnd cs with
  | case1 => exact h
  | case2 rest hrest ih =>
    rw [List.reverse_cons, split_append]
    exact List.mem_append_left _ (ih h)
  | case3 rest ih =>
    have hdot : ('.' :: '/' :: rest).reverse = rest.reverse ++ '/' :: ['.'] := by simp
    have hmem := ih h
    rw [List.reverse_cons, split_append] at hmem
    rw [hdot, split_append]
    rcases List.mem_append.mp hmem with hmem | hmem
    · exact List.mem_append_left _ hmem
    · simp [split] at hmem
  | case4 => exact h

/-! ## Paths that end in names -/

/-- A name that is one component of a path. -/
structure Plain (name : String) : Prop where
  noSlash : '/' ∉ name.toList
  named : name.toList ∉ [[], ['.'], ['.', '.']]

namespace Plain

variable {name : String} (h : Plain name)

include h

lemma ne : name.toList ≠ [] ∧ name.toList ≠ ['.'] ∧ name.toList ≠ ['.', '.'] := by
  simpa using h.named

lemma follow_eq (here : Place) : follow here name.toList = here ++ [name] := by
  obtain ⟨hnil, hdot, hdots⟩ := h.ne
  rw [follow, if_neg (not_or.mpr ⟨hnil, hdot⟩), if_neg hdots, String.ofList_toList]

end Plain

/-- A path that ends in a name, after what stands before it. -/
structure Names (path : String) (stem : List Char) (name : String) : Prop where
  toList_eq : path.toList = stem ++ name.toList
  stem_eq : stem = [] ∨ ∃ cs, stem = cs ++ ['/']
  plain : Plain name

lemma trimEnd_cons {c : Char} {rest : List Char} (hslash : c ≠ '/')
    (hdot : c = '.' → rest.head? ≠ some '/') : trimEnd (c :: rest) = c :: rest := by
  rw [trimEnd]
  · intro heq
    exact hslash (List.cons.inj heq).1
  · intro rest' heq
    exact hslash (List.cons.inj heq).1
  · intro rest' heq
    obtain ⟨rfl, rfl⟩ := List.cons.inj heq
    exact hdot rfl rfl

namespace Names

variable {path name : String} {stem : List Char} (h : Names path stem name)

include h

/-- A path leads to the name below where what stands before it leads. -/
lemma components_eq (here : Place) :
    components here path = componentsOf here stem ++ [name] := by
  rw [Path.components_eq, h.toList_eq]
  rcases h.stem_eq with rfl | ⟨cs, rfl⟩
  · have hhead : name.toList.head? ≠ some '/' := fun heq => h.plain.noSlash (List.mem_of_head? heq)
    rw [List.nil_append, componentsOf, split_of_notMem h.plain.noSlash, if_neg hhead]
    exact h.plain.follow_eq here
  · rw [List.append_assoc, List.singleton_append, componentsOf_append cs h.plain.noSlash]
    exact h.plain.follow_eq _

/-- Nothing is cut off from a path that ends in a name. -/
lemma trimEnd_eq : trimEnd path.toList.reverse = name.toList.reverse ++ stem.reverse := by
  have hslash : '/' ∉ name.toList.reverse := by simpa using h.plain.noSlash
  obtain ⟨hnil, hdot, -⟩ := h.plain.ne
  rw [h.toList_eq, List.reverse_append]
  cases hname : name.toList.reverse with
  | nil => exact (hnil (List.reverse_eq_nil_iff.mp hname)).elim
  | cons c cs =>
    rw [hname, List.mem_cons, not_or] at hslash
    refine trimEnd_cons (Ne.symm hslash.1) fun hc hhead => ?_
    -- what follows a point is still part of the name
    cases cs with
    | nil => exact hdot (by rw [← List.reverse_reverse name.toList, hname, hc]; rfl)
    | cons c' cs =>
      obtain rfl := Option.some.inj hhead
      exact hslash.2 (by simp)

/-- The directory of a path is what stands before the name, without what leads nowhere. -/
lemma parent?_eq : parent? path = some (String.ofList (trimEnd stem.reverse).reverse) := by
  have hslash : ∀ x ∈ name.toList.reverse, x ≠ '/' := by
    rintro x hx rfl
    exact h.plain.noSlash (List.mem_reverse.mp hx)
  have hname : name.toList.reverse ≠ [] := by simpa using h.plain.ne.1
  have hne : ¬ (name.toList.reverse ++ stem.reverse = [] ∨
      name.toList.reverse ++ stem.reverse = ['/']) := by
    rintro (hnil | hroot)
    · exact hname (List.append_eq_nil_iff.mp hnil).1
    · cases hname : name.toList.reverse with
      | nil => contradiction
      | cons c cs =>
        rw [hname] at hroot hslash
        exact hslash c (by simp) (List.cons.inj hroot).1
  have hstem : stem.reverse.dropWhile (· ≠ '/') = stem.reverse := by
    rcases h.stem_eq with rfl | ⟨ds, rfl⟩ <;> simp
  simp only [parent?, h.trimEnd_eq]
  rw [if_neg hne, List.dropWhile_append_of_pos (by simpa using hslash), hstem]

lemma folder_eq :
    folder path = if (trimEnd stem.reverse).reverse = [] then "."
      else String.ofList (trimEnd stem.reverse).reverse := by
  rw [folder, directory?, h.parent?_eq]
  split
  · next hempty =>
    -- the working directory has no name of its own
    have hnil := congrArg String.toList (Option.some.inj hempty)
    rw [String.toList_ofList, String.toList_empty] at hnil
    rw [if_pos hnil]
    rfl
  · next hne =>
    rw [if_neg fun hnil => hne (by rw [hnil])]
    rfl

/-- The directory leads to where what stands before the name leads. -/
lemma components_folder (here : Place) : components here (folder path) = componentsOf here stem := by
  have hcomponents : componentsOf here (trimEnd stem.reverse).reverse = componentsOf here stem := by
    rw [componentsOf_trimEnd, List.reverse_reverse]
  rw [h.folder_eq]
  split
  · next hnil =>
    rw [← hcomponents, hnil, Path.components_eq]
    rfl
  · rw [Path.components_eq, String.toList_ofList, hcomponents]

lemma components_eq_folder (here : Place) :
    components here path = components here (folder path) ++ [name] := by
  rw [h.components_eq, h.components_folder]

/-- If what stands before the name does not lead back, then neither does the directory. -/
lemma dots_notMem_folder (hstem : ['.', '.'] ∉ split stem) :
    ['.', '.'] ∉ split (folder path).toList := by
  rw [h.folder_eq]
  split
  · decide
  · rw [String.toList_ofList]
    intro hmem
    exact hstem (by simpa using dots_mem_of_trimEnd stem.reverse hmem)

end Names

/-- What comes before the last slash ends in it, and what follows it is the last component. -/
lemma exists_stem (cs : List Char) : ∃ stem ys, cs = stem ++ ys ∧ '/' ∉ ys ∧
    (stem = [] ∨ ∃ xs, stem = xs ++ ['/']) ∧ (split cs).getLastD [] = ys := by
  by_cases h : '/' ∈ cs
  · obtain ⟨ys, xs, hcs, hys⟩ := List.eq_append_cons_of_mem (List.mem_reverse.mpr h)
    have hcs' : cs = (xs.reverse ++ ['/']) ++ ys.reverse := by
      rw [← List.reverse_reverse cs, hcs]
      simp
    have hslash : '/' ∉ ys.reverse := by simpa using hys
    refine ⟨_, _, hcs', hslash, .inr ⟨_, rfl⟩, ?_⟩
    rw [hcs', List.append_assoc, List.singleton_append, split_append, split_of_notMem hslash]
    simp
  · exact ⟨[], cs, rfl, h, .inl rfl, by rw [split_of_notMem h]; rfl⟩

/-- Where a path ends in a name, it can be divided. -/
lemma exists_names {path : String} (h : endsInName path = true) :
    ∃ stem name, Names path stem name := by
  obtain ⟨stem, ys, hpath, hslash, hstem, hlast⟩ := exists_stem path.toList
  refine ⟨stem, String.ofList ys, by rw [hpath, String.toList_ofList], hstem, ?_, ?_⟩
  · rwa [String.toList_ofList]
  · rw [endsInName, hlast] at h
    rw [String.toList_ofList]
    simpa using h

lemma Names.endsInName {path name : String} {stem : List Char} (h : Names path stem name) :
    endsInName path = true := by
  have hsplit : (split path.toList).getLastD [] = name.toList := by
    rw [h.toList_eq]
    rcases h.stem_eq with rfl | ⟨xs, rfl⟩
    · rw [List.nil_append, split_of_notMem h.plain.noSlash]
      rfl
    · rw [List.append_assoc, List.singleton_append, split_append,
        split_of_notMem h.plain.noSlash]
      simp
  rw [Path.endsInName, hsplit]
  simpa using h.plain.named

/-! ## Paths below directories -/

/-- What stands before a name in a path below a directory. -/
def stem (dir : String) : List Char :=
  if dir.toList = [] then []
  else if dir.toList.getLast? = some '/' then dir.toList else dir.toList ++ ['/']

lemma stem_eq_or (dir : String) : stem dir = [] ∨ ∃ cs, stem dir = cs ++ ['/'] := by
  unfold stem
  split
  · exact .inl rfl
  · split
    · next hlast =>
      obtain ⟨cs, hcs⟩ := List.getLast?_eq_some_iff.mp hlast
      exact .inr ⟨cs, hcs⟩
    · exact .inr ⟨_, rfl⟩

lemma componentsOf_stem (here : Place) (dir : String) :
    componentsOf here (stem dir) = components here dir := by
  rw [components_eq, stem]
  split
  · next h => rw [h]
  · next h =>
    split
    · rfl
    · exact componentsOf_slash h

lemma dots_notMem_stem {dir : String} (h : ['.', '.'] ∉ split dir.toList) :
    ['.', '.'] ∉ split (stem dir) := by
  unfold stem
  split
  · decide
  · split
    · exact h
    · rw [split_append, List.mem_append, not_or]
      exact ⟨h, by decide⟩

variable {name : String}

lemma toList_join (h : Plain name) (dir : String) :
    (join dir name).toList = stem dir ++ name.toList := by
  have hname : name.startsWith "/" = false := by
    rw [← Bool.not_eq_true, String.startsWith_string_iff]
    rintro ⟨rest, hrest⟩
    exact h.noSlash (hrest ▸ by simp)
  have hdir : dir.endsWith "/" = true ↔ dir.toList.getLast? = some '/' := by
    rw [String.endsWith, String.Slice.endsWith_string_iff, String.copy_toSlice,
      List.getLast?_eq_some_iff]
    exact ⟨fun ⟨cs, hcs⟩ => ⟨cs, hcs.symm⟩, fun ⟨cs, hcs⟩ => ⟨cs, hcs.symm⟩⟩
  unfold join stem
  by_cases hempty : dir.toList = []
  · have hdir : dir = "" := String.toList_eq_nil_iff.mp hempty
    simp [hdir]
  · have hne : dir.isEmpty = false := by
      rw [← Bool.not_eq_true]
      intro h
      exact hempty (by simpa using h)
    simp only [hne, hname, Bool.or_self, Bool.false_eq_true, if_false, hempty, hdir]
    split <;> simp

/-- A path below a directory ends in the name. -/
lemma names_join (h : Plain name) (dir : String) : Names (join dir name) (stem dir) name :=
  ⟨toList_join h dir, stem_eq_or dir, h⟩

/-- A path below a directory leads to the name below where the directory leads. -/
lemma components_join (h : Plain name) (here : Place) (dir : String) :
    components here (join dir name) = components here dir ++ [name] := by
  rw [(names_join h dir).components_eq, componentsOf_stem]

/-- The directory of a path below a directory leads to where that leads. -/
lemma components_folder_join (h : Plain name) (here : Place) (dir : String) :
    components here (folder (join dir name)) = components here dir := by
  rw [(names_join h dir).components_folder, componentsOf_stem]

/-! ## The names of exports -/

open Number

lemma notMem_digits {c : Char} (hc : isDigit c = false) (n : ℕ) : c ∉ digits n := by
  intro h
  rw [isDigit_of_mem_digits h] at hc
  cases hc

lemma plain_episodeName (n : ℕ) : Plain (episodeName n) where
  noSlash := by
    simp only [episodeName, paddedNumeral, String.toList_append, String.toList_ofList,
      List.mem_append, List.mem_replicate, not_or]
    refine ⟨⟨by decide, ?_, notMem_digits (by decide) n⟩, by decide⟩
    simp
  named := by simp [episodeName]

lemma components_ofEpisode (here : Place) (dir : String) (k : ℕ) :
    components here (ofEpisode dir k) = components here dir ++ [episodeName k] :=
  components_join (plain_episodeName k) here dir

end Punter.Path
