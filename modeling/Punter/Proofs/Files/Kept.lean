/-
# Exports that leave each other alone

Exports go to files of their own: the name of an export tells the number of its episode, since the
zeros in front of a numeral make no difference to what it denotes.  And replacing a file is all or
nothing: the file then has its new content, or nothing has changed once the error is let go of, and
in no case does another file change (`Storage.Atomic`).  For a file tree there is something to show
in this, since content is first written to a new file, which must not take the place of a file that
is there.
-/
import Mathlib
import Punter.Proofs.Files.Exports

namespace Punter

/-! ## The names of exports -/

namespace Number

lemma ofDigits_zeros (m : ℕ) (cs : List Char) :
    ofDigits (List.replicate m '0' ++ cs) = ofDigits cs := by
  have hzeros : (List.replicate m '0').foldl (fun n c => 10 * n + digitValue c) 0 = 0 := by
    induction m with
    | zero => rfl
    | succ m ih => exact ih
  rw [ofDigits, List.foldl_append, hzeros]
  rfl

/-- Numerals of different numbers differ, whether or not they fill their width. -/
theorem paddedNumeral_injective (width : ℕ) : Function.Injective (paddedNumeral width) := by
  intro m n h
  have hdigits := congrArg (fun s => ofDigits s.toList) h
  simpa only [paddedNumeral, String.toList_ofList, ofDigits_zeros, ofDigits_digits] using hdigits

end Number

namespace Path

theorem episodeName_injective : Function.Injective episodeName := by
  intro j k h
  have hchars := congrArg String.toList h
  simp only [episodeName, String.toList_append] at hchars
  exact Number.paddedNumeral_injective 4
    (String.toList_inj.mp (List.append_cancel_left (List.append_cancel_right hchars)))

lemma plain_summary : Plain "summary.json" where
  noSlash := by decide
  named := by decide

/-- Exports of different episodes lead to different places. -/
lemma components_ofEpisode_inj {here : Place} {dir : String} {j k : ℕ}
    (h : components here (ofEpisode dir j) = components here (ofEpisode dir k)) : j = k := by
  rw [components_ofEpisode, components_ofEpisode] at h
  exact episodeName_injective (List.cons.inj (List.append_cancel_left h)).1

/-- No export leads to the place of the report. -/
lemma components_ofEpisode_ne (here : Place) (dir : String) (k : ℕ) :
    components here (ofEpisode dir k) ≠ components here (join dir "summary.json") := by
  rw [components_ofEpisode, components_join plain_summary]
  intro h
  have hname := (List.cons.inj (List.append_cancel_left h)).1
  have hhead := congrArg (fun s => s.toList.head?) hname
  simp [episodeName] at hhead

end Path

/-! ## All or nothing -/

/-- Whatever is put at a path in a storage is then to be found there, and nothing else changes; if
it cannot be put there, then nothing has changed once the error is let go of.  Letting go of an error
removes the file that it holds, and no other. -/
structure Storage.Atomic {φ : Type} [Storage φ] (here : φ → Place)
    (content? : φ → Place → Option String) : Prop where
  here_replace : ∀ {path content : String} {files files' : φ} {outcome : Except WriteError Unit},
    Storage.replace path content files = (outcome, files') → here files' = here files
  here_release : ∀ (e : WriteError) (files : φ), here (Storage.release e files) = here files
  done : ∀ {path content : String} {files files' : φ},
    Storage.replace path content files = (.ok (), files') → ∀ q,
      content? files' q =
        if q = Path.components (here files) path then some content else content? files q
  undone : ∀ {path content : String} {files files' : φ} {e : WriteError},
    Storage.replace path content files = (.error e, files') →
    ∀ q, content? (Storage.release e files') q = content? files q
  release : ∀ (e : WriteError) (files : φ) (q : Place), content? (Storage.release e files) q =
    if e.held? = some q then none else content? files q

namespace FileTree

variable {path content : String} {t t' : FileTree} {e : WriteError}

lemma here_release (e : WriteError) (t : FileTree) : (t.release e).here = t.here := by
  unfold release
  split <;> rfl

lemma content?_release (e : WriteError) (t : FileTree) (q : Place) :
    (t.release e).content? q = if e.held? = some q then none else t.content? q := by
  unfold release
  split
  · next file hheld =>
    rw [content?_remove, hheld]
    simp only [Option.some.injEq, eq_comm]
  · next hheld => simp [hheld]

/-- An error that is let go of leaves nothing behind. -/
lemma get?_release_of_replaces (h : Disk.Replaces path content t (.error e) t') (q : Place) :
    (t'.release e).get? q = t.get? q := by
  cases h with
  | undone held?_eq _ get?_eq =>
    rw [release, held?_eq]
    exact get?_eq q
  | unmoved free holds => exact holds.remove free q

end FileTree

namespace Disk

/-- A disk is a storage of this kind, whatever goes wrong with it. -/
theorem atomic : Storage.Atomic (fun d : Disk => d.tree.here) fun d : Disk => d.tree.content? where
  here_replace := by
    intro path content d d' outcome h
    obtain ⟨t, hmade, hreplaces⟩ := exists_replaces h
    exact hreplaces.here_eq.trans hmade.here_eq
  here_release e d := FileTree.here_release e d.tree
  done := by
    intro path content d d' h q
    obtain ⟨t, hmade, hreplaces⟩ := exists_replaces h
    cases hreplaces with
    | done _ _ _ _ get?_eq =>
      rw [hmade.here_eq] at get?_eq
      show d'.tree.content? q = _
      by_cases hq : q = Path.components d.tree.here path
      · rw [if_pos hq, FileTree.content?, get?_eq, if_pos hq]
      · rw [if_neg hq, FileTree.content?_eq_of_get?_eq ((get?_eq q).trans (if_neg hq))]
        exact hmade.content?_eq q
  undone := by
    intro path content d d' e h q
    obtain ⟨t, hmade, hreplaces⟩ := exists_replaces h
    have hrelease := FileTree.get?_release_of_replaces hreplaces q
    exact (FileTree.content?_eq_of_get?_eq hrelease).trans (hmade.content?_eq q)
  release e d := FileTree.content?_release e d.tree

end Disk

namespace FileTree

/-- So is a file tree. -/
theorem atomic : Storage.Atomic FileTree.here FileTree.content? where
  here_replace := by
    rintro path content t t' outcome h
    obtain ⟨rfl, rfl⟩ := Prod.mk.inj h
    exact Disk.atomic.here_replace (Prod.ext rfl rfl :
      Storage.replace path content (Disk.sound t) = (_, _))
  here_release := here_release
  done := by
    rintro path content t t' h
    obtain ⟨hok, rfl⟩ := Prod.mk.inj h
    have hreplace : Storage.replace path content (Disk.sound t) = (.ok (), _) := Prod.ext hok rfl
    exact Disk.atomic.done hreplace
  undone := by
    rintro path content t t' e h
    obtain ⟨herror, rfl⟩ := Prod.mk.inj h
    have hreplace : Storage.replace path content (Disk.sound t) = (.error e, _) :=
      Prod.ext herror rfl
    exact Disk.atomic.undone hreplace
  release := content?_release

end FileTree

end Punter
