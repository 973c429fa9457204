/-
# Exports that succeed

A run exports its episodes one after the other, each to a file of its own in one directory, and each
export changes the place in which the next one has to find room.  `Writable` says that nothing goes
wrong in this, however many exports there are.  A file tree is of this kind if nothing stands in the
way of the directory and of the files; every export leaves the tree so.
-/
import Mathlib
import Punter.Proofs.Files.Disks

namespace Punter

/-! ## Exports one after the other -/

section Writable

variable {φ : Type} [Storage φ]

/-- Whatever was exported to a directory before, another export to it succeeds. -/
def Writable (dir : String) (files : φ) : Prop :=
  ∀ (exports : List (ℕ × String)) (n : ℕ) (content : String),
    (Storage.replace (Path.ofEpisode dir n) content (exports.foldl
      (fun files x => (Storage.replace (Path.ofEpisode dir x.1) x.2 files).2) files)).1 = .ok ()

variable {dir : String} {files : φ}

lemma Writable.exists_replace (h : Writable dir files) (n : ℕ) (content : String) :
    ∃ files', Storage.replace (Path.ofEpisode dir n) content files = (.ok (), files') ∧
      Writable dir files' :=
  ⟨_, Prod.ext (h [] n content) rfl, fun exports => h ((n, content) :: exports)⟩

/-- It suffices that every export succeeds and leaves things as good as they were. -/
lemma writable_of_invariant {P : φ → Prop}
    (replace : ∀ {files}, P files → ∀ n content, ∃ files',
      Storage.replace (Path.ofEpisode dir n) content files = (.ok (), files') ∧ P files')
    (h : P files) : Writable dir files := by
  intro exports
  induction exports generalizing files with
  | nil =>
    intro n content
    obtain ⟨files', hreplace, -⟩ := replace h n content
    exact congrArg Prod.fst hreplace
  | cons x exports ih =>
    obtain ⟨files', hreplace, h'⟩ := replace h x.1 x.2
    rw [List.foldl_cons, hreplace]
    exact ih h'

end Writable

/-! ## File trees -/

namespace FileTree

variable {t : FileTree} {dir : String}

/-- Nothing stands in the way of exports to a directory, and it is not by way of one of their places
that the directory is reached. -/
structure Receives (t : FileTree) (dir : String) : Prop where
  way : ∀ n, ∀ q ∈ Path.places t.here (Path.folder (Path.ofEpisode dir n)),
    ∀ content, t.get? q ≠ some (.file content)
  target : ∀ n, t.get? (Path.components t.here (Path.ofEpisode dir n)) ≠ some .directory
  apart : ∀ m n, Path.components t.here (Path.ofEpisode dir m) ∉
    Path.places t.here (Path.folder (Path.ofEpisode dir n))

/-- An export to a directory that receives exports succeeds, and the directory goes on receiving
them. -/
lemma Receives.exists_replace (h : t.Receives dir) (n : ℕ) (content : String) :
    ∃ t', Storage.replace (Path.ofEpisode dir n) content t = (.ok (), t') ∧ t'.Receives dir := by
  have named := (Path.names_join (Path.plain_episodeName n) dir).endsInName
  obtain ⟨t', hreplace⟩ := Disk.exists_replace_sound content named (h.way n)
    (h.target n) (h.apart n n)
  obtain ⟨t₁, hmade, hreplaces⟩ := Disk.exists_replaces hreplace
  have hmade : Made _ t t₁ := hmade
  have hhere : t'.here = t.here := hreplaces.here_eq.trans hmade.here_eq
  refine ⟨t', ?_, ?_⟩
  · change FileTree.replace (Path.ofEpisode dir n) content t = (.ok (), t')
    rw [replace, show Path.ofEpisode dir n = Path.join dir (Path.episodeName n) from rfl, hreplace]
    rfl
  have get?_eq : ∀ q, t'.get? q = if q = Path.components t.here (Path.ofEpisode dir n) then
      some (.file content) else t₁.get? q := by
    cases hreplaces with
    | done _ _ _ _ get?_eq => exact hmade.here_eq ▸ get?_eq
  refine ⟨fun m q hq c hfile => ?_, fun m hdir => ?_, fun m m' hmem => ?_⟩
  · rw [hhere] at hq
    have hne : q ≠ Path.components t.here (Path.ofEpisode dir n) := by
      rintro rfl
      exact h.apart n m hq
    rw [get?_eq, if_neg hne] at hfile
    exact h.way m q hq c ((hmade.file_iff c).mp hfile)
  · rw [hhere, get?_eq] at hdir
    split at hdir
    · cases hdir
    · rcases hmade.get?_or (Path.components t.here (Path.ofEpisode dir m)) with heq | ⟨hmem, -⟩
      · exact h.target m (heq ▸ hdir)
      · exact h.apart m n hmem
  · rw [hhere] at hmem
    exact h.apart m m' hmem

theorem writable_of_receives (h : t.Receives dir) : Writable dir t :=
  writable_of_invariant (P := fun t => t.Receives dir)
    (fun h n content => h.exists_replace n content) h

lemma get?_empty_ne_file (here p : Place) (content : String) :
    (empty here).get? p ≠ some (.file content) := by
  rw [get?]
  split <;> simp [empty]

lemma isPrefix_of_get?_empty {here p : Place} (h : (empty here).get? p = some .directory) :
    p <+: here := by
  by_contra hp
  rw [get?, if_neg (show ¬ p <+: (empty here).here from hp)] at h
  cases h

/-- Where there is nothing yet, all exports below the working directory succeed, if the way to their
directory does not lead back. -/
theorem writable_empty (here : Place) (dir : String) (relative : dir.startsWith "/" = false)
    (forth : ['.', '.'] ∉ Path.split dir.toList) : Writable dir (empty here) := by
  have hbelow : here <+: Path.components here dir := by
    rw [Path.components, Path.origin, if_neg (by simp [relative])]
    exact Path.isPrefix_foldl_follow forth here
  refine writable_of_receives
    ⟨fun n q _ => get?_empty_ne_file here q, fun n hdir => ?_, fun m n hmem => ?_⟩
  · have hprefix := (isPrefix_of_get?_empty hdir).trans hbelow
    exact ne_append_of_isPrefix hprefix (Path.components_ofEpisode here dir n)
  · have hnames := Path.names_join (Path.plain_episodeName n) dir
    have hprefix : Path.components here (Path.ofEpisode dir m) <+: Path.components here dir := by
      rw [← Path.components_folder_join (Path.plain_episodeName n) here dir]
      exact Path.isPrefix_of_mem_places
        (hnames.dots_notMem_folder (Path.dots_notMem_stem forth)) hmem
    exact ne_append_of_isPrefix hprefix (Path.components_ofEpisode here dir m)

end FileTree

end Punter
