/-
# Saving experiences, one call after the other

Whatever is saved in whatever order, to whatever paths, on a disk that fails whenever it likes: each
call is all or nothing (`Whole`), and so the content of a place is in the end that of the last call
that succeeded there.  A call that fails at the very last leaves the new file to its error, which
takes it away when it is let go of.  Which calls succeed depends on the tree alone if nothing goes
wrong with the disk, and this is how file trees behave.
-/
import Mathlib
import Punter.Proofs.Files.Kept

namespace Punter.Experience

variable {φ α : Type} [Scalar α]

/-- The files when the result of a call has been let go of. -/
def letGo [Storage φ] (result : Except WriteError ℕ) (files : φ) : φ :=
  match result with
  | .ok _ => files
  | .error e => Storage.release e files

/-- Saves experiences at one path after the other, and tells what comes of each call.  The result of
a call is let go of before the next one. -/
def saveAll [Storage φ] :
    List (String × List (Experience α)) → φ → List (Except WriteError ℕ) × φ
  | [], files => ([], files)
  | (path, es) :: calls, files =>
    let (result, files) := save path es files
    let (results, files) := saveAll calls (letGo result files)
    (result :: results, files)

/-- What calls have written, by places and in their order. -/
def written (here : Place) (calls : List (String × List (Experience α)))
    (results : List (Except WriteError ℕ)) : List (Place × String) :=
  (calls.zip results).filterMap fun
    | ((path, es), .ok _) => some (Path.components here path, lines es)
    | (_, .error _) => none

/-- A call to save experiences that is all or nothing. -/
structure Whole (path : String) (es : List (Experience α)) (d : Disk)
    (result : Except WriteError ℕ) (d' : Disk) : Prop where
  /-- All experiences are saved, where they were to be saved, and no other file changes. -/
  done : ∀ n, result = .ok n → n = es.length ∧
    d'.tree.get? (Path.components d.tree.here path) = some (.file (lines es)) ∧
    ∀ q, q ≠ Path.components d.tree.here path → d'.tree.content? q = d.tree.content? q
  /-- Or the content of all files stays, but for a new one that the error may hold. -/
  undone : ∀ e, result = .error e → ∀ q,
    (e.held? ≠ some q → d'.tree.content? q = d.tree.content? q) ∧
    (e.held? = some q → d.tree.get? q = none)
  /-- When the result has been let go of, nothing is new but what was saved and directories that
  were missing on the way. -/
  rest : ∀ q, (letGo result d').tree.get? q = d.tree.get? q ∨
    (result = .ok es.length ∧ q = Path.components d.tree.here path) ∨
    (q ∈ Path.places d.tree.here (Path.folder path) ∧ d.tree.get? q = none ∧
      (letGo result d').tree.get? q = some .directory)

variable {path : String} {es : List (Experience α)} {d d' : Disk} {t : FileTree}
  {calls : List (String × List (Experience α))}

lemma save_eq [Storage φ] (path : String) (es : List (Experience α)) (files : φ) :
    save path es files = ((Storage.replace path (lines es) files).1.map fun _ => es.length,
      (Storage.replace path (lines es) files).2) := by
  rw [save]
  rcases Storage.replace path (lines es) files with ⟨e | u, files'⟩ <;> rfl

/-! ## One call -/

/-- One call is all or nothing. -/
lemma whole_save (path : String) (es : List (Experience α)) (d : Disk) :
    Whole path es d (save path es d).1 (save path es d).2 := by
  obtain ⟨outcome, d', hreplace⟩ :
      ∃ outcome d', Storage.replace path (lines es) d = (outcome, d') := ⟨_, _, rfl⟩
  obtain ⟨t, hmade, hreplaces⟩ := Disk.exists_replaces hreplace
  rw [save_eq, hreplace]
  rcases outcome with e | u
  · refine ⟨?_, ?_, fun q => ?_⟩
    · rintro n ⟨⟩
    · rintro _ ⟨⟩ q
      cases hreplaces with
      | undone held?_eq _ get?_eq =>
        refine ⟨fun _ => ?_, fun hq => by rw [held?_eq] at hq; cases hq⟩
        exact (FileTree.content?_eq_of_get?_eq (get?_eq q)).trans (hmade.content?_eq q)
      | unmoved free holds =>
        refine ⟨fun hq => ?_, fun hq => ?_⟩
        · have hne : q ≠ _ := fun h => hq (congrArg some h.symm)
          have hget := (holds.get?_eq q).trans (if_neg hne)
          exact (FileTree.content?_eq_of_get?_eq hget).trans (hmade.content?_eq q)
        · obtain rfl := Option.some.inj hq
          -- a directory that was made would not be free
          rcases hmade.get?_or _ with heq | ⟨-, hnone, -⟩
          · rw [← heq, free]
          · exact hnone
    · have hrelease : (letGo (.error e) d').tree.get? q = t.get? q :=
        FileTree.get?_release_of_replaces hreplaces q
      show (letGo (.error e) d').tree.get? q = _ ∨ _ ∨ (_ ∧ _ ∧ (letGo (.error e) d').tree.get? q = _)
      rw [hrelease]
      exact (hmade.get?_or q).imp_right .inr
  · cases hreplaces with
    | done _ named way target get?_eq =>
      rw [hmade.here_eq] at get?_eq
      refine ⟨?_, ?_, fun q => ?_⟩
      · rintro n hn
        obtain rfl := Except.ok.inj hn
        refine ⟨rfl, by rw [get?_eq, if_pos rfl], fun q hq => ?_⟩
        rw [FileTree.content?_eq_of_get?_eq ((get?_eq q).trans (if_neg hq)), hmade.content?_eq]
      · rintro e ⟨⟩
      · by_cases hq : q = Path.components d.tree.here path
        · exact .inr (.inl ⟨rfl, hq⟩)
        · have hget : d'.tree.get? q = t.get? q := (get?_eq q).trans (if_neg hq)
          show d'.tree.get? q = _ ∨ _ ∨ (_ ∧ _ ∧ d'.tree.get? q = _)
          rw [hget]
          exact (hmade.get?_or q).imp_right .inr

/-- Nothing remains of a call that fails when its error has been let go of. -/
lemma Whole.content?_letGo {e : WriteError} (h : Whole path es d (.error e) d') (q : Place) :
    (letGo (.error e) d' : Disk).tree.content? q = d.tree.content? q := by
  have hrelease : (letGo (.error e) d' : Disk).tree.content? q =
      if e.held? = some q then none else d'.tree.content? q := Disk.atomic.release e d' q
  obtain ⟨hothers, hnew⟩ := h.undone e rfl q
  rw [hrelease]
  split
  · next hq => rw [FileTree.content?, hnew hq]
  · next hq => exact hothers hq

lemma here_letGo_save (path : String) (es : List (Experience α)) (d : Disk) :
    (letGo (save path es d).1 (save path es d).2).tree.here = d.tree.here := by
  have hreplace : (Storage.replace path (lines es) d).2.tree.here = d.tree.here :=
    Disk.atomic.here_replace rfl
  rw [save_eq]
  rcases (Storage.replace path (lines es) d).1 with e | u
  · exact (Disk.atomic.here_release e _).trans hreplace
  · exact hreplace

/-! ## One call after the other -/

/-- Each of any number of calls is all or nothing, from what those before it have left. -/
lemma whole_saveAll (d : Disk) {k : ℕ} (hk : calls[k]? = some (path, es)) :
    ∃ result d', (saveAll calls d).1[k]? = some result ∧
      Whole path es (saveAll (calls.take k) d).2 result d' ∧
      letGo result d' = (saveAll (calls.take (k + 1)) d).2 := by
  induction calls generalizing d k with
  | nil => cases hk
  | cons call calls ih =>
    cases k with
    | zero =>
      obtain rfl := Option.some.inj hk
      exact ⟨_, _, rfl, whole_save path es d, rfl⟩
    | succ k => exact ih (letGo (save call.1 call.2 d).1 (save call.1 call.2 d).2) hk

/-- What stands at a place in the end was written last, or it was there. -/
lemma content?_saveAll (calls : List (String × List (Experience α))) (d : Disk) (q : Place) :
    (saveAll calls d).2.tree.content? q =
      ((written d.tree.here calls (saveAll calls d).1).reverse.lookup q).or
        (d.tree.content? q) := by
  induction calls generalizing d with
  | nil => rfl
  | cons call calls ih =>
    obtain ⟨path, es⟩ := call
    have hwhole := whole_save path es d
    have hrest := ih (letGo (save path es d).1 (save path es d).2)
    rw [here_letGo_save] at hrest
    rw [saveAll]
    dsimp only
    rw [hrest]
    cases hsave : (save path es d).1 with
    | error e =>
      rw [hsave] at hwhole
      rw [hwhole.content?_letGo]
      rfl
    | ok n =>
      obtain ⟨-, hthere, hothers⟩ := hwhole.done n hsave
      have hwritten : ∀ results, written d.tree.here ((path, es) :: calls) (.ok n :: results) =
          (Path.components d.tree.here path, lines es) :: written d.tree.here calls results :=
        fun _ => rfl
      rw [hwritten, List.reverse_cons, List.lookup_append, Option.or_assoc]
      congr 1
      show (save path es d).2.tree.content? q = _
      by_cases hq : q = Path.components d.tree.here path
      · simp [hq, FileTree.content?, hthere]
      · rw [hothers q hq, List.lookup_cons, beq_false_of_ne hq]
        rfl

lemma saveAll_sound (calls : List (String × List (Experience α))) (t : FileTree) :
    saveAll calls (Disk.sound t) = ((saveAll calls t).1, Disk.sound (saveAll calls t).2) := by
  induction calls generalizing t with
  | nil => rfl
  | cons call calls ih =>
    obtain ⟨path, es⟩ := call
    have hsave : save path es (Disk.sound t) =
        ((save path es t).1, Disk.sound (save path es t).2) := by
      have hreplace : Storage.replace path (lines es) (Disk.sound t) = _ :=
        Disk.replace_sound path (lines es) t
      rw [save_eq, save_eq, hreplace]
      rfl
    have hletGo : letGo (save path es t).1 (Disk.sound (save path es t).2) =
        Disk.sound (letGo (save path es t).1 (save path es t).2) := by
      rcases (save path es t).1 with e | n <;> rfl
    simp only [saveAll, hsave, hletGo, ih]

/-- A directory is in the way of the file: the error holds the new file until it is let go of. -/
example :
    let t : FileTree := ⟨["home"], [(["won.jsonl"], .directory)]⟩
    let (result, t') := save "../won.jsonl" ([] : List (Experience ℚ)) t
    t'.files = [([".tmp0"], "\n")] ∧ (letGo result t').files = [] := by
  decide +kernel

end Punter.Experience
