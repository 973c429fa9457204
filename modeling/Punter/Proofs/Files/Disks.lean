/-
# Replacing files on disks that fail

Whatever fails, replacing a file leaves everything as it was, but for directories that were missing
on the way to the file; and if nothing fails, then moreover the file has its new content.  The
reason is that up to the last change nothing is touched but those directories and a new file, and
that the last change moves this file away.  If it is the last change that fails, then the new file
is there until the error is let go of.

On a disk with which nothing goes wrong it can be told from the tree whether a file is replaced.
-/
import Mathlib
import Punter.Files.Export
import Punter.Proofs.Files.Paths
import Punter.Proofs.Files.Trees

namespace Punter

open FileTree (Proper)

/-! ## Directories that are made -/

namespace FileTree

variable {t t₁ t₂ : FileTree} {places more : List Place} {q : Place}

/-- Nothing differs between two trees, but that there are new directories at some of the places. -/
structure Made (places : List Place) (t t₁ : FileTree) : Prop where
  here_eq : t₁.here = t.here
  get?_or : ∀ q, t₁.get? q = t.get? q ∨
    (q ∈ places ∧ t.get? q = none ∧ t₁.get? q = some .directory)

namespace Made

lemma refl (places : List Place) (t : FileTree) : Made places t t := ⟨rfl, fun _ => .inl rfl⟩

lemma mono (h : Made places t t₁) (hsub : places ⊆ more) : Made more t t₁ where
  here_eq := h.here_eq
  get?_or q := (h.get?_or q).imp id fun ⟨hq, hrest⟩ => ⟨hsub hq, hrest⟩

lemma directory (h : Made places t t₁) (hq : t.get? q = some .directory) :
    t₁.get? q = some .directory := by
  rcases h.get?_or q with heq | ⟨-, -, hdir⟩
  · rw [heq, hq]
  · exact hdir

lemma file_iff (h : Made places t t₁) (content : String) :
    t₁.get? q = some (.file content) ↔ t.get? q = some (.file content) := by
  rcases h.get?_or q with heq | ⟨-, hnone, hdir⟩
  · rw [heq]
  · simp [hnone, hdir]

lemma content?_eq (h : Made places t t₁) (q : Place) : t₁.content? q = t.content? q := by
  rcases h.get?_or q with heq | ⟨-, hnone, hdir⟩
  · exact content?_eq_of_get?_eq heq
  · simp [content?, hnone, hdir]

lemma trans (h : Made places t t₁) (h₁ : Made places t₁ t₂) : Made places t t₂ where
  here_eq := h₁.here_eq.trans h.here_eq
  get?_or q := by
    rcases h₁.get?_or q with heq | ⟨hq, hnone, hdir⟩
    · rw [heq]
      exact h.get?_or q
    · rcases h.get?_or q with heq | ⟨-, -, hdir'⟩
      · exact .inr ⟨hq, heq ▸ hnone, hdir⟩
      · rw [hnone] at hdir'
        cases hdir'

lemma put (hq : t.get? q = none) (hmem : q ∈ places) : Made places t (t.put q .directory) where
  here_eq := here_put t q .directory
  get?_or p := by
    rw [get?_put (proper_of_get?_eq_none hq)]
    by_cases hp : p = q
    · rw [if_pos hp, hp]
      exact .inr ⟨hmem, hq, rfl⟩
    · rw [if_neg hp]
      exact .inl rfl

end Made

end FileTree

/-! ## Changes of a disk -/

namespace Disk

open FileTree

variable {d d' : Disk} {t t' : FileTree} {f : FileTree → Except FileFault FileTree}
  {fault : FileFault}

lemma tree_of_change_error (h : d.change f = (.error fault, d')) : d'.tree = d.tree := by
  unfold change at h
  dsimp only at h
  split at h
  · cases h
  · obtain ⟨-, rfl⟩ := Prod.mk.inj h
    rfl

lemma eq_of_change_ok (h : d.change f = (.ok (), d')) : f d.tree = .ok d'.tree := by
  unfold change at h
  dsimp only at h
  split at h
  · next t ht =>
    obtain ⟨-, rfl⟩ := Prod.mk.inj h
    split at ht
    · cases ht
    · exact ht
  · cases h

lemma change_sound (h : f t = .ok t') : (sound t).change f = (.ok (), sound t') := by
  simp only [change, sound, List.head?_nil, Option.join_none, h, List.tail_nil]

lemma faults_change (f : FileTree → Except FileFault FileTree) (d : Disk) :
    (d.change f).2.faults = d.faults.tail := by
  unfold change
  dsimp only
  split <;> rfl

lemma faults_of_change {r : Except FileFault Unit} (h : d.change f = (r, d'))
    (hd : d.faults = []) : d'.faults = [] := by
  have hfaults := faults_change f d
  rwa [h, hd] at hfaults

/-! ## Directories along a way -/

variable {made : Bool} {here : Place} {parts : List (List Char)} {result : Except FileFault Unit}

/-- The next directory on a way is there, or it is made. -/
inductive Enters (next : Place) (d : Disk) : Disk → Prop
  | there (found : d.tree.get? next = some .directory) : Enters next d d
  | made {d₁ : Disk} (missing : d.tree.get? next = none)
      (change : d.change (fun t => .ok (t.put next .directory)) = (.ok (), d₁)) : Enters next d d₁

/-- The disk in the next directory, or where a way ends: at a file, or with a fault. -/
lemma makeAlong_cons {part : List Char}
    (h : d.makeAlong made here (part :: parts) = (result, d')) :
    (∃ made' d₁, Enters (Path.follow here part) d d₁ ∧
        d₁.makeAlong made' (Path.follow here part) parts = (result, d')) ∨
      ∃ fault, result = .error fault ∧ (d' = d ∨ ∃ f, d.change f = (.error fault, d')) := by
  rw [makeAlong] at h
  split at h
  · next hdir => exact .inl ⟨made, d, .there hdir, h⟩
  · obtain ⟨rfl, rfl⟩ := Prod.mk.inj h
    exact .inr ⟨_, rfl, .inl rfl⟩
  · next hnone =>
    split at h
    · next d₁ hchange =>
      obtain ⟨rfl, rfl⟩ := Prod.mk.inj h
      exact .inr ⟨_, rfl, .inr ⟨_, hchange⟩⟩
    · next d₁ hchange => exact .inl ⟨true, d₁, .made hnone hchange, h⟩

section Enters

variable {next : Place} {d₁ : Disk} {places : List Place}

lemma Enters.directory (h : Enters next d d₁) : d₁.tree.get? next = some .directory := by
  cases h with
  | there found => exact found
  | made missing change =>
    have hput : d.tree.put next .directory = d₁.tree := Except.ok.inj (eq_of_change_ok change)
    rw [← hput, get?_put (proper_of_get?_eq_none missing), if_pos rfl]

lemma Enters.nothing_else (h : Enters next d d₁) (hmem : next ∈ places) :
    Made places d.tree d₁.tree := by
  cases h with
  | there found => exact .refl _ _
  | made missing change =>
    have hput : d.tree.put next .directory = d₁.tree := Except.ok.inj (eq_of_change_ok change)
    rw [← hput]
    exact .put missing hmem

lemma Enters.faults (h : Enters next d d₁) (hd : d.faults = []) : d₁.faults = [] := by
  cases h with
  | there found => exact hd
  | made missing change => exact faults_of_change change hd

end Enters

/-- Making directories makes nothing but directories, however far it gets. -/
lemma made_of_makeAlong (h : d.makeAlong made here parts = (result, d')) :
    Made (Path.way here parts) d.tree d'.tree := by
  induction parts generalizing made here d with
  | nil =>
    obtain ⟨-, rfl⟩ := Prod.mk.inj h
    exact .refl _ _
  | cons part parts ih =>
    rcases makeAlong_cons h with ⟨made', d₁, henters, hrest⟩ | ⟨fault, -, rfl | ⟨f, hchange⟩⟩
    · have hfirst := henters.nothing_else (List.mem_cons_of_mem here (Path.self_mem_way _ parts))
      exact hfirst.trans ((ih hrest).mono (List.subset_cons_self _ _))
    · exact .refl _ _
    · rw [tree_of_change_error hchange]
      exact .refl _ _

lemma faults_of_makeAlong (h : d.makeAlong made here parts = (result, d')) (hd : d.faults = []) :
    d'.faults = [] := by
  induction parts generalizing made here d with
  | nil =>
    obtain ⟨-, rfl⟩ := Prod.mk.inj h
    exact hd
  | cons part parts ih =>
    rcases makeAlong_cons h with ⟨made', d₁, henters, hrest⟩ | ⟨fault, -, rfl | ⟨f, hchange⟩⟩
    · exact ih hrest (henters.faults hd)
    · exact hd
    · exact faults_of_change hchange hd

/-- Afterwards there are directories all along the way. -/
lemma directory_of_makeAlong (h : d.makeAlong made here parts = (.ok (), d'))
    (hhere : d.tree.get? here = some .directory) {q : Place} (hq : q ∈ Path.way here parts) :
    d'.tree.get? q = some .directory := by
  induction parts generalizing made here d with
  | nil =>
    obtain ⟨-, rfl⟩ := Prod.mk.inj h
    rw [List.mem_singleton.mp hq, hhere]
  | cons part parts ih =>
    rcases List.mem_cons.mp hq with rfl | hq
    · exact (made_of_makeAlong h).directory hhere
    · rcases makeAlong_cons h with ⟨made', d₁, henters, hrest⟩ | ⟨fault, herror, -⟩
      · exact ih hrest henters.directory hq
      · cases herror

/-- Where no file is in the way, all directories are made. -/
lemma exists_makeAlong
    (way : ∀ q ∈ Path.way here parts, ∀ content, t.get? q ≠ some (.file content)) :
    ∃ t', (sound t).makeAlong made here parts = (.ok (), sound t') := by
  induction parts generalizing made here t with
  | nil => exact ⟨t, rfl⟩
  | cons part parts ih =>
    rw [makeAlong]
    split
    · exact ih fun q hq => way q (List.mem_cons_of_mem _ hq)
    · next content hfile =>
      exact (way _ (List.mem_cons_of_mem _ (Path.self_mem_way _ _)) content hfile).elim
    · next hnone =>
      have hput : Made (Path.way here (part :: parts)) t
          (t.put (Path.follow here part) .directory) :=
        .put hnone (List.mem_cons_of_mem _ (Path.self_mem_way _ _))
      rw [change_sound (f := fun t => .ok (t.put (Path.follow here part) .directory)) rfl]
      exact ih fun q hq content hfile =>
        way q (List.mem_cons_of_mem _ hq) content ((hput.file_iff content).mp hfile)

section Directories

variable {dir : String}

lemma get?_origin (t : FileTree) {p : Place} (hp : p <+: Path.origin t.here dir) :
    t.get? p = some .directory := by
  have hhere : p <+: t.here := by
    unfold Path.origin at hp
    split at hp
    · exact List.prefix_nil.mp hp ▸ List.nil_prefix
    · exact hp
  rw [get?, if_pos hhere]

lemma made_of_makeDirectories (h : d.makeDirectories dir = (result, d')) :
    Made (Path.places d.tree.here dir) d.tree d'.tree :=
  made_of_makeAlong h

lemma directory_of_makeDirectories (h : d.makeDirectories dir = (.ok (), d')) {q : Place}
    (hq : q ∈ Path.places d.tree.here dir) : d'.tree.get? q = some .directory :=
  directory_of_makeAlong h (get?_origin _ List.prefix_rfl) hq

/-- What leads to the directory are directories. -/
lemma directory_of_isPrefix (h : d.makeDirectories dir = (.ok (), d')) {p : Place}
    (hp : p <+: Path.components d.tree.here dir) : d'.tree.get? p = some .directory := by
  rcases Path.mem_way_of_isPrefix hp with hp | hp
  · exact (made_of_makeDirectories h).directory (get?_origin _ hp)
  · exact directory_of_makeDirectories h hp

end Directories

/-! ## Replaced files -/

/-- While a file is being replaced, its directory has a new file in it. -/
structure Holds (t : FileTree) (temporary : Place) (content : String) (t' : FileTree) : Prop where
  here_eq : t'.here = t.here
  get?_eq : ∀ q, t'.get? q = if q = temporary then some (.file content) else t.get? q

section Holds

variable {temporary : Place} {path content old : String}

lemma holds_of_write (here_eq : d.tree.here = t.here) (free : t.get? temporary = none)
    (others : ∀ q, q ≠ temporary → d.tree.get? q = t.get? q)
    (h : d.change (·.write temporary content) = (.ok (), d')) :
    Holds t temporary content d'.tree := by
  have hput := (put_of_write (eq_of_change_ok h)).2
  have proper : d.tree.Proper temporary := by
    rw [Proper, here_eq]
    exact proper_of_get?_eq_none free
  refine ⟨by rw [hput, here_put, here_eq], fun q => ?_⟩
  rw [hput, get?_put proper]
  split
  · rfl
  · next hq => exact others q hq

/-- The changes by which a new file is filled, up to the first one that fails. -/
inductive Fills (temporary : Place) (path content : String) (d : Disk) :
    Except WriteError Unit → Disk → Prop
  | unwritten {d₁ : Disk} {f : FileFault}
      (write : d.change (·.write temporary content) = (.error f, d₁)) :
      Fills temporary path content d (.error (.content f)) (d₁.discard temporary)
  | unflushed {d₁ d₂ : Disk} {f : FileFault}
      (write : d.change (·.write temporary content) = (.ok (), d₁))
      (flush : d₁.change .ok = (.error f, d₂)) :
      Fills temporary path content d (.error (.flush f)) (d₂.discard temporary)
  | unmoved {d₁ d₂ d' : Disk} {f : FileFault}
      (write : d.change (·.write temporary content) = (.ok (), d₁))
      (flush : d₁.change .ok = (.ok (), d₂))
      (move : d₂.change (·.renamePath temporary path) = (.error f, d')) :
      Fills temporary path content d (.error (.placement path temporary f)) d'
  | moved {d₁ d₂ d' : Disk} (write : d.change (·.write temporary content) = (.ok (), d₁))
      (flush : d₁.change .ok = (.ok (), d₂))
      (move : d₂.change (·.renamePath temporary path) = (.ok (), d')) :
      Fills temporary path content d (.ok ()) d'

lemma fills_of_fill {outcome : Except WriteError Unit}
    (h : d.fill temporary path content = (outcome, d')) :
    Fills temporary path content d outcome d' := by
  unfold Disk.fill at h
  split at h
  · next write =>
    obtain ⟨rfl, rfl⟩ := Prod.mk.inj h
    exact .unwritten write
  · next write =>
    split at h
    · next flush =>
      obtain ⟨rfl, rfl⟩ := Prod.mk.inj h
      exact .unflushed write flush
    · next flush =>
      split at h
      · next move =>
        obtain ⟨rfl, rfl⟩ := Prod.mk.inj h
        exact .unmoved write flush move
      · next move =>
        obtain ⟨rfl, rfl⟩ := Prod.mk.inj h
        exact .moved write flush move

lemma faults_of_fill {outcome : Except WriteError Unit}
    (h : d.fill temporary path content = (outcome, d')) (hd : d.faults = []) : d'.faults = [] := by
  -- discarding the new file meets no fault
  have hdiscard : ∀ {d₁ : Disk}, d₁.faults = [] → (d₁.discard temporary).faults = [] := fun h => h
  cases fills_of_fill h with
  | unwritten write => exact hdiscard (faults_of_change write hd)
  | unflushed write flush => exact hdiscard (faults_of_change flush (faults_of_change write hd))
  | unmoved write flush move | moved write flush move =>
    exact faults_of_change move (faults_of_change flush (faults_of_change write hd))

/-- Without the new file, everything is as it was. -/
lemma Holds.remove (h : Holds t temporary content t') (free : t.get? temporary = none)
    (q : Place) : (t'.remove temporary).get? q = t.get? q := by
  have proper : t'.Proper temporary := by
    rw [Proper, h.here_eq]
    exact proper_of_get?_eq_none free
  rw [get?_remove proper, h.get?_eq]
  by_cases hq : q = temporary
  · simp [hq, free]
  · simp [hq]

end Holds

/-- What replacing a file makes of a disk.  The tree `t` differs from that of before in directories
that were missing. -/
inductive Replaces (path content : String) (t : FileTree) :
    Except WriteError Unit → FileTree → Prop
  | done {t' : FileTree} (here_eq : t'.here = t.here) (name : Path.endsInName path = true)
      (way : ∀ q ∈ Path.places t.here (Path.folder path), t.get? q = some .directory)
      (target : t.get? (Path.components t.here path) ≠ some .directory)
      (get?_eq : ∀ q, t'.get? q =
        if q = Path.components t.here path then some (.file content) else t.get? q) :
      Replaces path content t (.ok ()) t'
  | undone {t' : FileTree} {e : WriteError} (held?_eq : e.held? = none) (here_eq : t'.here = t.here)
      (get?_eq : ∀ q, t'.get? q = t.get? q) : Replaces path content t (.error e) t'
  /-- The new file is still there, and the error holds it. -/
  | unmoved {t' : FileTree} {temporary : Place} {f : FileFault} (free : t.get? temporary = none)
      (holds : Holds t temporary content t') :
      Replaces path content t (.error (.placement path temporary f)) t'

section Replace

variable {path content : String} {outcome : Except WriteError Unit}

lemma Replaces.here_eq (h : Replaces path content t outcome t') : t'.here = t.here := by
  cases h with
  | done here_eq => exact here_eq
  | undone _ here_eq => exact here_eq
  | unmoved _ holds => exact holds.here_eq

/-- A new file that is moved stands at its place, and nowhere else. -/
lemma Holds.move {temporary : Place} {t₁ : FileTree} (h : Holds t temporary content t₁)
    (free : t.get? temporary = none)
    (way : ∀ q ∈ Path.places t.here (Path.folder path), t.get? q = some .directory)
    (hmove : t₁.renamePath temporary path = .ok t') : Replaces path content t (.ok ()) t' := by
  rw [renamePath] at hmove
  split at hmove
  · next hname =>
    rw [h.here_eq] at hmove
    obtain ⟨moved, hmoved, htarget, hput⟩ := put_of_rename hmove
    rw [h.get?_eq, if_pos rfl] at hmoved
    obtain rfl := FileNode.file.inj (Option.some.inj hmoved)
    have proper := proper_of_get?_ne_directory htarget
    refine .done (by rw [hput, here_put, here_remove, h.here_eq]) hname way
      (fun hdir => htarget ?_) fun q => ?_
    · have hne : Path.components t.here path ≠ temporary := by
        intro heq
        rw [heq, free] at hdir
        cases hdir
      rw [h.get?_eq, if_neg hne, hdir]
    · rw [hput, get?_put (t := t₁.remove temporary) proper, h.remove free]
  · cases hmove

/-- A new file that is filled is moved to its place, or it is gone, or the error holds it. -/
lemma Holds.fill {temporary : Place} {old : String} (h : Holds t temporary old d.tree)
    (free : t.get? temporary = none)
    (way : ∀ q ∈ Path.places t.here (Path.folder path), t.get? q = some .directory)
    (hfill : d.fill temporary path content = (outcome, d')) :
    Replaces path content t outcome d'.tree := by
  have hwritten : ∀ {d₁ : Disk}, d.change (·.write temporary content) = (.ok (), d₁) →
      Holds t temporary content d₁.tree := fun write =>
    holds_of_write h.here_eq free (fun q hq => by rw [h.get?_eq, if_neg hq]) write
  have hflushed : ∀ {d₁ d₂ : Disk}, d₁.change .ok = (.ok (), d₂) → d₂.tree = d₁.tree :=
    fun flush => (Except.ok.inj (eq_of_change_ok flush)).symm
  cases fills_of_fill hfill with
  | unwritten write =>
    have hheld : Holds t temporary old _ := tree_of_change_error write ▸ h
    exact .undone rfl hheld.here_eq (hheld.remove free)
  | unflushed write flush =>
    have hheld : Holds t temporary content _ := tree_of_change_error flush ▸ hwritten write
    exact .undone rfl hheld.here_eq (hheld.remove free)
  | unmoved write flush move =>
    have hheld : Holds t temporary content _ := hflushed flush ▸ hwritten write
    exact .unmoved free (tree_of_change_error move ▸ hheld)
  | moved write flush move =>
    have hheld : Holds t temporary content _ := hflushed flush ▸ hwritten write
    exact hheld.move free way (eq_of_change_ok move)

/-- Whatever fails, a file is replaced or nothing has happened to it. -/
theorem exists_replaces (h : d.replace path content = (outcome, d')) :
    ∃ t, Made (Path.places d.tree.here (Path.folder path)) d.tree t ∧
      Replaces path content t outcome d'.tree := by
  unfold replace at h
  dsimp only at h
  split at h
  · next f d₁ hmake =>
    obtain ⟨rfl, rfl⟩ := Prod.mk.inj h
    exact ⟨_, made_of_makeDirectories hmake, .undone rfl rfl fun _ => rfl⟩
  · next d₁ hmake =>
    have hmade := made_of_makeDirectories hmake
    refine ⟨d₁.tree, hmade, ?_⟩
    have free := d₁.tree.get?_freePlace (Path.components d₁.tree.here (Path.folder path))
    split at h
    · next f d₂ hnew =>
      obtain ⟨rfl, rfl⟩ := Prod.mk.inj h
      have htree := tree_of_change_error hnew
      exact .undone rfl (by rw [htree]) fun q => by rw [htree]
    · next d₂ hnew =>
      have hholds : Holds d₁.tree _ "" d₂.tree := holds_of_write rfl free (fun _ _ => rfl) hnew
      refine hholds.fill free (fun q hq => directory_of_makeDirectories hmake ?_) h
      rwa [← hmade.here_eq]

/-- Nothing goes wrong later with a disk with which nothing goes wrong. -/
lemma faults_of_replace (h : d.replace path content = (outcome, d')) (hd : d.faults = []) :
    d'.faults = [] := by
  unfold replace at h
  dsimp only at h
  split at h
  · next hmake =>
    obtain ⟨-, rfl⟩ := Prod.mk.inj h
    exact faults_of_makeAlong hmake hd
  · next hmake =>
    have hd₁ := faults_of_makeAlong hmake hd
    split at h
    · next hnew =>
      obtain ⟨-, rfl⟩ := Prod.mk.inj h
      exact faults_of_change hnew hd₁
    · next hnew => exact faults_of_fill h (faults_of_change hnew hd₁)

/-- File trees are like disks with which nothing goes wrong. -/
lemma replace_sound (path content : String) (t : FileTree) :
    (sound t).replace path content =
      ((t.replace path content).1, sound (t.replace path content).2) := by
  rcases hreplace : (sound t).replace path content with ⟨outcome, tree, faults⟩
  obtain rfl : faults = [] := faults_of_replace hreplace rfl
  simp only [FileTree.replace, hreplace]
  rfl

/-- Below directories a new file is filled and moved, unless there is a directory at its place. -/
lemma exists_fill_sound (content : String) {dir : Place} {fresh name : String} (dirs : t.Dirs dir)
    (free : t.get? (dir ++ [fresh]) = none) (named : Path.endsInName path = true)
    (leads : Path.components t.here path = dir ++ [name])
    (target : t.get? (dir ++ [name]) ≠ some .directory) :
    ∃ t', (sound (t.put (dir ++ [fresh]) (.file ""))).fill (dir ++ [fresh]) path content =
      (.ok (), sound t') := by
  have proper := proper_of_get?_eq_none free
  have dirs₁ := dirs.put proper (.file "")
  have get₁ : ∀ q, (t.put (dir ++ [fresh]) (.file "")).get? q = _ := get?_put proper _
  have here₁ := here_put t (dir ++ [fresh]) (.file "")
  generalize t.put (dir ++ [fresh]) (.file "") = t₁ at dirs₁ get₁ here₁
  have proper₁ : t₁.Proper (dir ++ [fresh]) := by rwa [Proper, here₁]
  have hwrite := dirs₁.write_eq_ok fresh (by rw [get₁, if_pos rfl]; simp) content
  have dirs₂ := dirs₁.put proper₁ (.file content)
  have get₂ : ∀ q, (t₁.put (dir ++ [fresh]) (.file content)).get? q = _ := get?_put proper₁ _
  have here₂ := (here_put t₁ (dir ++ [fresh]) (.file content)).trans here₁
  generalize t₁.put (dir ++ [fresh]) (.file content) = t₂ at hwrite dirs₂ get₂ here₂
  have target₂ : t₂.get? (dir ++ [name]) ≠ some .directory := by
    rw [get₂, get₁]
    split
    · simp
    · exact target
  obtain ⟨t₃, hmove⟩ : ∃ t₃, t₂.renamePath (dir ++ [fresh]) path = .ok t₃ := by
    rw [renamePath, if_pos named, here₂, leads]
    exact ⟨_, dirs₂.rename_eq_ok (by rw [get₂, if_pos rfl]) target₂⟩
  refine ⟨t₃, ?_⟩
  rw [fill, change_sound (f := (·.write (dir ++ [fresh]) content)) hwrite]
  dsimp only
  rw [change_sound (f := .ok) rfl]
  dsimp only
  rw [change_sound (f := (·.renamePath (dir ++ [fresh]) path)) hmove]

/-- Where nothing goes wrong, the file is replaced unless the tree does not allow it. -/
lemma exists_replace_sound (content : String) (named : Path.endsInName path = true)
    (way : ∀ q ∈ Path.places t.here (Path.folder path), ∀ content, t.get? q ≠ some (.file content))
    (target : t.get? (Path.components t.here path) ≠ some .directory)
    (apart : Path.components t.here path ∉ Path.places t.here (Path.folder path)) :
    ∃ t', (sound t).replace path content = (.ok (), sound t') := by
  obtain ⟨stem, name, hnames⟩ := Path.exists_names named
  have leads := hnames.components_eq_folder t.here
  obtain ⟨t₁, hmake⟩ : ∃ t₁, (sound t).makeDirectories (Path.folder path) = (.ok (), sound t₁) :=
    exists_makeAlong way
  have hmade : FileTree.Made _ t t₁ := made_of_makeDirectories hmake
  have dirs : t₁.Dirs (Path.components t.here (Path.folder path)) :=
    fun p hp => directory_of_isPrefix hmake hp
  have target₁ : t₁.get? (Path.components t.here path) ≠ some .directory := by
    rcases hmade.get?_or (Path.components t.here path) with heq | ⟨hmem, -⟩
    · rw [heq]
      exact target
    · exact (apart hmem).elim
  obtain ⟨fresh, hfresh⟩ : ∃ fresh,
      t₁.freePlace (Path.components t.here (Path.folder path)) =
        Path.components t.here (Path.folder path) ++ [fresh] := ⟨_, rfl⟩
  have free := t₁.get?_freePlace (Path.components t.here (Path.folder path))
  rw [hfresh] at free
  have hnew := dirs.write_eq_ok fresh (by rw [free]; simp) ""
  obtain ⟨t₂, hfill⟩ := exists_fill_sound content dirs free named (hmade.here_eq ▸ leads)
    (leads ▸ target₁)
  refine ⟨t₂, ?_⟩
  simp only [replace, hmake]
  rw [show (sound t₁).tree = t₁ from rfl, hmade.here_eq, hfresh,
    change_sound (f := (·.write _ "")) hnew]
  exact hfill

/-- It can be told from the tree whether a file is replaced where nothing goes wrong. -/
theorem replace_sound_iff :
    ((sound t).replace path content).1 = .ok () ↔
      Path.endsInName path = true ∧
      (∀ q ∈ Path.places t.here (Path.folder path),
        ∀ content, t.get? q ≠ some (.file content)) ∧
      t.get? (Path.components t.here path) ≠ some .directory ∧
      Path.components t.here path ∉ Path.places t.here (Path.folder path) := by
  constructor
  · intro h
    obtain ⟨t₁, hmade, hreplaces⟩ := exists_replaces (Prod.ext h rfl :
      (sound t).replace path content = (.ok (), ((sound t).replace path content).2))
    have hhere : t₁.here = t.here := hmade.here_eq
    cases hreplaces with
    | done _ named way target get?_eq =>
      rw [hhere] at way target
      refine ⟨named, fun q hq c hfile => ?_, fun hdir => target (hmade.directory hdir),
        fun hmem => target (way _ hmem)⟩
      have hdir := way q hq
      rw [(hmade.file_iff c).mpr hfile] at hdir
      cases hdir
  · rintro ⟨named, way, target, apart⟩
    obtain ⟨t', hreplace⟩ := exists_replace_sound content named way target apart
    rw [hreplace]

end Replace

end Disk

end Punter
