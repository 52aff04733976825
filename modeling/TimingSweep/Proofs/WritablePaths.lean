import TimingSweep.Proofs.CreatedFiles

/-!
# Writable paths

Whether a file can be created at a path is decided by the text of the path and by the folders of the
tree. The contents do not matter, and neither do the files that stand beside it: after another file
has been created the same paths can be written to.

* `exists_createFile_iff`: a file is created exactly where `Tree.CanCreate` says so;
* `AddsFile.canCreate_iff`: creating a file changes no answer;
* `Workspace.canWrite_iff_exists`: a path takes every drawing if it takes one;
* `Workspace.file?_of_not_canWrite`: nothing is found under a name that cannot be written to.
-/

namespace TimingSweep

namespace Tree

variable {α : Type} {t t' : Tree α} {home l : Location} {path : String} {contents : α}

/-- The path names a file in a folder, and no folder has the name. -/
def CanCreate (t : Tree α) (home : Location) (path : String) : Prop :=
  fault? path = none ∧ ∃ before last l, (Route.ofPath path).steps = before ++ [last] ∧
    t.locate home (.ofPath path) before = .ok l ∧ t.folderAt l = true ∧
    last ∉ ["", ".", ".."] ∧ last.utf8ByteSize ≤ Place.maxNameSize ∧
    t.folderAt (l ++ [last]) = false

theorem folderAt_below {place : Place α} (stands : place.StandsIn t) (name : String) :
    t.folderAt (place.location ++ [name]) = (place.node.child? name).any isFolder := by
  rw [folderAt, Place.at?_below stands]

theorem exists_createFile_iff (t : Tree α) (home : Location) (path : String) (contents : α) :
    (∃ made, t.createFile home path contents = .ok made) ↔ t.CanCreate home path := by
  constructor
  · rintro ⟨made, h⟩
    obtain ⟨sound, before, last, place, steps, followed, folder, ordinary, short, free, -⟩ :=
      exists_of_createFile h
    have stands := standsIn_of_follow followed
    refine ⟨sound, before, last, place.location, steps, locate_of_follow followed, ?_, ordinary,
      short, ?_⟩
    · rw [Place.folderAt_location stands, folder]
    · rw [folderAt_below stands, free]
  · rintro ⟨sound, before, last, l, steps, led, folder, ordinary, short, free⟩
    simp only [List.mem_cons, List.not_mem_nil, or_false, not_or] at ordinary
    obtain ⟨nonempty, dot, dots⟩ := ordinary
    have divided : (Route.ofPath path).split? = some (before, last, false) :=
      Route.split?_eq_some_iff.mpr ⟨nonempty, 0, steps, rfl⟩
    rw [← map_location_follow] at led
    cases followed : t.follow home (.ofPath path) before with
    | error failure =>
      rw [followed] at led
      cases led
    | ok place =>
      rw [followed] at led
      cases led
      have stands := standsIn_of_follow followed
      rw [Place.folderAt_location stands] at folder
      rw [folderAt_below stands] at free
      refine ⟨(place.down last (.file contents)).tree, ?_⟩
      have found := parent_eq_ok_iff.mpr ⟨followed, folder⟩
      simp [createFile, sound, divided, found, bind, Except.bind, pure, Except.pure, dot, dots,
        Nat.not_lt.mpr short, free]

/-- Creating a file changes no answer: the folders stay, and no path leads through the file. -/
theorem AddsFile.canCreate_iff (adds : t.AddsFile t' l contents) :
    t'.CanCreate home path ↔ t.CanCreate home path := by
  unfold CanCreate
  simp only [adds.folderAt_eq]
  constructor
  · rintro ⟨sound, before, last, m, steps, led, folder, rest⟩
    have elsewhere : m ≠ l := by
      rintro rfl
      rw [adds.free] at folder
      cases folder
    exact ⟨sound, before, last, m, steps, adds.locate_of_ne led elsewhere, folder, rest⟩
  · rintro ⟨sound, before, last, m, steps, led, rest⟩
    exact ⟨sound, before, last, m, steps, adds.keeps.locate_of_locate led, rest⟩

theorem folderAt_of_contentsAt? (h : t.contentsAt? l = some contents) : t.folderAt l = false := by
  obtain ⟨entry, there, file⟩ := Option.bind_eq_some_iff.mp h
  rw [folderAt, there]
  cases entry with
  | file contents => rfl
  | folder entries => cases file

/-- Where a file is found under an ordinary name, one can be created. -/
theorem canCreate_of_file? {directory name : String} (ordinary : Path.IsOrdinary name)
    (h : t.file? home (Path.join directory name) = some contents) :
    t.CanCreate home (Path.join directory name) := by
  rw [file?_eq_locate] at h
  split at h
  · rename_i sound
    cases led : t.locate home (.ofPath (Path.join directory name))
        (Route.ofPath (Path.join directory name)).steps with
    | error failure =>
      rw [led] at h
      cases h
    | ok l =>
      rw [led] at h
      obtain ⟨before, front, steps, first, folder, rfl⟩ := exists_of_locate_join ordinary led
      refine ⟨sound, before, name, front, steps, first, folder, ?_, ordinary.short,
        folderAt_of_contentsAt? h⟩
      simp [ordinary.nonempty, ordinary.ne_dot, ordinary.ne_dots]
  · cases h

end Tree

namespace Workspace

variable {w written : Workspace} {path : String} {d : Drawing}

/-- Any drawing can be written to the file at a path. -/
def CanWrite (w : Workspace) (path : String) : Prop :=
  ∀ d, ∃ written, w.writeDrawing path d = (.ok (), written)

theorem exists_writeDrawing_iff (w : Workspace) (path : String) (d : Drawing) :
    (∃ written, w.writeDrawing path d = (.ok (), written)) ↔ w.tree.CanCreate w.home path := by
  rw [← Tree.exists_createFile_iff w.tree w.home path (.drawing d)]
  constructor
  · rintro ⟨written, h⟩
    exact ⟨written.tree, (createFile_of_writeDrawing h).1⟩
  · rintro ⟨made, h⟩
    exact ⟨{ w with tree := made }, by rw [writeDrawing, h]⟩

theorem canWrite_iff (w : Workspace) (path : String) :
    w.CanWrite path ↔ w.tree.CanCreate w.home path := by
  constructor
  · intro all
    exact (w.exists_writeDrawing_iff path (.of 0 0 (.new "" .time))).mp (all _)
  · intro can d
    exact (w.exists_writeDrawing_iff path d).mpr can

/-- A path that takes one drawing takes every drawing. -/
theorem canWrite_iff_exists (w : Workspace) (path : String) (d : Drawing) :
    w.CanWrite path ↔ ∃ written, w.writeDrawing path d = (.ok (), written) := by
  rw [canWrite_iff, exists_writeDrawing_iff]

/-- A drawing that fails leaves everything as it is. -/
theorem writeDrawing_of_not_canWrite (cannot : ¬ w.CanWrite path) (d : Drawing) :
    ∃ failure, w.writeDrawing path d = (.error failure, w) := by
  rw [canWrite_iff_exists w path d] at cannot
  unfold writeDrawing at cannot ⊢
  cases created : w.tree.createFile w.home path (.drawing d) with
  | error failure => exact ⟨failure, rfl⟩
  | ok tree =>
    rw [created] at cannot
    exact absurd ⟨_, rfl⟩ cannot

theorem file?_of_not_canWrite {directory name : String} (ordinary : Path.IsOrdinary name)
    (cannot : ¬ w.CanWrite (Path.join directory name)) :
    w.file? (Path.join directory name) = none := by
  rw [canWrite_iff] at cannot
  cases found : w.file? (Path.join directory name) with
  | none => rfl
  | some contents => exact absurd (Tree.canCreate_of_file? ordinary found) cannot

end Workspace

end TimingSweep
