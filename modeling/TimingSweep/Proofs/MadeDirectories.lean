import TimingSweep.Proofs.CreatedFiles

/-!
# Made directories

Making a directory adds empty folders where nothing was. So what could be reached is reached as
before, with the same contents; and a directory that has been made is there, so that making it once
more changes nothing.

* `Place.grows_makeSteps`, `grows_makeDirectories`: nothing but empty folders is added;
* `isDirectory_of_makeDirectories`: what has been made is a directory;
* `makeDirectories_of_isDirectory`: a directory is not made again;
* `Workspace.fileIn?_of_makeDirectories`: a directory that was there holds the same files.
-/

namespace TimingSweep

namespace Tree

variable {α : Type} {t t' t'' entry entry' : Tree α} {name : String}

/-- One tree is the other with empty folders added. -/
structure Grows (t t' : Tree α) : Prop where
  folderAt_of : ∀ l, t.folderAt l = true → t'.folderAt l = true
  contentsAt?_eq : ∀ l, t'.contentsAt? l = t.contentsAt? l

namespace Grows

theorem refl (t : Tree α) : t.Grows t := ⟨fun _ folder => folder, fun _ => rfl⟩

theorem trans (first : t.Grows t') (second : t'.Grows t'') : t.Grows t'' where
  folderAt_of l folder := second.folderAt_of l (first.folderAt_of l folder)
  contentsAt?_eq l := (second.contentsAt?_eq l).trans (first.contentsAt?_eq l)

theorem keeps (grows : t.Grows t') : t.Keeps t' where
  folderAt_of := grows.folderAt_of
  isSome_of l found := by
    rw [isSome_at?, Bool.or_eq_true] at found ⊢
    rw [grows.contentsAt?_eq]
    exact found.imp_left (grows.folderAt_of l)

end Grows

theorem at?_setChild_self (folder : t.isFolder = true) (name : String) (entry : Tree α)
    (rest : Location) : (t.setChild name entry).at? (name :: rest) = entry.at? rest := by
  rw [at?, child?_setChild_self folder, Option.bind_some]

theorem contentsAt?_top (folder : t.isFolder = true) : t.contentsAt? [] = none := by
  cases t with
  | folder entries => rfl
  | file contents => cases folder

/-- A folder grows with what stands under one of its names. -/
theorem grows_of_name (folder : t.isFolder = true) (folder' : t'.isFolder = true) (name : String)
    (elsewhere : ∀ next, next ≠ name → t'.child? next = t.child? next)
    (folderAt_of : ∀ rest, t.folderAt (name :: rest) = true → t'.folderAt (name :: rest) = true)
    (contentsAt?_eq : ∀ rest, t'.contentsAt? (name :: rest) = t.contentsAt? (name :: rest)) :
    t.Grows t' := by
  have beside : ∀ next rest, next ≠ name → t'.at? (next :: rest) = t.at? (next :: rest) :=
    fun next rest other => by rw [at?, at?, elsewhere next other]
  constructor
  · rintro (_ | ⟨next, rest⟩) found
    · exact folder'
    · by_cases same : next = name
      · subst same
        exact folderAt_of rest found
      · rw [folderAt, beside next rest same]
        exact found
  · rintro (_ | ⟨next, rest⟩)
    · rw [contentsAt?_top folder, contentsAt?_top folder']
    · by_cases same : next = name
      · subst same
        exact contentsAt?_eq rest
      · rw [contentsAt?, contentsAt?, beside next rest same]

theorem grows_setChild (t : Tree α) (name : String) (grows : entry.Grows entry') :
    (t.setChild name entry).Grows (t.setChild name entry') := by
  cases t with
  | file contents => exact .refl _
  | folder entries =>
    refine grows_of_name rfl rfl name (fun next other => ?_) (fun rest found => ?_) fun rest => ?_
    · rw [child?_setChild_of_ne _ other, child?_setChild_of_ne _ other]
    · rw [folderAt, at?_setChild_self rfl] at found ⊢
      exact grows.folderAt_of rest found
    · rw [contentsAt?, contentsAt?, at?_setChild_self rfl, at?_setChild_self rfl]
      exact grows.contentsAt?_eq rest

theorem contentsAt?_empty (l : Location) : (empty : Tree α).contentsAt? l = none := by
  cases l <;> rfl

/-- A folder grows by an empty one under a new name. -/
theorem grows_setChild_empty (new : t.child? name = none) : t.Grows (t.setChild name empty) := by
  cases t with
  | file contents => exact .refl _
  | folder entries =>
    have nothing : ∀ rest, at? (folder entries) (name :: rest) = none := fun rest => by
      rw [at?, new, Option.bind_none]
    refine grows_of_name rfl rfl name (fun next other => ?_) (fun rest found => ?_) fun rest => ?_
    · exact child?_setChild_of_ne _ other _
    · rw [folderAt, nothing] at found
      cases found
    · rw [contentsAt?, contentsAt?, at?_setChild_self rfl, nothing]
      exact contentsAt?_empty rest

end Tree

namespace Place

variable {α : Type} {t : Tree α} {p : Place α}

/-- The tree around a place grows with the node there. -/
theorem grows_tree {node node' : Tree α} (above : List (String × Tree α))
    (grows : node.Grows node') : (Place.mk node above).tree.Grows (Place.mk node' above).tree := by
  induction above generalizing node node' with
  | nil => exact grows
  | cons entry above ih =>
    obtain ⟨name, folder⟩ := entry
    exact ih (Tree.grows_setChild folder name grows)

theorem grows_down {name : String} (new : p.node.child? name = none) :
    p.tree.Grows (p.down name .empty).tree :=
  grows_tree p.above (Tree.grows_setChild_empty new)

/-- Going down steps adds the folders that are missing, also if it fails on the way. -/
theorem grows_makeSteps (p : Place α) (steps : List String) :
    p.tree.Grows (p.makeSteps steps).2.tree := by
  fun_induction makeSteps p steps with
  | case1 p => exact .refl _
  | case2 p rest ih => exact ih
  | case3 p rest _ ih => rwa [tree_up] at ih
  | case4 p step rest _ _ long => exact .refl _
  | case5 p step rest _ _ short absent ih =>
    have new : p.node.child? step = none := by simpa [enter?] using absent
    exact (grows_down new).trans ih
  | case6 p step rest _ _ short entry entered folder ih => rwa [tree_of_enter? entered] at ih
  | case7 p step rest _ _ short entry entered file => exact .refl _

theorem tree_of_standsIn (stands : p.StandsIn t) : p.tree = t := by
  obtain ⟨node, above⟩ := p
  induction above generalizing node with
  | nil =>
    cases stands
    rfl
  | cons entry above ih =>
    obtain ⟨name, folder⟩ := entry
    obtain ⟨folder_stands, entered⟩ := exists_of_standsIn stands rfl
    rw [tree_of_enter? entered, ih folder folder_stands]

/-- A new folder stands below the place where it was made. -/
theorem at?_down (stands : p.StandsIn t) (folder : p.node.isFolder = true) (name : String)
    (entry : Tree α) : (p.down name entry).tree.at? (p.location ++ [name]) = some entry := by
  have set : (p.down name entry).tree = (Place.mk (p.node.setChild name entry) p.above).tree := rfl
  rw [set, at?_replaced stands, Tree.at?_setChild_self folder]
  rfl

end Place

namespace Tree

variable {α : Type} {t made : Tree α} {home l m : Location} {path : String} {r : Route}

/-- A path leads to a directory if nothing is wrong with its text and it ends at a folder. -/
theorem isDirectory_iff : t.isDirectory home path = true ↔ fault? path = none ∧
    ∃ l, t.locate home (.ofPath path) (Route.ofPath path).steps = .ok l ∧
      t.folderAt l = true := by
  unfold isDirectory find
  cases fault? path with
  | some fault => simp
  | none =>
    rw [← map_location_follow]
    simp only [true_and]
    cases followed : t.follow home (.ofPath path) (Route.ofPath path).steps with
    | error failure => simp [Except.map]
    | ok p =>
      have folder := Place.folderAt_location (standsIn_of_follow followed)
      simp [Except.map, folder]

theorem Keeps.isDirectory (keeps : t.Keeps made) (found : t.isDirectory home path = true) :
    made.isDirectory home path = true := by
  obtain ⟨sound, l, led, folder⟩ := isDirectory_iff.mp found
  exact isDirectory_iff.mpr ⟨sound, l, keeps.locate_of_locate led, keeps.folderAt_of l folder⟩

/-- Slashes at the end lead nowhere else. -/
theorem trace_slashes (folder : t.folderAt l = true) (slashes : Nat) :
    t.trace l (List.replicate slashes "") = .ok l := by
  induction slashes with
  | zero => rfl
  | succ n ih =>
    have stays : t.advance l "" = .ok l :=
      advance_eq_ok_iff.mpr ⟨folder, Or.inl ⟨by simp, rfl⟩⟩
    rw [List.replicate_succ]
    exact trace_cons_eq_ok_iff.mpr ⟨l, stays, ih⟩

/-- A folder is made under the last name of its path, where nothing has that name, in the folder to
which the steps before it lead. -/
theorem exists_of_makeFolder (h : t.makeFolder home r = .ok made) :
    ∃ before last slash place, r.split? = some (before, last, slash) ∧
      t.follow home r before = .ok place ∧ place.node.isFolder = true ∧
      last ∉ [".", ".."] ∧ last.utf8ByteSize ≤ Place.maxNameSize ∧
      place.node.child? last = none ∧ made = (place.down last empty).tree := by
  unfold makeFolder at h
  split at h
  · cases h
  · rename_i before last slash divided
    cases found : t.parent home r before with
    | error failure =>
      rw [found] at h
      cases h
    | ok place =>
      obtain ⟨followed, folder⟩ := parent_eq_ok_iff.mp found
      simp only [found, bind, Except.bind, pure, Except.pure] at h
      split at h
      · cases h
      · rename_i named
        split at h
        · cases h
        · rename_i short
          split at h
          · cases h
          · rename_i new
            exact ⟨before, last, slash, place, divided, followed, folder, by simpa using named,
              by omega, by simpa using new, (Except.ok.inj h).symm⟩

theorem grows_makeFolder (h : t.makeFolder home r = .ok made) : t.Grows made := by
  obtain ⟨_, last, _, place, -, followed, -, -, -, new, rfl⟩ := exists_of_makeFolder h
  have grows := Place.grows_down new
  rwa [Place.tree_of_standsIn (standsIn_of_follow followed)] at grows

/-- What has been made is a directory. -/
theorem isDirectory_of_makeFolder (sound : fault? path = none)
    (h : t.makeFolder home (.ofPath path) = .ok made) : made.isDirectory home path = true := by
  have keeps := (grows_makeFolder h).keeps
  obtain ⟨before, last, slash, place, divided, followed, folder, ordinary, short, -, rfl⟩ :=
    exists_of_makeFolder h
  obtain ⟨nonempty, slashes, steps, -⟩ := Route.split?_eq_some_iff.mp divided
  have stands := standsIn_of_follow followed
  have there := Place.at?_down stands folder last empty
  have made_folder : (place.down last empty).tree.folderAt (place.location ++ [last]) = true := by
    rw [folderAt, there]
    rfl
  have above : (place.down last empty).tree.folderAt place.location = true := by
    apply keeps.folderAt_of
    rw [Place.folderAt_location stands, folder]
  have led : (place.down last empty).tree.advance place.location last =
      .ok (place.location ++ [last]) := by
    refine advance_eq_ok_iff.mpr ⟨above, Or.inr (Or.inr ⟨?_, short, by rw [there]; rfl, rfl⟩)⟩
    simpa [nonempty] using ordinary
  refine isDirectory_iff.mpr ⟨sound, _, ?_, made_folder⟩
  rw [steps, locate_append, keeps.locate_of_locate (locate_of_follow followed)]
  exact trace_cons_eq_ok_iff.mpr ⟨_, led, trace_slashes made_folder slashes⟩

/-- A folder is not made where a directory is. -/
theorem makeFolder_of_isDirectory (found : t.isDirectory home path = true) :
    t.makeFolder home (.ofPath path) ≠ .ok made := by
  intro h
  obtain ⟨before, last, slash, place, divided, followed, folder, ordinary, -, new, -⟩ :=
    exists_of_makeFolder h
  obtain ⟨nonempty, slashes, steps, -⟩ := Route.split?_eq_some_iff.mp divided
  obtain ⟨-, l, led, -⟩ := isDirectory_iff.mp found
  rw [steps, locate_append, locate_of_follow followed] at led
  obtain ⟨m, entered, -⟩ := trace_cons_eq_ok_iff.mp led
  obtain ⟨-, ⟨stays, -⟩ | ⟨up, -⟩ | ⟨-, -, there, -⟩⟩ := advance_eq_ok_iff.mp entered
  · simp_all
  · simp_all
  · rw [Place.at?_below (standsIn_of_follow followed), new] at there
    cases there

theorem ensureFolder_of_isDirectory (found : t.isDirectory home path = true) :
    t.ensureFolder home path = (.ok (), t) := by
  unfold ensureFolder
  cases h : t.makeFolder home (.ofPath path) with
  | ok made => exact absurd h (makeFolder_of_isDirectory found)
  | error failure =>
    simp only [found, if_true]

theorem grows_ensureFolder (t : Tree α) (home : Location) (path : String) :
    t.Grows (t.ensureFolder home path).2 := by
  unfold ensureFolder
  split
  · rename_i made h
    exact grows_makeFolder h
  · exact .refl _

theorem isDirectory_of_ensureFolder (sound : fault? path = none)
    (h : t.ensureFolder home path = (.ok (), made)) : made.isDirectory home path = true := by
  unfold ensureFolder at h
  split at h
  · rename_i found
    cases h
    exact isDirectory_of_makeFolder sound found
  · split at h
    · rename_i found
      cases h
      exact found
    · cases h

theorem grows_makeParents (t : Tree α) (home : Location) (r : Route) :
    t.Grows (t.makeParents home r).2 := by
  unfold makeParents
  split
  · exact .refl _
  · rename_i place begins
    have grows := place.grows_makeSteps r.essential.dropLast
    have whole : place.tree = t := by
      have led : t.follow home r [] = .ok place := by
        rw [follow, begins]
        rfl
      exact Place.tree_of_standsIn (standsIn_of_follow led)
    rwa [whole] at grows

/-- Making directories adds empty folders and nothing else, also if it fails. -/
theorem grows_makeDirectories (t : Tree α) (home : Location) (path : String) :
    t.Grows (t.makeDirectories home path).2 := by
  unfold makeDirectories
  split
  · exact .refl _
  · split
    · exact .refl _
    · split
      · rename_i made h
        have grows := grows_ensureFolder t home path
        rwa [h] at grows
      · split
        · exact .refl _
        · have grows := grows_makeParents t home (.ofPath path)
          split
          · rename_i parents h
            rw [h] at grows
            exact grows.trans (grows_ensureFolder parents home path)
          · exact grows

/-- What has been made is a directory; the empty path stands for the home. -/
theorem isDirectory_of_makeDirectories (h : t.makeDirectories home path = (.ok (), made)) :
    path = "" ∨ made.isDirectory home path = true := by
  unfold makeDirectories at h
  split at h
  · rename_i empty
    exact Or.inl empty
  · right
    split at h
    · cases h
    · rename_i sound
      split at h
      · rename_i ensured
        cases h
        exact isDirectory_of_ensureFolder sound ensured
      · split at h
        · cases h
        · split at h
          · exact isDirectory_of_ensureFolder sound h
          · rename_i failed
            exact absurd h (failed made)

/-- A directory is not made again. -/
theorem makeDirectories_of_isDirectory (found : path = "" ∨ t.isDirectory home path = true) :
    t.makeDirectories home path = (.ok (), t) := by
  rcases found with rfl | found
  · exact makeDirectories_empty t home
  · obtain ⟨sound, -⟩ := isDirectory_iff.mp found
    have nonempty : path ≠ "" := by
      rintro rfl
      cases sound
    unfold makeDirectories
    rw [if_neg nonempty, sound, ensureFolder_of_isDirectory found]

end Tree

namespace Workspace

variable {w made : Workspace} {path directory : String} {result : Except IoFailure Unit}

/-- The file of a name in a directory is what stands below the location of the directory. -/
theorem fileIn?_eq_locate (w : Workspace) (directory name : String) :
    w.fileIn? directory name =
      (w.tree.locate w.home (.ofPath directory) (Route.ofPath directory).steps).toOption.bind
        fun l => w.tree.contentsAt? (l ++ [name]) := by
  unfold fileIn? folder?
  rw [← Tree.map_location_follow]
  cases followed : w.tree.follow w.home (.ofPath directory) (Route.ofPath directory).steps with
  | error failure => rfl
  | ok place =>
    show (place.node.child? name).bind Tree.contents? =
      (w.tree.at? (place.location ++ [name])).bind Tree.contents?
    rw [Place.at?_below (Tree.standsIn_of_follow followed)]

theorem exists_of_makeDirectories (h : w.makeDirectories path = (result, made)) :
    made.home = w.home ∧ w.tree.makeDirectories w.home path = (result, made.tree) := by
  cases h
  exact ⟨rfl, rfl⟩

theorem grows_makeDirectories (h : w.makeDirectories path = (result, made)) :
    w.tree.Grows made.tree := by
  have grows := w.tree.grows_makeDirectories w.home path
  rwa [(exists_of_makeDirectories h).2] at grows

/-- A directory that was there before another was made holds the same files. -/
theorem fileIn?_of_makeDirectories (h : w.makeDirectories path = (result, made))
    (found : w.isDirectory directory = true) (name : String) :
    made.fileIn? directory name = w.fileIn? directory name := by
  obtain ⟨home, -⟩ := exists_of_makeDirectories h
  have grows := grows_makeDirectories h
  obtain ⟨-, l, led, -⟩ := Tree.isDirectory_iff.mp found
  rw [fileIn?_eq_locate, fileIn?_eq_locate, home, led, grows.keeps.locate_of_locate led]
  exact grows.contentsAt?_eq _

theorem isDirectory_of_makeDirectories (h : w.makeDirectories path = (.ok (), made)) :
    path = "" ∨ made.isDirectory path = true := by
  obtain ⟨home, whole⟩ := exists_of_makeDirectories h
  rw [isDirectory, home]
  exact Tree.isDirectory_of_makeDirectories whole

theorem makeDirectories_of_isDirectory (found : path = "" ∨ w.isDirectory path = true) :
    w.makeDirectories path = (.ok (), w) := by
  rw [makeDirectories, Tree.makeDirectories_of_isDirectory found]

end Workspace

end TimingSweep
