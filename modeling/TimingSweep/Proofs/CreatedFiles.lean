import TimingSweep.Files.Creation
import TimingSweep.Proofs.DirectoryEntries
import TimingSweep.Proofs.Locations

/-!
# Created files

Creating a file sets the contents at one location and leaves everything else as it is. So the file
is found again at its path, and what is found at a path that ends in another name does not change.

* `Place.addsFile_down`: a file set below a place is set at one location of the tree;
* `AddsFile.keeps`, `AddsFile.locate_of_ne`: a path leads the same way before and after;
* `exists_of_createFile`: where a file is created;
* `Workspace.file?_of_writeDrawing`, `Workspace.file?_of_writeDrawing_elsewhere`: a drawing that is
  written is found at its path, and other names stand for what they did.
-/

namespace TimingSweep

namespace Tree

variable {α : Type} {t t' : Tree α} {name : String}

/-- One tree is the other with a file set at a location where no folder was. -/
structure AddsFile (t t' : Tree α) (l : Location) (contents : α) : Prop where
  free : t.folderAt l = false
  folderAt_eq : ∀ m, t'.folderAt m = t.folderAt m
  contentsAt?_eq : ∀ m, t'.contentsAt? m = if m = l then some contents else t.contentsAt? m

theorem at?_of_not_folder {entry : Option (Tree α)} (file : entry.any isFolder = false)
    (next : String) (rest : Location) : (entry.bind fun t => t.at? (next :: rest)) = none := by
  cases entry with
  | none => rfl
  | some t =>
    cases t with
    | folder entries => cases file
    | file held => rfl

/-- In a folder, a file is set under its name and nothing else is changed. -/
theorem addsFile_setChild (folder : t.isFolder = true)
    (free : (t.child? name).any isFolder = false) (contents : α) :
    t.AddsFile (t.setChild name (.file contents)) [name] contents := by
  have child : t.folderAt [name] = false := by
    rw [folderAt, show t.at? [name] = (t.child? name).bind some from rfl, Option.bind_fun_some]
    exact free
  have alike : ∀ m, (t.setChild name (.file contents)).folderAt m = t.folderAt m ∧
      (t.setChild name (.file contents)).contentsAt? m =
        if m = [name] then some contents else t.contentsAt? m := by
    intro m
    rcases m with _ | ⟨next, rest⟩
    · refine ⟨isFolder_setChild t name _, ?_⟩
      rw [if_neg (List.cons_ne_nil _ _).symm]
      cases t with
      | folder entries => rfl
      | file held => rfl
    · by_cases same : next = name
      · subst same
        rcases rest with _ | ⟨further, rest⟩
        · rw [child, if_pos rfl, folderAt, contentsAt?, at?, child?_setChild_self folder]
          exact ⟨rfl, rfl⟩
        · rw [if_neg (by simp), folderAt, folderAt, contentsAt?, contentsAt?, at?, at?,
            child?_setChild_self folder, at?_of_not_folder free]
          exact ⟨rfl, rfl⟩
      · rw [if_neg (by simp [same]), folderAt, folderAt, contentsAt?, contentsAt?, at?, at?,
          child?_setChild_of_ne _ same]
        exact ⟨rfl, rfl⟩
  exact ⟨child, fun m => (alike m).1, fun m => (alike m).2⟩

end Tree

namespace Place

variable {α : Type} {t : Tree α} {p : Place α}

/-- With another node at a place, the tree has that node there. -/
theorem at?_replaced (stands : p.StandsIn t) (node : Tree α) (l : Location) :
    (Place.mk node p.above).tree.at? (p.location ++ l) = node.at? l := by
  obtain ⟨old, above⟩ := p
  induction above generalizing old node l with
  | nil => rfl
  | cons entry above ih =>
    obtain ⟨name, folder⟩ := entry
    obtain ⟨folder_stands, entered⟩ := exists_of_standsIn stands rfl
    obtain ⟨_, child, -⟩ := Option.map_eq_some_iff.mp entered
    have isFolder : folder.isFolder = true := by
      cases folder with
      | folder entries => rfl
      | file contents => cases child
    rw [location_of_enter? entered, List.append_assoc]
    refine (ih (folder.setChild name node) ([name] ++ l) folder folder_stands).trans ?_
    rw [List.singleton_append, Tree.at?, Tree.child?_setChild_self isFolder, Option.bind_some]

/-- With another node at a place, nothing changes at locations that do not lead through it. -/
theorem replaced_elsewhere (stands : p.StandsIn t) (node : Tree α) {l : Location}
    (outside : ¬ p.location <+: l) :
    (Place.mk node p.above).tree.folderAt l = t.folderAt l ∧
      (Place.mk node p.above).tree.contentsAt? l = t.contentsAt? l := by
  obtain ⟨old, above⟩ := p
  induction above generalizing old node with
  | nil => exact absurd List.nil_prefix outside
  | cons entry above ih =>
    obtain ⟨name, folder⟩ := entry
    obtain ⟨folder_stands, entered⟩ := exists_of_standsIn stands rfl
    rw [location_of_enter? entered] at outside
    by_cases inside : (Place.mk folder above).location <+: l
    · obtain ⟨rest, rfl⟩ := inside
      have before : t.at? ((Place.mk folder above).location ++ rest) = folder.at? rest := by
        rw [Tree.at?_append, at?_location folder_stands, Option.bind_some]
      have after : (Place.mk node ((name, folder) :: above)).tree.at?
          ((Place.mk folder above).location ++ rest) = (folder.setChild name node).at? rest :=
        at?_replaced folder_stands (folder.setChild name node) rest
      rw [Tree.folderAt, Tree.folderAt, Tree.contentsAt?, Tree.contentsAt?, before, after]
      cases rest with
      | nil => cases folder <;> exact ⟨rfl, rfl⟩
      | cons next rest =>
        have other : next ≠ name := by
          rintro rfl
          exact outside ⟨rest, by rw [List.append_assoc, List.singleton_append]⟩
        rw [Tree.at?, Tree.at?, Tree.child?_setChild_of_ne folder other]
        exact ⟨rfl, rfl⟩
    · exact ih (folder.setChild name node) folder folder_stands inside

/-- What is set below the node at a place is set in the whole tree. -/
theorem addsFile_replaced (stands : p.StandsIn t) {node : Tree α} {l : Location} {contents : α}
    (adds : p.node.AddsFile node l contents) :
    t.AddsFile (Place.mk node p.above).tree (p.location ++ l) contents := by
  have before : ∀ rest, t.at? (p.location ++ rest) = p.node.at? rest := fun rest => by
    rw [Tree.at?_append, at?_location stands, Option.bind_some]
  have after := at?_replaced stands node
  have alike : ∀ m, (Place.mk node p.above).tree.folderAt m = t.folderAt m ∧
      (Place.mk node p.above).tree.contentsAt? m =
        if m = p.location ++ l then some contents else t.contentsAt? m := by
    intro m
    by_cases inside : p.location <+: m
    · obtain ⟨rest, rfl⟩ := inside
      simp only [Tree.folderAt, Tree.contentsAt?, before, after, List.append_right_inj]
      exact ⟨adds.folderAt_eq rest, adds.contentsAt?_eq rest⟩
    · obtain ⟨folders, files⟩ := replaced_elsewhere stands node inside
      have other : m ≠ p.location ++ l := by
        rintro rfl
        exact inside (List.prefix_append _ _)
      exact ⟨folders, files.trans (if_neg other).symm⟩
  refine ⟨?_, fun m => (alike m).1, fun m => (alike m).2⟩
  rw [Tree.folderAt, before]
  exact adds.free

/-- A file set below a folder is set at one location. -/
theorem addsFile_down (stands : p.StandsIn t) (folder : p.node.isFolder = true) {name : String}
    (free : (p.node.child? name).any Tree.isFolder = false) (contents : α) :
    t.AddsFile (p.down name (.file contents)).tree (p.location ++ [name]) contents :=
  addsFile_replaced stands (Tree.addsFile_setChild folder free contents)

end Place

namespace Tree

variable {α : Type} {t t' : Tree α} {home l m n : Location} {contents : α}

/-- Where no folder is, only the empty trace ends. -/
theorem eq_of_trace (file : t.folderAt l = false) {steps : List String}
    (led : t.trace l steps = .ok m) : m = l := by
  cases steps with
  | nil =>
    cases led
    rfl
  | cons step rest =>
    obtain ⟨k, first, -⟩ := trace_cons_eq_ok_iff.mp led
    rw [(advance_eq_ok_iff.mp first).1] at file
    cases file

namespace AddsFile

theorem isSome_at? (adds : t.AddsFile t' l contents) (m : Location) :
    (t'.at? m).isSome = ((t.at? m).isSome || decide (m = l)) := by
  rw [Tree.isSome_at?, Tree.isSome_at?, adds.folderAt_eq, adds.contentsAt?_eq]
  by_cases same : m = l <;> simp [same]

theorem keeps (adds : t.AddsFile t' l contents) : t.Keeps t' where
  folderAt_of m folder := (adds.folderAt_eq m).trans folder
  isSome_of m found := by simp [adds.isSome_at?, found]

/-- A step that does not lead to the new file led to the same location before. -/
theorem advance_of_ne (adds : t.AddsFile t' l contents) {step : String}
    (led : t'.advance m step = .ok n) (elsewhere : n ≠ l) : t.advance m step = .ok n := by
  obtain ⟨folder, stays | up | ⟨ordinary, short, found, rfl⟩⟩ := advance_eq_ok_iff.mp led <;>
    refine advance_eq_ok_iff.mpr ⟨(adds.folderAt_eq m).symm.trans folder, ?_⟩
  · exact Or.inl stays
  · exact Or.inr (Or.inl up)
  · have known : (t.at? (m ++ [step])).isSome = true := by
      simpa [adds.isSome_at?, elsewhere] using found
    exact Or.inr (Or.inr ⟨ordinary, short, known, rfl⟩)

/-- Steps that do not lead to the new file went the same way before: nothing lies beyond it. -/
theorem trace_of_ne (adds : t.AddsFile t' l contents) {steps : List String}
    (led : t'.trace m steps = .ok n) (elsewhere : n ≠ l) : t.trace m steps = .ok n := by
  induction steps generalizing m with
  | nil => exact led
  | cons step rest ih =>
    obtain ⟨k, first, later⟩ := trace_cons_eq_ok_iff.mp led
    have old : k ≠ l := by
      rintro rfl
      exact elsewhere (eq_of_trace ((adds.folderAt_eq k).trans adds.free) later)
    exact trace_cons_eq_ok_iff.mpr ⟨k, adds.advance_of_ne first old, ih later⟩

theorem locate_of_ne (adds : t.AddsFile t' l contents) {r : Route} {steps : List String}
    (led : t'.locate home r steps = .ok n) (elsewhere : n ≠ l) :
    t.locate home r steps = .ok n := by
  unfold locate at led ⊢
  split at led
  · rename_i absolute
    rw [if_pos absolute]
    exact adds.trace_of_ne led elsewhere
  · rename_i relative
    split at led
    · rename_i known
      have old : home ≠ l := by
        rintro rfl
        exact elsewhere (eq_of_trace ((adds.folderAt_eq home).trans adds.free) led)
      rw [if_neg relative, if_pos (by simpa [adds.isSome_at?, old] using known)]
      exact adds.trace_of_ne led elsewhere
    · cases led

theorem file?_self (adds : t.AddsFile t' l contents) {path : String}
    (sound : fault? path = none)
    (led : t'.locate home (.ofPath path) (Route.ofPath path).steps = .ok l) :
    t'.file? home path = some contents := by
  rw [file?_eq_locate, if_pos sound, led]
  exact (adds.contentsAt?_eq l).trans (if_pos rfl)

/-- What is found at a path changes only if the path leads to the new file. -/
theorem file?_of_ne (adds : t.AddsFile t' l contents) {path : String}
    (elsewhere : ∀ n, t'.locate home (.ofPath path) (Route.ofPath path).steps = .ok n → n ≠ l) :
    t'.file? home path = t.file? home path := by
  rw [file?_eq_locate, file?_eq_locate]
  congr 1
  cases after : t'.locate home (.ofPath path) (Route.ofPath path).steps with
  | ok n =>
    rw [adds.locate_of_ne after (elsewhere n after)]
    exact (adds.contentsAt?_eq n).trans (if_neg (elsewhere n after))
  | error failure =>
    cases before : t.locate home (.ofPath path) (Route.ofPath path).steps with
    | ok n =>
      rw [adds.keeps.locate_of_locate before] at after
      cases after
    | error failure => rfl

end AddsFile

end Tree

/-- A path is split at its last name; whatever is behind that are slashes. -/
theorem Route.split?_eq_some_iff {r : Route} {before : List String} {last : String} {slash : Bool} :
    r.split? = some (before, last, slash) ↔ last ≠ "" ∧
      ∃ n, r.steps = before ++ last :: List.replicate n "" ∧ slash = decide (0 < n) := by
  have ended : ∀ n, last ≠ "" →
      decide ((before ++ last :: List.replicate n "").getLast? = some "") = decide (0 < n) := by
    intro n nonempty
    cases n with
    | zero => simpa using nonempty
    | succ n =>
      have front : before ++ last :: List.replicate (n + 1) "" =
          (before ++ last :: List.replicate n "") ++ [""] := by
        simp [List.replicate_succ']
      rw [front, List.getLast?_concat]
      simp
  constructor
  · intro h
    unfold split? at h
    split at h
    · cases h
    · rename_i last' before' rest
      cases h
      obtain ⟨slashes, whole, empty, nonempty⟩ := dropWhile_eq_iff.mp rest
      have nonempty : last ≠ "" := by simpa using nonempty last (by simp)
      have replicated : slashes.reverse = List.replicate slashes.length "" := by
        refine List.eq_replicate_iff.mpr ⟨List.length_reverse, fun step member => ?_⟩
        simpa using empty step (by simpa using member)
      have steps : r.steps =
          before'.reverse ++ last :: List.replicate slashes.length "" := by
        rw [← List.reverse_reverse r.steps, whole, List.reverse_append, List.reverse_cons,
          replicated, List.append_assoc, List.singleton_append]
      refine ⟨nonempty, slashes.length, steps, ?_⟩
      rw [steps, ended _ nonempty]
  · rintro ⟨nonempty, n, steps, rfl⟩
    have rest : r.steps.reverse.dropWhile (· = "") = last :: before.reverse := by
      refine dropWhile_eq_iff.mpr ⟨List.replicate n "", ?_, ?_, ?_⟩
      · simp [steps]
      · intro step member
        simp [List.eq_of_mem_replicate member]
      · simpa using nonempty
    unfold split?
    rw [rest, steps, ended n nonempty]
    simp only [List.reverse_reverse]

namespace Tree

variable {α : Type} {t t' : Tree α} {home : Location} {path : String} {contents : α}

theorem parent_eq_ok_iff {r : Route} {before : List String} {place : Place α} :
    t.parent home r before = .ok place ↔
      t.follow home r before = .ok place ∧ place.node.isFolder = true := by
  unfold parent
  cases t.follow home r before with
  | error failure => simp [bind, Except.bind]
  | ok found =>
    cases folder : found.node.isFolder with
    | false =>
      constructor
      · intro h
        simp [bind, Except.bind, folder, throw, throwThe, MonadExceptOf.throw] at h
      · rintro ⟨same, held⟩
        cases same
        rw [folder] at held
        cases held
    | true =>
      simp only [bind, Except.bind, folder, if_true, pure, Except.pure]
      constructor
      · intro same
        cases same
        exact ⟨rfl, folder⟩
      · exact And.left

/-- A file is created under the last name of its path, in the folder to which the steps before it
lead, where no folder has that name. -/
theorem exists_of_createFile (h : t.createFile home path contents = .ok t') :
    fault? path = none ∧ ∃ before last place, (Route.ofPath path).steps = before ++ [last] ∧
      t.follow home (.ofPath path) before = .ok place ∧ place.node.isFolder = true ∧
      last ∉ ["", ".", ".."] ∧ last.utf8ByteSize ≤ Place.maxNameSize ∧
      (place.node.child? last).any isFolder = false ∧
      t' = (place.down last (.file contents)).tree := by
  unfold createFile at h
  split at h
  · cases h
  · cases h
  · rename_i before last slash sound divided
    refine ⟨sound, before, last, ?_⟩
    cases found : t.parent home (.ofPath path) before with
    | error failure =>
      rw [found] at h
      cases h
    | ok place =>
      obtain ⟨followed, folder⟩ := parent_eq_ok_iff.mp found
      simp only [found, bind, Except.bind, pure, Except.pure] at h
      split at h
      · cases h
      · rename_i named
        split at h
        · cases h
        · rename_i short
          split at h
          · cases h
          · rename_i free
            have open_end : slash = false := by
              cases slash <;> simp_all
            subst open_end
            obtain ⟨nonempty, n, steps, behind⟩ := Route.split?_eq_some_iff.mp divided
            have single : n = 0 := by simpa using behind
            subst single
            refine ⟨place, steps, followed, folder, ?_, by omega, by simpa using free, ?_⟩
            · simpa [nonempty] using named
            · exact (Except.ok.inj h).symm

/-- Creating a file adds it at the location to which its path then leads. -/
theorem addsFile_of_createFile (h : t.createFile home path contents = .ok t') :
    fault? path = none ∧ ∃ l last, (Route.ofPath path).steps.getLast? = some last ∧
      t.AddsFile t' (l ++ [last]) contents ∧
      t'.locate home (.ofPath path) (Route.ofPath path).steps = .ok (l ++ [last]) := by
  obtain ⟨sound, before, last, place, steps, followed, folder, ordinary, short, free, made⟩ :=
    exists_of_createFile h
  have stands := standsIn_of_follow followed
  have adds : t.AddsFile t' (place.location ++ [last]) contents :=
    made ▸ Place.addsFile_down stands folder free contents
  have holds : t'.folderAt place.location = true := by
    rw [adds.folderAt_eq, Place.folderAt_location stands, folder]
  have found : (t'.at? (place.location ++ [last])).isSome = true := by
    simp [adds.isSome_at?]
  have led : t'.advance place.location last = .ok (place.location ++ [last]) :=
    advance_eq_ok_iff.mpr ⟨holds, Or.inr (Or.inr ⟨ordinary, short, found, rfl⟩)⟩
  refine ⟨sound, place.location, last, by rw [steps, List.getLast?_concat], adds, ?_⟩
  rw [steps, locate_append, adds.keeps.locate_of_locate (locate_of_follow followed)]
  exact trace_cons_eq_ok_iff.mpr ⟨_, led, rfl⟩

theorem file?_of_createFile (h : t.createFile home path contents = .ok t') :
    t'.file? home path = some contents := by
  obtain ⟨sound, l, last, -, adds, led⟩ := addsFile_of_createFile h
  exact adds.file?_self sound led

/-- A name joined to a directory leads to the location of the name in a folder. -/
theorem exists_of_locate_join {directory name : String} (ordinary : Path.IsOrdinary name)
    {l : Location} (led : t.locate home (.ofPath (Path.join directory name))
      (Route.ofPath (Path.join directory name)).steps = .ok l) :
    ∃ before front, (Route.ofPath (Path.join directory name)).steps = before ++ [name] ∧
      t.locate home (.ofPath (Path.join directory name)) before = .ok front ∧
      t.folderAt front = true ∧ l = front ++ [name] := by
  obtain ⟨before, -, joined⟩ := Route.ofPath_join directory ordinary
  have whole : (Route.ofPath (Path.join directory name)).steps = before ++ [name] := by
    rw [joined]
  rw [whole, locate_append] at led
  cases first : t.locate home (.ofPath (Path.join directory name)) before with
  | error failure =>
    rw [first] at led
    cases led
  | ok front =>
    rw [first] at led
    obtain ⟨m, last_step, same⟩ := trace_cons_eq_ok_iff.mp led
    cases same
    obtain ⟨folder, ⟨stays, -⟩ | ⟨up, -⟩ | ⟨-, -, -, entered⟩⟩ := advance_eq_ok_iff.mp last_step
    · simp [ordinary.nonempty, ordinary.ne_dot] at stays
    · exact absurd up ordinary.ne_dots
    · exact ⟨before, front, whole, first, folder, entered⟩

/-- A file that is created under a name is not found under any other name. -/
theorem file?_of_createFile_elsewhere {directory name directory' name' : String}
    (ordinary : Path.IsOrdinary name) (ordinary' : Path.IsOrdinary name') (differ : name' ≠ name)
    (h : t.createFile home (Path.join directory name) contents = .ok t') :
    t'.file? home (Path.join directory' name') = t.file? home (Path.join directory' name') := by
  obtain ⟨-, l, last, final, adds, -⟩ := addsFile_of_createFile h
  obtain ⟨steps, -, joined⟩ := Route.ofPath_join directory ordinary
  rw [joined, List.getLast?_concat, Option.some.injEq] at final
  subst final
  refine adds.file?_of_ne fun n led same => ?_
  obtain ⟨-, front, -, -, -, rfl⟩ := exists_of_locate_join ordinary' led
  exact differ (by simpa using (List.append_inj_right' same rfl))

end Tree

namespace Workspace

variable {w written : Workspace} {path : String} {d : Drawing}

theorem createFile_of_writeDrawing (h : w.writeDrawing path d = (.ok (), written)) :
    w.tree.createFile w.home path (.drawing d) = .ok written.tree ∧ written.home = w.home := by
  unfold writeDrawing at h
  split at h
  · rename_i tree created
    cases h
    exact ⟨created, rfl⟩
  · cases h

/-- A drawing that has been written is found at its path. -/
theorem file?_of_writeDrawing (h : w.writeDrawing path d = (.ok (), written)) :
    written.file? path = some (.drawing d) := by
  obtain ⟨created, home⟩ := createFile_of_writeDrawing h
  rw [file?, home]
  exact Tree.file?_of_createFile created

/-- A drawing that is written under one name is not found under another. -/
theorem file?_of_writeDrawing_elsewhere {directory name directory' name' : String}
    (ordinary : Path.IsOrdinary name) (ordinary' : Path.IsOrdinary name') (differ : name' ≠ name)
    (h : w.writeDrawing (Path.join directory name) d = (.ok (), written)) :
    written.file? (Path.join directory' name') = w.file? (Path.join directory' name') := by
  obtain ⟨created, home⟩ := createFile_of_writeDrawing h
  rw [file?, file?, home]
  exact Tree.file?_of_createFile_elsewhere ordinary ordinary' differ created

end Workspace

end TimingSweep
