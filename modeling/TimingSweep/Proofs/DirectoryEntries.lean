import TimingSweep.Executable
import TimingSweep.Proofs.Separators
import TimingSweep.Request
import TimingSweep.Workspace

/-!
# Entries of a directory

An ordinary name joined to a directory stands for the entry of that name in the directory, whatever
the text of the directory is: it may be empty, end in slashes or lead nowhere.

* `Path.join_cases`: how a name comes behind a directory;
* `Executable.isOrdinary_name`: the executables of accepted names are ordinary names;
* `Place.walk_join`: the joined path leads through the directory;
* `Workspace.file?_join`: looking up the joined path is looking up the name in the directory.
-/

namespace TimingSweep

/-! ## Names and paths -/

/-- A name that an entry of a directory can have and that leads nowhere else. -/
structure Path.IsOrdinary (name : String) : Prop where
  nonempty : name ≠ ""
  slash_free : '/' ∉ name.toList
  null_free : '\x00' ∉ name.toList
  ne_dot : name ≠ "."
  ne_dots : name ≠ ".."
  short : name.utf8ByteSize ≤ Place.maxNameSize

namespace Path

variable {directory name : String}

theorem IsOrdinary.relative (h : IsOrdinary name) : name.toList.head? ≠ some '/' := fun slash =>
  h.slash_free (List.mem_of_mem_head? slash)

/-- Nothing is wrong with the text of an ordinary name as a path. -/
theorem IsOrdinary.fault?_eq_none (h : IsOrdinary name) : Tree.fault? name = none := by
  have short : ¬ Tree.maxPathSize < name.utf8ByteSize :=
    Nat.not_lt.mpr (Nat.le_trans h.short (by decide))
  simp [Tree.fault?, Tree.hasNull, h.null_free, h.nonempty, short]

/-- Behind an empty directory a name stands alone, behind any other after one slash. -/
theorem join_cases (directory : String) (relative : name.toList.head? ≠ some '/') :
    directory = "" ∧ join directory name = name ∨
      ∃ front, (directory.toList = front ∧ front ≠ [] ∨ directory.toList = front ++ ['/']) ∧
        (join directory name).toList = front ++ '/' :: name.toList := by
  unfold join
  rw [if_neg relative]
  cases ends : directory.toList.getLast? with
  | none => exact Or.inl ⟨by simpa using ends, rfl⟩
  | some last =>
    right
    obtain ⟨front, split⟩ := List.getLast?_eq_some_iff.mp ends
    by_cases slash : last = '/'
    · subst slash
      refine ⟨front, Or.inr split, ?_⟩
      simp [split]
    · refine ⟨directory.toList, Or.inl ⟨rfl, ?_⟩, ?_⟩
      · rw [split]
        exact List.append_ne_nil_of_right_ne_nil _ (List.cons_ne_nil _ _)
      · simp [slash]

theorem join_empty (relative : name.toList.head? ≠ some '/') : join "" name = name := by
  rw [join, if_neg relative]
  rfl

theorem join_inj {name' : String} (relative : name.toList.head? ≠ some '/')
    (relative' : name'.toList.head? ≠ some '/') :
    join directory name = join directory name' ↔ name = name' := by
  unfold join
  rw [if_neg relative, if_neg relative']
  split
  · rfl
  · split <;> exact String.append_right_inj _

end Path

namespace Route

/-- The steps of a path that has no slash before them. -/
def cut (text : List Char) : List String := (text.splitOn '/').map String.ofList

theorem cut_append (front back : List Char) :
    cut (front ++ '/' :: back) = cut front ++ cut back := by
  rw [cut, splitOn_append, List.map_append]
  rfl

theorem cut_of_slash_free {name : String} (free : '/' ∉ name.toList) :
    cut name.toList = [name] := by
  rw [cut, splitOn_of_not_mem free, List.map_singleton, String.ofList_toList]

/-- A path as a list of characters, cut at its slashes. -/
def ofText : List Char → Route
  | '/' :: rest => ⟨true, cut rest⟩
  | text => ⟨false, cut text⟩

theorem ofPath_eq (path : String) : ofPath path = ofText path.toList := by
  unfold ofPath
  split
  · rename_i slash
    rw [slash]
    rfl
  · rename_i relative
    unfold ofText
    split
    · rename_i slash
      exact absurd slash (relative _)
    · rfl

theorem ofText_of_relative {text : List Char} (h : text.head? ≠ some '/') :
    ofText text = ⟨false, cut text⟩ := by
  unfold ofText
  split
  · exact absurd rfl h
  · rfl

/-- What comes behind a further slash only adds steps. -/
theorem ofText_append {front : List Char} (nonempty : front ≠ []) (back : List Char) :
    ofText (front ++ '/' :: back) =
      ⟨(ofText front).absolute, (ofText front).steps ++ cut back⟩ := by
  obtain ⟨c, rest, rfl⟩ := List.exists_cons_of_ne_nil nonempty
  by_cases root : c = '/'
  · subst root
    show (⟨true, cut (rest ++ '/' :: back)⟩ : Route) = _
    rw [cut_append]
    rfl
  · have relative : ∀ tail : List Char, (c :: tail).head? ≠ some '/' := by simp [root]
    rw [List.cons_append, ofText_of_relative (relative _), ofText_of_relative (relative _),
      ← List.cons_append, cut_append]

/-- A joined path has the steps of the directory, but for an empty one at its end, and the name. -/
theorem ofPath_join (directory : String) {name : String} (ordinary : Path.IsOrdinary name) :
    ∃ steps, ((ofPath directory).steps = steps ∨ (ofPath directory).steps = steps ++ [""]) ∧
      ofPath (Path.join directory name) = ⟨(ofPath directory).absolute, steps ++ [name]⟩ := by
  have single := cut_of_slash_free ordinary.slash_free
  simp only [ofPath_eq]
  rcases Path.join_cases directory ordinary.relative with ⟨rfl, joined⟩ | ⟨front, ends, joined⟩
  · refine ⟨[], Or.inr rfl, ?_⟩
    rw [joined, ofText_of_relative ordinary.relative, single]
    rfl
  · rw [joined]
    rcases ends with ⟨whole, nonempty⟩ | slash
    · refine ⟨(ofText front).steps, Or.inl (by rw [whole]), ?_⟩
      rw [ofText_append nonempty, single, whole]
    · cases front with
      | nil =>
        refine ⟨[], Or.inr (by rw [slash]; rfl), ?_⟩
        rw [slash]
        show (⟨true, cut name.toList⟩ : Route) = _
        rw [single]
        rfl
      | cons c rest =>
        have nonempty : c :: rest ≠ [] := List.cons_ne_nil _ _
        refine ⟨(ofText (c :: rest)).steps, Or.inr ?_, ?_⟩
        · rw [slash, ofText_append nonempty]
          rfl
        · rw [slash, ofText_append nonempty, ofText_append nonempty, single]

end Route

namespace Place

variable {α : Type}

theorem walk_append (p : Place α) (first rest : List String) :
    p.walk (first ++ rest) = p.walk first >>= fun q => q.walk rest := by
  fun_induction walk p first with
  | case1 p => rfl
  | case2 p step more file =>
    rw [List.cons_append, walk, if_pos file]
    rfl
  | case3 p step more folder stays ih =>
    rw [List.cons_append, walk, if_neg folder, if_pos stays, ih]
  | case4 p more folder stays ih =>
    rw [List.cons_append, walk, if_neg folder, if_neg stays, if_pos rfl, ih]
  | case5 p step more folder stays up long =>
    rw [List.cons_append, walk, if_neg folder, if_neg stays, if_neg up, if_pos long]
    rfl
  | case6 p step more folder stays up short none =>
    rw [List.cons_append, walk, if_neg folder, if_neg stays, if_neg up, if_neg short, none]
    rfl
  | case7 p step more folder stays up short entry entered ih =>
    rw [List.cons_append, walk, if_neg folder, if_neg stays, if_neg up, if_neg short, entered]
    exact ih

/-- One step to an ordinary name enters the entry of that name. -/
theorem walk_ordinary (p : Place α) {name : String} (ordinary : Path.IsOrdinary name) :
    p.walk [name] =
      if p.node.isFolder then
        match p.enter? name with
        | none => .error (.system .noEntry)
        | some entry => .ok entry
      else .error (.system .notDirectory) := by
  have stays : ¬ (name = "" || name = ".") = true := by
    simp [ordinary.nonempty, ordinary.ne_dot]
  rw [walk]
  cases p.node.isFolder with
  | false => rfl
  | true =>
    rw [if_neg (by decide), if_neg stays, if_neg ordinary.ne_dots,
      if_neg (Nat.not_lt.mpr ordinary.short), if_pos rfl]
    cases p.enter? name <;> rfl

/-- An empty step before a name asks for a folder, as the name does. -/
theorem walk_empty_step (p : Place α) {name : String} (ordinary : Path.IsOrdinary name) :
    p.walk ["", name] = p.walk [name] := by
  rw [walk]
  cases folder : p.node.isFolder with
  | false =>
    rw [walk_ordinary p ordinary, folder]
    rfl
  | true => rfl

/-- The joined path leads through the directory to the entry. -/
theorem walk_join (p : Place α) (directory : String) {name : String}
    (ordinary : Path.IsOrdinary name) :
    p.walk (Route.ofPath (Path.join directory name)).steps =
      p.walk (Route.ofPath directory).steps >>= fun q => q.walk [name] := by
  obtain ⟨steps, same | closed, joined⟩ := Route.ofPath_join directory ordinary
  · rw [joined, same, walk_append]
  · rw [joined, closed, walk_append, walk_append, bind_assoc]
    congr 1
    funext q
    rw [← walk_append, List.singleton_append, walk_empty_step q ordinary]

end Place

namespace Workspace

/-- The place where a directory leads. The empty one is the home folder. -/
def folder? (w : Workspace) (directory : String) : Except IoFailure (Place Contents) :=
  w.tree.follow w.home (.ofPath directory) (Route.ofPath directory).steps

/-- The contents of the file that has a name in a directory. -/
def fileIn? (w : Workspace) (directory name : String) : Option Contents :=
  match w.folder? directory with
  | .ok place => (place.node.child? name).bind Tree.contents?
  | .error _ => none

/-- Looking up a joined path is looking up the name in the directory, unless the path is too long or
holds a null character. -/
theorem file?_join (w : Workspace) (directory : String) {name : String}
    (ordinary : Path.IsOrdinary name) :
    w.file? (Path.join directory name) =
      if Tree.fault? (Path.join directory name) = none then w.fileIn? directory name else none := by
  have absolute : (Route.ofPath (Path.join directory name)).absolute =
      (Route.ofPath directory).absolute := by
    obtain ⟨steps, -, joined⟩ := Route.ofPath_join directory ordinary
    rw [joined]
  have origin : w.tree.origin w.home (.ofPath (Path.join directory name)) =
      w.tree.origin w.home (.ofPath directory) := by
    simp only [Tree.origin, absolute]
  unfold file? Tree.file? Tree.find
  cases Tree.fault? (Path.join directory name) with
  | some fault => rfl
  | none =>
    have follow : w.tree.follow w.home (.ofPath (Path.join directory name))
        (Route.ofPath (Path.join directory name)).steps =
        w.folder? directory >>= fun q => q.walk [name] := by
      rw [folder?, Tree.follow, Tree.follow, origin, bind_assoc]
      congr 1
      funext p
      exact p.walk_join directory ordinary
    rw [if_pos rfl, fileIn?]
    simp only [follow]
    cases w.folder? directory with
    | error failure => rfl
    | ok place =>
      have step : (Except.ok place >>= fun q : Place Contents => q.walk [name]) =
          place.walk [name] := rfl
      rw [step, place.walk_ordinary ordinary]
      obtain ⟨node, above⟩ := place
      cases node with
      | file contents => rfl
      | folder entries =>
        simp only [Tree.isFolder, if_true, Place.enter?, Tree.child?]
        cases entries.lookup name <;> rfl

end Workspace

namespace Executable

variable {algorithm : String} {backend : Option String}

theorem head?_name (algorithm : String) (backend : Option String) :
    (name algorithm backend).toList.head? = some 'p' := by
  cases backend <;> simp [name, nameStart]

theorem name_relative (algorithm : String) (backend : Option String) :
    (name algorithm backend).toList.head? ≠ some '/' := by
  rw [head?_name]
  decide

/-- In one directory the path of an executable tells its name. -/
theorem path_inj {directory algorithm' : String} {backend' : Option String} :
    path directory algorithm backend = path directory algorithm' backend' ↔
      name algorithm backend = name algorithm' backend' :=
  Path.join_inj (name_relative _ _) (name_relative _ _)

/-- The algorithm and the backend of a measurement are identifiers. -/
structure IsNamed (algorithm : String) (backend : Option String) : Prop where
  algorithm : Identifier.check .algorithm algorithm = .ok ()
  backend : ∀ label ∈ backend, Identifier.check .backend label = .ok ()

theorem allows_of_mem_name (named : IsNamed algorithm backend) :
    ∀ c ∈ (name algorithm backend).toList, Identifier.allows c = true := by
  have start : ∀ c ∈ nameStart.toList, Identifier.allows c = true := List.all_eq_true.mp (by decide)
  have joint : ∀ c ∈ "_".toList, Identifier.allows c = true := List.all_eq_true.mp (by decide)
  have algorithm := List.all_eq_true.mp (Identifier.check_eq_ok.mp named.algorithm).2.2
  cases backend with
  | none =>
    simp only [name, String.toList_append, List.forall_mem_append]
    exact ⟨⟨start, joint⟩, algorithm⟩
  | some label =>
    have label := List.all_eq_true.mp (Identifier.check_eq_ok.mp (named.backend label rfl)).2.2
    simp only [name, String.toList_append, List.forall_mem_append]
    exact ⟨⟨⟨⟨start, joint⟩, label⟩, joint⟩, algorithm⟩

theorem utf8ByteSize_name (named : IsNamed algorithm backend) :
    (name algorithm backend).utf8ByteSize ≤ 2 * Identifier.maxSize + 6 := by
  have start : nameStart.utf8ByteSize = 4 := by decide
  have joint : "_".utf8ByteSize = 1 := by decide
  have algorithm := (Identifier.check_eq_ok.mp named.algorithm).2.1
  cases backend with
  | none =>
    simp only [name, String.utf8ByteSize_append]
    omega
  | some label =>
    have label := (Identifier.check_eq_ok.mp (named.backend label rfl)).2.1
    simp only [name, String.utf8ByteSize_append]
    omega

/-- Executables of identifiers have names without slashes and dots, and short enough. -/
theorem isOrdinary_name (named : IsNamed algorithm backend) :
    Path.IsOrdinary (name algorithm backend) := by
  have allowed := allows_of_mem_name named
  have begins := head?_name algorithm backend
  refine ⟨?_, fun slash => ?_, fun null => ?_, ?_, ?_, ?_⟩
  · intro empty
    rw [empty] at begins
    cases begins
  · exact absurd (allowed _ slash) (by decide)
  · exact absurd (allowed _ null) (by decide)
  · intro dot
    rw [dot] at begins
    cases begins
  · intro dots
    rw [dots] at begins
    cases begins
  · exact Nat.le_trans (utf8ByteSize_name named) (by decide)

end Executable

end TimingSweep
