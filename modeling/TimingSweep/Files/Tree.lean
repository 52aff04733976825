/-!
# File trees

A `Tree` is a file or a folder with named entries below it. A `Location` leads from the top of a
tree to what stands in it.

* `child?_setChild_self`, `child?_setChild_of_ne`: in a folder an entry is changed under its name
  and under no other;
* `setChild_of_child?`: an entry set to what it is changes nothing.
-/

namespace TimingSweep

/-- The names from the top of a tree down. -/
abbrev Location := List String

/-- A file with its contents, or a folder with its entries; the first entry of a name counts. -/
inductive Tree (α : Type) where
  | file (contents : α)
  | folder (entries : List (String × Tree α))

namespace Tree

variable {α : Type}

def empty : Tree α := .folder []

def isFolder : Tree α → Bool
  | .folder _ => true
  | .file _ => false

def contents? : Tree α → Option α
  | .file contents => some contents
  | .folder _ => none

/-- The entry of a name; a file has none. -/
def child? : Tree α → String → Option (Tree α)
  | .folder entries, name => entries.lookup name
  | .file _, _ => none

/-- Entries with one set, in its place if there is one of the name and last otherwise. -/
def setIn (name : String) (entry : Tree α) : List (String × Tree α) → List (String × Tree α)
  | [] => [(name, entry)]
  | (other, tree) :: rest =>
    if name = other then (name, entry) :: rest else (other, tree) :: setIn name entry rest

/-- A folder with an entry set. A file stays as it is. -/
def setChild (t : Tree α) (name : String) (entry : Tree α) : Tree α :=
  match t with
  | .folder entries => .folder (setIn name entry entries)
  | .file contents => .file contents

theorem isFolder_setChild (t : Tree α) (name : String) (entry : Tree α) :
    (t.setChild name entry).isFolder = t.isFolder := by
  cases t <;> rfl

theorem lookup_setIn_self (name : String) (entry : Tree α) (entries : List (String × Tree α)) :
    (setIn name entry entries).lookup name = some entry := by
  induction entries with
  | nil => simp [setIn]
  | cons first rest ih =>
    obtain ⟨other, tree⟩ := first
    by_cases h : name = other
    · simp [setIn, h]
    · have : (name == other) = false := beq_eq_false_iff_ne.mpr h
      simp [setIn, h, List.lookup_cons, this, ih]

theorem lookup_setIn_of_ne {name other : String} (h : other ≠ name) (entry : Tree α)
    (entries : List (String × Tree α)) :
    (setIn name entry entries).lookup other = entries.lookup other := by
  have distinct : (other == name) = false := beq_eq_false_iff_ne.mpr h
  induction entries with
  | nil => simp [setIn, List.lookup_cons, distinct]
  | cons first rest ih =>
    obtain ⟨third, tree⟩ := first
    by_cases same : name = third
    · subst same
      simp [setIn, List.lookup_cons, distinct]
    · simp [setIn, same, List.lookup_cons, ih]

theorem setIn_of_lookup {name : String} {entry : Tree α} {entries : List (String × Tree α)}
    (h : entries.lookup name = some entry) : setIn name entry entries = entries := by
  induction entries with
  | nil => simp at h
  | cons first rest ih =>
    obtain ⟨other, tree⟩ := first
    by_cases same : name = other
    · subst same
      simp_all [setIn]
    · have : (name == other) = false := beq_eq_false_iff_ne.mpr same
      simp only [List.lookup_cons, this] at h
      simp [setIn, same, ih h]

theorem child?_setChild_self {t : Tree α} (folder : t.isFolder = true) (name : String)
    (entry : Tree α) : (t.setChild name entry).child? name = some entry := by
  cases t with
  | folder entries => exact lookup_setIn_self name entry entries
  | file contents => simp [isFolder] at folder

theorem child?_setChild_of_ne (t : Tree α) {name other : String} (h : other ≠ name)
    (entry : Tree α) : (t.setChild name entry).child? other = t.child? other := by
  cases t with
  | folder entries => exact lookup_setIn_of_ne h entry entries
  | file contents => rfl

theorem setChild_of_child? {t : Tree α} {name : String} {entry : Tree α}
    (h : t.child? name = some entry) : t.setChild name entry = t := by
  cases t with
  | folder entries => exact congrArg folder (setIn_of_lookup h)
  | file contents => rfl

mutual

/-- The files of a tree with their locations, below the names given last first. -/
def filesBelow (above : List String) : Tree α → List (Location × α)
  | .file contents => [(above.reverse, contents)]
  | .folder entries => filesAmong above entries

/-- The files of the entries of a folder. -/
def filesAmong (above : List String) : List (String × Tree α) → List (Location × α)
  | [] => []
  | (name, tree) :: rest => filesBelow (name :: above) tree ++ filesAmong above rest

end

/-- The files of a tree and their locations. -/
def files (t : Tree α) : List (Location × α) := filesBelow [] t

end Tree

end TimingSweep
