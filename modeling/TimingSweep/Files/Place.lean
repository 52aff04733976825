import TimingSweep.Files.IoFailure
import TimingSweep.Files.Path
import TimingSweep.Files.Tree

/-!
# Places in a file tree

A `Place` is a point in a tree together with the way that led there, so that steps down and up need
no second look-up. `Place.walk` follows the steps of a path, and `Tree.find` starts it at the top of
a tree or at a home folder.

* `tree_up`, `tree_of_enter?`: moving about leaves the tree as it is.
-/

namespace TimingSweep

/-- What stands at a place, and the folders above it, nearest first, each with the name of the entry
that was taken in it. -/
structure Place (α : Type) where
  node : Tree α
  above : List (String × Tree α)

namespace Place

variable {α : Type}

def top (t : Tree α) : Place α := ⟨t, []⟩

/-- The whole tree around a place. -/
def tree (p : Place α) : Tree α :=
  p.above.foldl (fun below (name, folder) => folder.setChild name below) p.node

/-- The place of an entry that has been set in the folder at a place. -/
def down (p : Place α) (name : String) (entry : Tree α) : Place α :=
  ⟨entry, (name, p.node) :: p.above⟩

/-- The folder above; above the top is the top. -/
def up (p : Place α) : Place α :=
  match p.above with
  | [] => p
  | (name, folder) :: above => ⟨folder.setChild name p.node, above⟩

/-- The place of an entry that exists. -/
def enter? (p : Place α) (name : String) : Option (Place α) :=
  (p.node.child? name).map (p.down name)

theorem tree_up (p : Place α) : p.up.tree = p.tree := by
  obtain ⟨node, above⟩ := p
  cases above <;> rfl

theorem tree_of_enter? {p q : Place α} {name : String} (h : p.enter? name = some q) :
    q.tree = p.tree := by
  obtain ⟨entry, found, rfl⟩ := Option.map_eq_some_iff.mp h
  simp [tree, down, Tree.setChild_of_child? found]

/-- The longest name of an entry, in octets. -/
def maxNameSize : Nat := 255

/-- Follows steps from a place. Each step starts from a folder; an empty step and a dot stay there,
two dots go up, and a name goes to the entry of that name. -/
def walk (p : Place α) : List String → Except IoFailure (Place α)
  | [] => .ok p
  | step :: rest =>
    if !p.node.isFolder then .error (.system .notDirectory)
    else if step = "" || step = "." then walk p rest
    else if step = ".." then walk p.up rest
    else if maxNameSize < step.utf8ByteSize then .error (.system .nameTooLong)
    else match p.enter? step with
      | none => .error (.system .noEntry)
      | some entry => walk entry rest

end Place

namespace Tree

variable {α : Type}

/-- The place of a location. -/
def place? (t : Tree α) (location : Location) : Option (Place α) :=
  location.foldlM Place.enter? (.top t)

/-- Where a route begins. -/
def origin (t : Tree α) (home : Location) (r : Route) : Except IoFailure (Place α) :=
  if r.absolute then .ok (.top t)
  else match t.place? home with
    | none => .error (.system .noEntry)
    | some place => .ok place

/-- The place where steps lead that begin as a route does. -/
def follow (t : Tree α) (home : Location) (r : Route) (steps : List String) :
    Except IoFailure (Place α) := do
  (← t.origin home r).walk steps

/-- The longest path, in octets. -/
def maxPathSize : Nat := 4095

def hasNull (path : String) : Bool := path.toList.contains '\x00'

/-- What is wrong with the text of a path, wherever it leads. -/
def fault? (path : String) : Option IoFailure :=
  if hasNull path then some .nullInName
  else if path = "" then some (.system .noEntry)
  else if maxPathSize < path.utf8ByteSize then some (.system .nameTooLong)
  else none

/-- The place of an existing entry. -/
def find (t : Tree α) (home : Location) (path : String) : Except IoFailure (Place α) :=
  match fault? path with
  | some fault => .error fault
  | none => t.follow home (.ofPath path) (Route.ofPath path).steps

/-- The contents of the file at a path. -/
def file? (t : Tree α) (home : Location) (path : String) : Option α :=
  match t.find home path with
  | .ok place => place.node.contents?
  | .error _ => none

def isDirectory (t : Tree α) (home : Location) (path : String) : Bool :=
  match t.find home path with
  | .ok place => place.node.isFolder
  | .error _ => false

end Tree

end TimingSweep
