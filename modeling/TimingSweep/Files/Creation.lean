import TimingSweep.Files.Place

/-!
# Creating files and folders

`Tree.createFile` puts a file at a path, `Tree.makeFolder` a folder, and `Tree.makeDirectories` a
folder with all that are missing above it.

* `makeDirectories_empty`: nothing is missing at the empty path.
-/

namespace TimingSweep

namespace Place

variable {α : Type}

/-- Goes down steps from a folder and makes the folders that are missing. What was made before a
failure stays. -/
def makeSteps (p : Place α) : List String → Except IoFailure Unit × Place α
  | [] => (.ok (), p)
  | step :: rest =>
    if step = "." then makeSteps p rest
    else if step = ".." then makeSteps p.up rest
    else if maxNameSize < step.utf8ByteSize then (.error (.system .nameTooLong), p)
    else match p.enter? step with
      | none => makeSteps (p.down step .empty) rest
      | some entry =>
        if entry.node.isFolder then makeSteps entry rest
        else (.error (.system .entryExists), p)

end Place

namespace Tree

variable {α : Type}

/-- The folder in which the last step of a route is taken. -/
def parent (t : Tree α) (home : Location) (r : Route) (before : List String) :
    Except IoFailure (Place α) := do
  let place ← t.follow home r before
  if place.node.isFolder then pure place else throw (.system .notDirectory)

/-- Creates a file or replaces its contents. The path has to name it: folders, dots and a slash at
the end are refused. -/
def createFile (t : Tree α) (home : Location) (path : String) (contents : α) :
    Except IoFailure (Tree α) :=
  match fault? path, (Route.ofPath path).split? with
  | some fault, _ => .error fault
  | none, none => .error (.system .isDirectory)
  | none, some (before, last, slash) => do
    let place ← t.parent home (.ofPath path) before
    if slash || last = "." || last = ".." then throw (.system .isDirectory)
    else if Place.maxNameSize < last.utf8ByteSize then throw (.system .nameTooLong)
    else if (place.node.child? last).any isFolder then throw (.system .isDirectory)
    else pure (place.down last (.file contents)).tree

/-- Adds a folder at a route whose last step is a new name. -/
def makeFolder (t : Tree α) (home : Location) (r : Route) : Except IoFailure (Tree α) :=
  match r.split? with
  | none => .error (.system .entryExists)
  | some (before, last, _) => do
    let place ← t.parent home r before
    if last = "." || last = ".." then throw (.system .entryExists)
    else if Place.maxNameSize < last.utf8ByteSize then throw (.system .nameTooLong)
    else if (place.node.child? last).isSome then throw (.system .entryExists)
    else pure (place.down last empty).tree

/-- Makes the folders missing above the last step of a route. -/
def makeParents (t : Tree α) (home : Location) (r : Route) : Except IoFailure Unit × Tree α :=
  match t.origin home r with
  | .error failure => (.error failure, t)
  | .ok place =>
    let (result, place) := place.makeSteps r.essential.dropLast
    (result, place.tree)

/-- Makes the folder at a path; one that is there already is as good as made. -/
def ensureFolder (t : Tree α) (home : Location) (path : String) : Except IoFailure Unit × Tree α :=
  match t.makeFolder home (.ofPath path) with
  | .ok made => (.ok (), made)
  | .error failure => (if t.isDirectory home path then .ok () else .error failure, t)

/-- Makes a folder and those missing above it; the empty path names the home, which exists. What was
made before a failure stays. -/
def makeDirectories (t : Tree α) (home : Location) (path : String) :
    Except IoFailure Unit × Tree α :=
  if path = "" then (.ok (), t)
  else match fault? path with
    | some fault => (.error fault, t)
    | none =>
      match t.ensureFolder home path with
      | (.ok (), made) => (.ok (), made)
      | (.error failure, _) =>
        if failure ≠ .system .noEntry then (.error failure, t)
        else match t.makeParents home (.ofPath path) with
          | (.ok (), t) => t.ensureFolder home path
          | failed => failed

theorem makeDirectories_empty (t : Tree α) (home : Location) :
    t.makeDirectories home "" = (.ok (), t) := by
  simp [makeDirectories]

end Tree

end TimingSweep
