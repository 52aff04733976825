import TimingSweep.Drawing
import TimingSweep.Files.Creation
import TimingSweep.Process.Program

/-!
# Workspaces

The files a sweep works with: programs it starts and drawings it makes, seen from a home folder. A
`Host` adds where programs are looked up that are named without a folder.

* `Host.program_of_slash`: a program named with a folder is the file of that name.
-/

namespace TimingSweep

inductive Contents where
  | program (p : Program)
  | drawing (d : Drawing)

structure Workspace where
  tree : Tree Contents
  home : Location

namespace Workspace

def file? (w : Workspace) (path : String) : Option Contents := w.tree.file? w.home path

def isDirectory (w : Workspace) (path : String) : Bool := w.tree.isDirectory w.home path

def makeDirectories (w : Workspace) (path : String) : Except IoFailure Unit × Workspace :=
  let (result, tree) := w.tree.makeDirectories w.home path
  (result, { w with tree })

/-- Writes a drawing to a file; if that fails nothing is changed. -/
def writeDrawing (w : Workspace) (path : String) (d : Drawing) :
    Except IoFailure Unit × Workspace :=
  match w.tree.createFile w.home path (.drawing d) with
  | .ok tree => (.ok (), { w with tree })
  | .error failure => (.error failure, w)

end Workspace

/-- Files, and what a program name without a slash stands for. -/
structure Host where
  workspace : Workspace
  search : String → Except Errno Program

namespace Host

/-- The program that is started for a path. A drawing may not be executed. -/
def program (h : Host) (path : String) : Except Errno Program :=
  if path.toList.contains '/' then
    match h.workspace.file? path with
    | some (.program p) => .ok p
    | some (.drawing _) => .ok .unrunnable
    | none => .error .noEntry
  else h.search path

theorem program_of_slash {h : Host} {path : String} {p : Program}
    (slash : path.toList.contains '/' = true) (file : h.workspace.file? path = some (.program p)) :
    h.program path = .ok p := by
  simp only [program, slash, if_true, file]

end Host

end TimingSweep
