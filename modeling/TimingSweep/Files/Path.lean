/-!
# Paths

A path is a text with slashes. `Path.join` puts a name below a directory; a `Route` is a path cut at
its slashes.
-/

namespace TimingSweep

namespace Path

/-- A name below a directory. A slash is put between them where the directory does not bring one;
the empty directory adds nothing, and a name that begins with a slash stands for itself. -/
def join (dir name : String) : String :=
  if name.toList.head? = some '/' then name
  else match dir.toList.getLast? with
    | none => name
    | some last => if last = '/' then dir ++ name else dir ++ "/" ++ name

end Path

/-- A path cut at its slashes; `absolute` if it begins with one, which is then not counted. A step
may be empty, where slashes meet or end the path. -/
structure Route where
  absolute : Bool
  steps : List String
  deriving DecidableEq

namespace Route

def ofPath (path : String) : Route :=
  match path.toList with
  | '/' :: rest => ⟨true, (rest.splitOn '/').map String.ofList⟩
  | text => ⟨false, (text.splitOn '/').map String.ofList⟩

/-- The steps without empty ones and without dots, except for a dot at the beginning of a relative
path. -/
def essential (r : Route) : List String :=
  let moves := fun step : String => step ≠ "" && step ≠ "."
  match r.absolute, r.steps with
  | false, "." :: rest => "." :: rest.filter moves
  | _, steps => steps.filter moves

/-- The steps before the last and the last one, slashes at the end not counted; and whether there
are any. The root has no last step. -/
def split? (r : Route) : Option (List String × String × Bool) :=
  match r.steps.reverse.dropWhile (· = "") with
  | [] => none
  | last :: before => some (before.reverse, last, r.steps.getLast? = some "")

end Route

end TimingSweep
