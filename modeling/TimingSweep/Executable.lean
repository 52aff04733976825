import TimingSweep.Files.Path

/-!
# Executables

The executable of a measurement is named for its algorithm and, for a competitor, its backend, and
lies in one directory with the others.
-/

namespace TimingSweep.Executable

def nameStart : String := "perf"

def name (algorithm : String) (backend : Option String) : String :=
  match backend with
  | none => nameStart ++ "_" ++ algorithm
  | some backend => nameStart ++ "_" ++ backend ++ "_" ++ algorithm

def path (directory algorithm : String) (backend : Option String) : String :=
  Path.join directory (name algorithm backend)

end TimingSweep.Executable
