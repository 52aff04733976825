import TimingSweep.Command
import TimingSweep.Sizes

/-!
# The batch report

The command that sweeps a fixed list of algorithms against one competitor and draws one time plot
for each. It takes no arguments. A plot that cannot be drawn does not keep the others from being
drawn. A sweep that fails ends it, with the plots before it drawn.

* `run_of_unloaded`: without settings the files are left as they are and nothing is measured.
-/

namespace TimingSweep.BatchReport

/-- The algorithms, in the order in which they are swept. -/
def algorithms : List String :=
  ["accumulate", "count", "inner_product", "merge", "partial_sum", "partition", "reverse", "rotate",
    "saxpy", "set_difference", "sort", "unique"]

def competitor : String := Backend.stl

/-- The exponents of the sizes. -/
def leastExponent : Nat := 10

def greatestExponent : Nat := 25

def request (algorithm : String) : Request :=
  ⟨algorithm, Sizes.powersOfTwo leastExponent greatestExponent, [competitor]⟩

/-- Sweeps one algorithm and draws its plot, after the measurements in `done`. If the sweep fails,
the files and the measurements remain. -/
def plot (invocation : Invocation) (settings : Settings) (done : Workspace × List Call)
    (algorithm : String) : Except (Failure × Workspace × List Call) (Workspace × List Call) :=
  let (workspace, calls) := done
  let request := request algorithm
  let source := Measurement.source { invocation.host with workspace } settings.binDir
  let sweep := Sweep.run .builtin source invocation.now invocation.order request
  match sweep.result with
  | .error failure => .error (failure, workspace, calls ++ sweep.calls)
  | .ok report =>
    let shown := (settings.presenter settings.plotsDir true).present report (.plot .time)
      (Registry.builtin.eligible request) .unlimited workspace
    .ok (shown.workspace, calls ++ sweep.calls)

def run (invocation : Invocation) : Outcome :=
  let before := invocation.host.workspace
  match Settings.load invocation.environment invocation.assignments with
  | .error fault => .unloaded fault before
  | .ok settings =>
    match before.makeDirectories settings.plotsDir with
    | (.error failure, workspace) => .stop failure.message [] workspace []
    | (.ok (), workspace) =>
      match algorithms.foldlM (plot invocation settings) (workspace, []) with
      | .error (failure, workspace, calls) => .stop (Outcome.account failure) [] workspace calls
      | .ok (workspace, calls) => .finish [] workspace calls

theorem run_of_unloaded {invocation : Invocation} {fault : Settings.LoadFault}
    (h : Settings.load invocation.environment invocation.assignments = .error fault) :
    (run invocation).workspace = invocation.host.workspace ∧ (run invocation).calls = [] := by
  simp only [run, h]
  cases fault <;> exact ⟨rfl, rfl⟩

def command : Command where
  run := run
  directory? invocation :=
    (Settings.load invocation.environment invocation.assignments).toOption.map (·.binDir)

end TimingSweep.BatchReport
