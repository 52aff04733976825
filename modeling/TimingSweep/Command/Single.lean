import TimingSweep.Arguments
import TimingSweep.Command

/-!
# The single sweep

The command that sweeps one algorithm and shows the report. Arguments, settings and the request are
judged in this order before anything is measured. Whoever asks for help or the version gets it at
once.

* `run_of_rejected`: rejected arguments leave the files as they are and measure nothing.
-/

namespace TimingSweep.SingleSweep

/-- The exit code for arguments that are not accepted. -/
def usageCode : Nat := 2

/-- What asking for help or the version, or unusable arguments, comes to. The help is that of the
argument library. -/
def decline (invocation : Invocation) (fault : ArgumentFault) : Outcome :=
  let workspace := invocation.host.workspace
  match fault with
  | .versionAsked => .finish (Utf8.encode Arguments.versionText.toList) workspace []
  | .helpAsked => .finish invocation.help workspace []
  | _ => ⟨usageCode, [], none, workspace, []⟩

/-- The directory of the executables. That of the arguments comes before that of the settings. -/
def directory (arguments : Arguments) (settings : Settings) : String :=
  arguments.binDir.getD settings.binDir

/-- The sweep that the arguments ask for. -/
def sweep (invocation : Invocation) (arguments : Arguments) (settings : Settings) : Sweep :=
  Sweep.run .builtin (Measurement.source invocation.host (directory arguments settings))
    invocation.now invocation.order arguments.request

/-- The output directory of the arguments comes before that of the settings. -/
def presenter (arguments : Arguments) (settings : Settings) : Presenter :=
  settings.presenter (arguments.outputDir.getD settings.plotsDir) false

/-- The competitors of the arguments that take part. -/
def competitors (arguments : Arguments) : List String :=
  Registry.builtin.eligible arguments.request

/-- Measures and presents. -/
def perform (invocation : Invocation) (arguments : Arguments) (settings : Settings) : Outcome :=
  let before := invocation.host.workspace
  let sweep := sweep invocation arguments settings
  match sweep.result with
  | .error failure => .stop (Outcome.account failure) [] before sweep.calls
  | .ok report =>
    let shown := (presenter arguments settings).present report arguments.mode
      (competitors arguments) .unlimited before
    match shown.result with
    | .error failure =>
      .stop (Outcome.account failure) shown.sink.held shown.workspace sweep.calls
    | .ok _ => .finish shown.sink.held shown.workspace sweep.calls

def run (invocation : Invocation) : Outcome :=
  match Arguments.read invocation.arguments with
  | .error fault => decline invocation fault
  | .ok arguments =>
    match Settings.load invocation.environment invocation.assignments with
    | .error fault => .unloaded fault invocation.host.workspace
    | .ok settings => perform invocation arguments settings

theorem run_of_rejected {invocation : Invocation} {fault : ArgumentFault}
    (h : Arguments.read invocation.arguments = .error fault) :
    (run invocation).workspace = invocation.host.workspace ∧ (run invocation).calls = [] := by
  simp only [run, h]
  cases fault <;> exact ⟨rfl, rfl⟩

def command : Command where
  run := run
  directory? invocation := do
    let arguments ← (Arguments.read invocation.arguments).toOption
    let settings ← (Settings.load invocation.environment invocation.assignments).toOption
    pure (directory arguments settings)

end TimingSweep.SingleSweep
