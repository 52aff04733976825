import TimingSweep.Proofs.SingleSweeps

/-!
# Refusals

The single sweep judges its arguments, then two settings, then the request. It refuses to start if
one of them will not do, and until then it has done nothing. Once all three are accepted it
measures, and no measurement that fails ends it with a failure. Asking for help or the version is
neither: it is answered before the settings are looked at. Where the program crashes over the file
of assignments, it has done nothing either.

* `load_of_unusable`, `load_of_usable`: which settings are accepted;
* `run_refuses_iff`: what the command refuses, and that it measures otherwise;
* `refuses_before_acting`: the same, with what comes of what it does not refuse;
* `version_answered_despite_settings`: an unusable setting goes unnoticed.
-/

namespace TimingSweep

namespace Settings

/-- The values of the variables: those of an environment, and of a file of assignments for variables
that are not set there. Reading the file may crash over a variable. -/
def values (environment : Environment) (file : Option (List UInt8)) :
    Except String (String → Option String) :=
  (Assignments.read environment.text (file.getD [])).map (Assignments.valueOf environment.text)

/-- A variable has a value that is no dimension. -/
def IsUnusable (value : String → Option String) (name : String) : Prop :=
  ∃ text, value name = some text ∧ readDimension? text = none

variable {value : String → Option String} {name : String}

theorem dimension_of_unusable (h : IsUnusable value name) (standard : UInt32) :
    dimension value name standard = .error ⟨name⟩ := by
  obtain ⟨text, given, unread⟩ := h
  simp [dimension, given, unread]

theorem dimension_of_usable (h : ¬ IsUnusable value name) (standard : UInt32) :
    ∃ n, dimension value name standard = .ok n := by
  unfold dimension
  cases given : value name with
  | none => exact ⟨_, rfl⟩
  | some text =>
    cases read : readDimension? text with
    | none => exact absurd ⟨text, given, read⟩ h
    | some n => exact ⟨n, by simp [read]⟩

variable {environment : Environment} {file : Option (List UInt8)}

theorem load_eq_values : load environment file =
    (values environment file).mapError .crash >>= fun value =>
      (ofValues value).mapError .unusable := by
  unfold load values
  cases Assignments.read environment.text (file.getD []) <;> rfl

theorem load_of_values (read : values environment file = .ok value) :
    load environment file = (ofValues value).mapError .unusable := by
  rw [load_eq_values, read]
  rfl

theorem load_of_crash (crashed : values environment file = .error name) :
    load environment file = .error (.crash name) := by
  rw [load_eq_values, crashed]
  rfl

theorem load_of_unusable (read : values environment file = .ok value)
    (unusable : IsUnusable value widthVariable ∨ IsUnusable value heightVariable) :
    ∃ fault, load environment file = .error (.unusable fault) := by
  rw [load_of_values read]
  by_cases width : IsUnusable value widthVariable
  · exact ⟨_, by rw [ofValues_of_width (dimension_of_unusable width _)]; rfl⟩
  · obtain ⟨n, widthRead⟩ := dimension_of_usable width defaultWidth
    have unread := dimension_of_unusable (unusable.resolve_left width) defaultHeight
    exact ⟨_, by simp [ofValues, widthRead, unread, bind, Except.bind]; rfl⟩

theorem load_of_usable (read : values environment file = .ok value)
    (width : ¬ IsUnusable value widthVariable) (height : ¬ IsUnusable value heightVariable) :
    ∃ settings, load environment file = .ok settings := by
  rw [load_of_values read]
  obtain ⟨w, widthRead⟩ := dimension_of_usable width defaultWidth
  obtain ⟨h, heightRead⟩ := dimension_of_usable height defaultHeight
  exact ⟨_, by simp [ofValues, widthRead, heightRead, bind, Except.bind, pure, Except.pure]; rfl⟩

end Settings

/-- A command has ended with a failure and has done nothing but to say so. -/
structure Outcome.IsRefusal (o : Outcome) (before : Workspace) : Prop where
  failed : o.exitCode ≠ 0
  silent : o.output = []
  unmeasured : o.calls = []
  unchanged : o.workspace = before

namespace SingleSweep

variable {i : Invocation} {arguments : Arguments}

/-- What the command does not accept. To ask for help or the version is no fault of arguments. -/
inductive Objects (i : Invocation) : Prop
  | arguments {fault : ArgumentFault} (read : Arguments.read i.arguments = .error fault)
      (help : fault ≠ .helpAsked) (version : fault ≠ .versionAsked)
  | setting {arguments : Arguments} (read : Arguments.read i.arguments = .ok arguments)
      {value : String → Option String}
      (values : Settings.values i.environment i.assignments = .ok value)
      (unusable : Settings.IsUnusable value Settings.widthVariable ∨
        Settings.IsUnusable value Settings.heightVariable)
  | request {arguments : Arguments} (read : Arguments.read i.arguments = .ok arguments)
      (check : arguments.request.check ≠ .ok ())

/-- The arguments are accepted, and reading the file of assignments crashes the program. -/
def Crashes (i : Invocation) : Prop :=
  (∃ arguments, Arguments.read i.arguments = .ok arguments) ∧
    ∃ name, Settings.values i.environment i.assignments = .error name

theorem isRefusal_stop (message : String) (before : Workspace) :
    (Outcome.stop message [] before []).IsRefusal before :=
  ⟨Nat.one_ne_zero, rfl, rfl, rfl⟩

theorem isRefusal_crash (before : Workspace) : (Outcome.crash before).IsRefusal before :=
  ⟨show Outcome.crashCode ≠ 0 by decide, rfl, rfl, rfl⟩

theorem isRefusal_unloaded (fault : Settings.LoadFault) (before : Workspace) :
    (Outcome.unloaded fault before).IsRefusal before := by
  cases fault with
  | unusable fault => exact isRefusal_stop ..
  | crash name => exact isRefusal_crash before

theorem isRefusal_decline {fault : ArgumentFault} (help : fault ≠ .helpAsked)
    (version : fault ≠ .versionAsked) : (decline i fault).IsRefusal i.host.workspace := by
  have failed : usageCode ≠ 0 := by decide
  cases fault with
  | helpAsked => exact absurd rfl help
  | versionAsked => exact absurd rfl version
  | unknownArgument | conflict | missingValue | invalidValue | unexpectedValue =>
    exact ⟨failed, rfl, rfl, rfl⟩

/-- A request that is not accepted is not measured. -/
theorem isRefusal_perform (check : arguments.request.check ≠ .ok ()) (settings : Settings) :
    (perform i arguments settings).IsRefusal i.host.workspace := by
  have refused : ∃ reason, sweep i arguments settings = ⟨[], .error (.refused reason)⟩ := by
    unfold sweep Sweep.run
    cases judged : arguments.request.check with
    | error objection => exact ⟨_, by rw [Request.ensureValid_of_error i.order judged]⟩
    | ok _ => exact absurd judged check
  obtain ⟨reason, refused⟩ := refused
  unfold perform
  rw [refused]
  exact isRefusal_stop ..

/-- An accepted request is measured, and comes to a report. -/
theorem sweep_of_accepted (check : arguments.request.check = .ok ()) (settings : Settings) :
    (sweep i arguments settings).calls ≠ [] ∧
      ∃ report, (sweep i arguments settings).result = .ok report := by
  rw [sweep, run_of_accepted _ _ _ _ check]
  refine ⟨?_, _, rfl⟩
  apply List.ne_nil_of_length_pos
  rw [Request.length_plan]
  have sizes : 0 < arguments.request.sizes.length :=
    List.length_pos_iff.mpr arguments.sizes_ne_nil
  exact Nat.mul_pos sizes (by omega)

/-- A sink without limit takes up text and JSON whole. -/
theorem present_whole (p : Presenter) (report : Report) (competitors : List String)
    (workspace : Workspace) {mode : Mode} (written : mode = .text ∨ mode = .json) :
    (p.present report mode competitors .unlimited workspace).result = .ok none := by
  rcases written with rfl | rfl <;> rfl

theorem perform_of_written (check : arguments.request.check = .ok ()) (settings : Settings)
    (written : arguments.mode = .text ∨ arguments.mode = .json) :
    (perform i arguments settings).exitCode = 0 := by
  obtain ⟨-, report, ok⟩ := sweep_of_accepted (i := i) check settings
  unfold perform
  simp only [ok, present_whole _ report _ _ written]
  rfl

/-- Without an objection or a crash the request is accepted and the settings can be loaded. -/
theorem exists_of_not_objects (read : Arguments.read i.arguments = .ok arguments)
    (accepts : ¬ Objects i) (survives : ¬ Crashes i) : arguments.request.check = .ok () ∧
      ∃ settings, Settings.load i.environment i.assignments = .ok settings := by
  constructor
  · exact Classical.byContradiction fun refused => accepts (.request read refused)
  · cases values : Settings.values i.environment i.assignments with
    | error name => exact absurd ⟨⟨arguments, read⟩, name, values⟩ survives
    | ok value =>
      apply Settings.load_of_usable values
      · exact fun unusable => accepts (.setting read values (Or.inl unusable))
      · exact fun unusable => accepts (.setting read values (Or.inr unusable))

theorem measures_of_not_objects (read : Arguments.read i.arguments = .ok arguments)
    (accepts : ¬ Objects i) (survives : ¬ Crashes i) : (run i).calls ≠ [] := by
  obtain ⟨check, settings, loaded⟩ := exists_of_not_objects read accepts survives
  rw [calls_of_run read loaded]
  exact (sweep_of_accepted check settings).1

theorem isRefusal_of_objects (objects : Objects i) : (run i).IsRefusal i.host.workspace := by
  cases objects with
  | arguments read help version =>
    simp only [run, read]
    exact isRefusal_decline help version
  | setting read values unusable =>
    obtain ⟨fault, unloaded⟩ := Settings.load_of_unusable values unusable
    simp only [run, read, unloaded]
    exact isRefusal_unloaded ..
  | request read check =>
    simp only [run, read]
    split
    · exact isRefusal_unloaded ..
    · exact isRefusal_perform check _

theorem isRefusal_of_crashes (crashes : Crashes i) : (run i).IsRefusal i.host.workspace := by
  obtain ⟨⟨arguments, read⟩, name, crashed⟩ := crashes
  simp only [run, read, Settings.load_of_crash crashed]
  exact isRefusal_unloaded ..

/-- The command refuses what it objects to, does nothing if it crashes, and otherwise does more. -/
theorem run_refuses_iff (i : Invocation) :
    (run i).IsRefusal i.host.workspace ↔ Objects i ∨ Crashes i := by
  constructor
  · intro refusal
    cases read : Arguments.read i.arguments with
    | error fault =>
      have failed := refusal.failed
      simp only [run, read] at failed
      refine .inl (.arguments read ?_ ?_)
      · rintro rfl
        exact failed rfl
      · rintro rfl
        exact failed rfl
    | ok arguments =>
      apply Classical.byContradiction
      intro neither
      obtain ⟨accepts, survives⟩ := not_or.mp neither
      exact measures_of_not_objects read accepts survives refusal.unmeasured
  · rintro (objects | crashes)
    · exact isRefusal_of_objects objects
    · exact isRefusal_of_crashes crashes

/-- The command refuses rejected arguments, an unusable dimension and a request that is not
accepted: it fails, writes nothing, starts nothing and leaves all files as they are. Asking for help
or the version is answered whatever the settings are. Unless the program crashes over the file of
assignments it refuses nothing else but measures, and however the measurements turn out, text and
JSON do not end in a failure. -/
theorem refuses_before_acting (i : Invocation) :
    ((run i).IsRefusal i.host.workspace ↔ Objects i ∨ Crashes i) ∧
    (∀ fault, Arguments.read i.arguments = .error fault →
      fault = .helpAsked ∨ fault = .versionAsked →
        (run i).exitCode = 0 ∧ (run i).calls = [] ∧ (run i).workspace = i.host.workspace) ∧
    ∀ arguments, Arguments.read i.arguments = .ok arguments → ¬ Objects i → ¬ Crashes i →
      (run i).calls ≠ [] ∧
      (arguments.mode = .text ∨ arguments.mode = .json → (run i).exitCode = 0) := by
  refine ⟨run_refuses_iff i, ?_, ?_⟩
  · intro fault read asked
    simp only [run, read]
    rcases asked with rfl | rfl <;> exact ⟨rfl, rfl, rfl⟩
  · intro arguments read accepts survives
    refine ⟨measures_of_not_objects read accepts survives, fun written => ?_⟩
    obtain ⟨check, settings, loaded⟩ := exists_of_not_objects read accepts survives
    simp only [run, read, loaded]
    exact perform_of_written check settings written

/-- A start on a host without any file, with nothing but a width set. -/
def withWidth (width : String) (arguments : List String) : Invocation where
  arguments := arguments
  environment := [(Settings.widthVariable, Utf8.encode width.toList)]
  assignments := none
  host := ⟨⟨.folder [], []⟩, fun _ => .error .noEntry⟩
  now := ""
  help := []
  order := .minimumFirst

theorem values_withWidth (width : String) (arguments : List String) :
    let i := withWidth width arguments
    Settings.values i.environment i.assignments =
      .ok (Assignments.valueOf i.environment.text []) := rfl

/-- An unusable width is refused although there would have been nothing to draw. With a usable one
the same sweep is measured, and does not fail although there is no executable. -/
theorem width_refused_before_acting :
    (run (withWidth "wide" ["--sizes=2"])).IsRefusal ⟨.folder [], []⟩ ∧
    (run (withWidth " 640 " ["--sizes=2"])).calls ≠ [] ∧
    (run (withWidth " 640 " ["--sizes=2"])).exitCode = 0 := by
  have sizes : (naming Arguments.defaultCompetitors [2]).sizes = [2] := by decide +kernel
  have check : (naming Arguments.defaultCompetitors [2]).request.check = .ok () := by
    rw [Arguments.request, sizes]
    rfl
  have read : ∀ width, Arguments.read (withWidth width ["--sizes=2"]).arguments =
      .ok (naming Arguments.defaultCompetitors [2]) := fun _ => rfl
  have wide : Objects (withWidth "wide" ["--sizes=2"]) :=
    .setting (read "wide") (values_withWidth ..)
      (Or.inl ⟨"wide", by decide +kernel, by decide +kernel⟩)
  have accepts : ¬ Objects (withWidth " 640 " ["--sizes=2"]) := by
    rintro (⟨unread, -, -⟩ | ⟨-, values, unusable⟩ | ⟨given, unchecked⟩)
    · cases (read " 640 ").symm.trans unread
    · have loaded : ∃ settings, Settings.load (withWidth " 640 " ["--sizes=2"]).environment
          (withWidth " 640 " ["--sizes=2"]).assignments = .ok settings := ⟨_, rfl⟩
      obtain ⟨fault, unloaded⟩ := Settings.load_of_unusable values unusable
      obtain ⟨settings, loaded⟩ := loaded
      cases loaded.symm.trans unloaded
    · cases (read " 640 ").symm.trans given
      exact unchecked check
  have survives : ¬ Crashes (withWidth " 640 " ["--sizes=2"]) := by
    rintro ⟨-, name, crashed⟩
    cases (values_withWidth ..).symm.trans crashed
  obtain ⟨refused, -, -⟩ := refuses_before_acting (withWidth "wide" ["--sizes=2"])
  obtain ⟨-, -, measured⟩ := refuses_before_acting (withWidth " 640 " ["--sizes=2"])
  obtain ⟨calls, written⟩ := measured _ (read _) accepts survives
  exact ⟨refused.mpr (Or.inl wide), calls, written (Or.inl rfl)⟩

/-- Asked for its version, the command tells it and is done, though the width is unusable. -/
theorem version_answered_despite_settings :
    let i := withWidth "wide" ["--version"]
    (∃ value, Settings.values i.environment i.assignments = .ok value ∧
      Settings.IsUnusable value Settings.widthVariable) ∧
    (run i).exitCode = 0 ∧ (run i).output = Utf8.encode "perfsweep 0.1.0\n".toList :=
  ⟨⟨_, values_withWidth .., "wide", by decide +kernel, by decide +kernel⟩, rfl, rfl⟩

end SingleSweep

end TimingSweep
