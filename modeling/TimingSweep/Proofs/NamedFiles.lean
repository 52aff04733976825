import TimingSweep.Proofs.DirectoryEntries
import TimingSweep.Proofs.Measurements

/-!
# The files that a sweep depends on

A sweep looks at the files that its executables are named for, and at nothing else, as long as its
directory has a name. In an empty directory a file is checked in the home folder, but what is
started is whatever the search finds under the bare name.

* `attempt_of_named`: in a directory with a name the file that is checked is the one that is run;
* `time_eq_of_agree`: a time depends on the file of one name;
* `run_eq_iff`: two sweeps are the same exactly if all their times are;
* `run_reads_named_files`: hosts that agree on the files of a sweep give the same sweep, exactly
  where the directory is not empty.
-/

namespace TimingSweep

/-- What is started for a file that is there. -/
def Contents.toProgram : Contents → Program
  | .program p => p
  | .drawing _ => .unrunnable

/-- Two hosts have the same files under some names in a directory. Other files, and what is found
under names without a folder, may differ. -/
def Host.AgreeOn (directory : String) (names : List String) (host host' : Host) : Prop :=
  ∀ name ∈ names, host.workspace.fileIn? directory name = host'.workspace.fileIn? directory name

/-- Two hosts find the same under some names without a folder. -/
def Host.FindAlike (names : List String) (host host' : Host) : Prop :=
  ∀ name ∈ names, host.search name = host'.search name

/-- The names of the executables of a sweep. -/
def Request.executables (r : Request) (competitors : List String) : List String :=
  (backends competitors).map (Executable.name r.algorithm)

theorem Request.isNamed_of_mem_backends {registry : Registry} {request : Request}
    (accepted : request.check = .ok ()) {backend : Option String}
    (member : backend ∈ backends (registry.eligible request)) :
    Executable.IsNamed request.algorithm backend := by
  obtain ⟨algorithm, -, labels⟩ := check_eq_ok.mp accepted
  refine ⟨algorithm, ?_⟩
  rintro label rfl
  have eligible : label ∈ registry.eligible request := by simpa [backends] using member
  exact labels label (List.mem_of_mem_filter eligible)

namespace Host

theorem program_of_file {host : Host} {path : String} {contents : Contents}
    (slash : path.toList.contains '/' = true) (file : host.workspace.file? path = some contents) :
    host.program path = .ok contents.toProgram := by
  unfold program
  rw [if_pos slash, file]
  cases contents <;> rfl

theorem program_congr {host host' : Host} {path : String}
    (files : host.workspace.file? path = host'.workspace.file? path)
    (found : path.toList.contains '/' = true ∨ host.search path = host'.search path) :
    host.program path = host'.program path := by
  unfold program
  rw [files]
  split
  · rfl
  · rename_i bare
    exact found.resolve_left bare

end Host

namespace Measurement

variable {host host' : Host} {directory : String} {call : Call}

/-- What running the file at a path comes to, if there is one. -/
def timeOfFile (path : String) (size : UInt64) (file : Option Contents) :
    Except MeasureFault Binary64 :=
  match file with
  | none => .error (.missing path)
  | some contents =>
    match contents.toProgram.start [toString size.toNat] with
    | .error number => .error (.unstarted path number)
    | .ok run => timeOfRun path run

/-- In a directory with a name, the file that is checked is the one that is run. -/
theorem attempt_of_named (named : directory ≠ "") (host : Host) (call : Call) :
    let path := Executable.path directory call.algorithm call.backend
    attempt host directory call = timeOfFile path call.size (host.workspace.file? path) := by
  intro path
  have slash := Executable.slash_mem_path named call.algorithm call.backend
  cases file : host.workspace.file? path with
  | none => rw [attempt_of_missing file, timeOfFile]
  | some contents =>
    have starts : start host path call.size =
        contents.toProgram.start [toString call.size.toNat] := by
      unfold start
      rw [Host.program_of_file slash file]
      rfl
    cases started : contents.toProgram.start [toString call.size.toNat] with
    | error number =>
      rw [attempt_of_unstarted file (starts.trans started)]
      simp only [timeOfFile, started]
      rfl
    | ok run =>
      rw [attempt_of_started file (starts.trans started)]
      simp only [timeOfFile, started]
      rfl

theorem time_congr
    (files : host.workspace.file? (Executable.path directory call.algorithm call.backend) =
      host'.workspace.file? (Executable.path directory call.algorithm call.backend))
    (programs : host.program (Executable.path directory call.algorithm call.backend) =
      host'.program (Executable.path directory call.algorithm call.backend)) :
    time host directory call = time host' directory call := by
  have starts : start host (Executable.path directory call.algorithm call.backend) call.size =
      start host' (Executable.path directory call.algorithm call.backend) call.size := by
    unfold start
    rw [programs]
  have attempts : attempt host directory call = attempt host' directory call := by
    cases file : host.workspace.file? (Executable.path directory call.algorithm call.backend) with
    | none => rw [attempt_of_missing file, attempt_of_missing (files ▸ file)]
    | some contents =>
      cases started :
          start host (Executable.path directory call.algorithm call.backend) call.size with
      | error number =>
        rw [attempt_of_unstarted file started,
          attempt_of_unstarted (files ▸ file) (starts ▸ started)]
      | ok run =>
        rw [attempt_of_started file started, attempt_of_started (files ▸ file) (starts ▸ started)]
  unfold time
  rw [attempts]

/-- A time depends on the file of one name, and in an empty directory on what is found under it. -/
theorem time_eq_of_agree (identifiers : Executable.IsNamed call.algorithm call.backend)
    (files : host.workspace.fileIn? directory (Executable.name call.algorithm call.backend) =
      host'.workspace.fileIn? directory (Executable.name call.algorithm call.backend))
    (found : directory = "" → host.search (Executable.name call.algorithm call.backend) =
      host'.search (Executable.name call.algorithm call.backend)) :
    time host directory call = time host' directory call := by
  have ordinary := Executable.isOrdinary_name identifiers
  have checked : host.workspace.file? (Executable.path directory call.algorithm call.backend) =
      host'.workspace.file? (Executable.path directory call.algorithm call.backend) := by
    rw [Executable.path, Workspace.file?_join _ _ ordinary, Workspace.file?_join _ _ ordinary,
      files]
  refine time_congr checked (Host.program_congr checked ?_)
  by_cases named : directory = ""
  · right
    have bare : Executable.path "" call.algorithm call.backend =
        Executable.name call.algorithm call.backend :=
      Path.join_empty (Executable.name_relative _ _)
    rw [named, bare]
    exact found named
  · exact Or.inl (Executable.slash_mem_path named call.algorithm call.backend)

theorem replies_congr {calls : List Call}
    (same : ∀ call ∈ calls, time host directory call = time host' directory call) :
    (source host directory).replies calls = (source host' directory).replies calls := by
  rw [replies_source, replies_source]
  exact List.map_congr_left fun call member => by rw [same call member]

/-- Two sweeps of an accepted request are the same exactly if each call takes the same time. -/
theorem run_eq_iff (registry : Registry) (generatedAt : String) (order : ParameterOrder)
    {request : Request} (accepted : request.check = .ok ()) :
    Sweep.run registry (source host directory) generatedAt order request =
        Sweep.run registry (source host' directory) generatedAt order request ↔
      ∀ call ∈ request.plan (registry.eligible request),
        time host directory call = time host' directory call := by
  rw [run_of_accepted _ _ _ _ accepted, run_of_accepted _ _ _ _ accepted]
  constructor
  · intro same call member
    have reports := Except.ok.inj (congrArg Sweep.result same)
    have samples := congrArg (fun r : Report => r.samples call.label) reports
    simp only [Request.samples_filed, replies_source, List.filter_map, List.map_map] at samples
    have held := List.map_inj_left.mp samples call
      (List.mem_filter.mpr ⟨member, decide_eq_true rfl⟩)
    exact (Sample.mk.inj held).2
  · intro same
    simp only [Request.filed, replies_congr same]

/-- Writes the same time whatever it is started with. -/
def steady : Program where
  start _ := .ok ⟨Utf8.encode "time: 1\n".toList, .ofExitCode 0⟩

/-- A home folder that holds one executable, and a search that comes to the same for every name. -/
def lodging (name : String) (found : Except Errno Program) : Host where
  workspace := ⟨.folder [(name, .file (.program steady))], []⟩
  search _ := found

theorem fileIn?_lodging (name : String) (found : Except Errno Program) :
    (lodging name found).workspace.fileIn? "" name = some (.program steady) := by
  show (List.lookup name [(name, Tree.file (Contents.program steady))]).bind Tree.contents? = _
  rw [List.lookup_cons_self]
  rfl

/-- In an empty directory the file is checked, but what the search finds is started. -/
theorem start_lodging {name : String} (ordinary : Path.IsOrdinary name)
    (found : Except Errno Program) (size : UInt64) :
    (lodging name found).workspace.file? name = some (.program steady) ∧
      start (lodging name found) name size =
        found >>= fun program => program.start [toString size.toNat] := by
  have file := Workspace.file?_join (lodging name found).workspace "" ordinary
  rw [Path.join_empty ordinary.relative, if_pos ordinary.fault?_eq_none, fileIn?_lodging] at file
  have searched : (lodging name found).program name = found := by
    simp [Host.program, ordinary.slash_free, lodging]
  refine ⟨file, ?_⟩
  unfold start
  rw [searched]

theorem time_of_lodging (identifiers : Executable.IsNamed call.algorithm call.backend) :
    time (lodging (Executable.name call.algorithm call.backend) (.ok steady)) "" call ≠
      time (lodging (Executable.name call.algorithm call.backend) (.error .noEntry)) "" call := by
  have ordinary := Executable.isOrdinary_name identifiers
  have bare : Executable.path "" call.algorithm call.backend =
      Executable.name call.algorithm call.backend := Path.join_empty (Executable.name_relative _ _)
  obtain ⟨file, started⟩ := start_lodging ordinary (.ok steady) call.size
  obtain ⟨file', unstarted⟩ := start_lodging ordinary (.error .noEntry) call.size
  rw [← bare] at file started file' unstarted
  have read : TimeLine.read (Utf8.decode (Utf8.encode "time: 1\n".toList)) =
      .ok (.ofBits 0x3ff0000000000000) := by decide +kernel
  have measured := time_of_attempt
    ((attempt_of_started file started).trans (timeOfRun_eq_ok_iff.mpr ⟨rfl, read⟩))
  have lost := time_of_fault (attempt_of_unstarted file' unstarted)
  rw [bare] at measured lost
  rw [measured, lost]
  decide

/-- In an empty directory what is found elsewhere makes a difference. -/
theorem run_lodging_ne (registry : Registry) (generatedAt : String) (order : ParameterOrder)
    {request : Request} (accepted : request.check = .ok ()) (sizes : request.sizes ≠ []) :
    let lodge := lodging (Executable.name request.algorithm none)
    Sweep.run registry (source (lodge (.ok steady)) "") generatedAt order request ≠
      Sweep.run registry (source (lodge (.error .noEntry)) "") generatedAt order request := by
  intro lodge equal
  obtain ⟨size, rest, same⟩ := List.exists_cons_of_ne_nil sizes
  let call : Call := ⟨request.algorithm, size, none⟩
  have primary : none ∈ Request.backends (registry.eligible request) := List.mem_cons_self
  have member : call ∈ request.plan (registry.eligible request) :=
    Request.mem_plan_iff.mpr ⟨rfl, same ▸ List.mem_cons_self, primary⟩
  have identifiers : Executable.IsNamed call.algorithm call.backend :=
    Request.isNamed_of_mem_backends accepted primary
  exact time_of_lodging identifiers
    ((run_eq_iff registry generatedAt order accepted).mp equal call member)

/-- A sweep depends on the files of its own executables, and in an empty directory on what is found
under their names. In a directory with a name each attempt runs the file that it has checked. Only
in an empty directory, with a size to measure, does anything else make a difference. -/
theorem run_reads_named_files (registry : Registry) (generatedAt : String)
    (order : ParameterOrder) {request : Request} (accepted : request.check = .ok ())
    (directory : String) :
    let names := request.executables (registry.eligible request)
    let sweep := fun host => Sweep.run registry (source host directory) generatedAt order request
    (∀ host host' : Host, host.AgreeOn directory names host' →
      (directory = "" → host.FindAlike names host') → sweep host = sweep host') ∧
    (directory ≠ "" → ∀ (host : Host) (call : Call),
      let path := Executable.path directory call.algorithm call.backend
      attempt host directory call = timeOfFile path call.size (host.workspace.file? path)) ∧
    ((∀ host host' : Host, host.AgreeOn directory names host' → sweep host = sweep host') ↔
      directory ≠ "" ∨ request.sizes = []) := by
  intro names sweep
  have same : ∀ host host' : Host, host.AgreeOn directory names host' →
      (directory = "" → host.FindAlike names host') → sweep host = sweep host' := by
    intro host host' files found
    refine (run_eq_iff registry generatedAt order accepted).mpr fun call member => ?_
    obtain ⟨algorithm, -, backend⟩ := Request.mem_plan_iff.mp member
    have identifiers := Request.isNamed_of_mem_backends accepted backend
    have listed : Executable.name call.algorithm call.backend ∈ names := by
      rw [algorithm]
      exact List.mem_map_of_mem backend
    rw [← algorithm] at identifiers
    exact time_eq_of_agree identifiers (files _ listed) fun empty => found empty _ listed
  refine ⟨same, fun named host call => attempt_of_named named host call, ?_⟩
  constructor
  · intro all
    by_contra neither
    obtain ⟨empty, sizes⟩ := not_or.mp neither
    have directory_empty : directory = "" := not_not.mp empty
    subst directory_empty
    exact run_lodging_ne registry generatedAt order accepted sizes (all _ _ fun _ _ => rfl)
  · rintro (named | unsized) host host' files
    · exact same host host' files fun empty => absurd empty named
    · refine (run_eq_iff registry generatedAt order accepted).mpr fun call member => ?_
      have size := (Request.mem_plan_iff.mp member).2.1
      rw [unsized] at size
      cases size

/-- The folder of `bench` with an executable that no one asked for, another of the same name in the
home folder, and a search that finds a program under every name. -/
def cluttered : Host where
  workspace := ⟨.folder [
    ("perf_sort", .file (.program steady)),
    ("bin", .folder [
      ("perf_stl_sort", .file (.program steady)),
      ("perf_sort", .file (.program fickle))])], []⟩
  search _ := .ok steady

theorem clutter_makes_no_difference :
    let request : Request := ⟨"sort", [2, 4], ["tbb"]⟩
    request.check = .ok () ∧
    Sweep.run .builtin (source bench "bin") "" .minimumFirst request =
      Sweep.run .builtin (source cluttered "bin") "" .minimumFirst request := by
  have accepted : Request.check ⟨"sort", [2, 4], ["tbb"]⟩ = .ok () := rfl
  intro request
  refine ⟨accepted, ?_⟩
  obtain ⟨same, -⟩ := run_reads_named_files .builtin "" .minimumFirst accepted "bin"
  have names : request.executables (Registry.builtin.eligible request) =
      ["perf_sort", "perf_tbb_sort"] := by decide
  refine same bench cluttered (fun name member => ?_) fun empty => absurd empty (by decide)
  rw [names, List.mem_cons, List.mem_singleton] at member
  rcases member with rfl | rfl <;> rfl

/-- With an empty directory the same files give two sweeps. -/
theorem empty_directory_runs_what_is_found :
    let request : Request := ⟨"sort", [2], []⟩
    let found := lodging "perf_sort" (.ok steady)
    let lost := lodging "perf_sort" (.error .noEntry)
    request.check = .ok () ∧ found.workspace = lost.workspace ∧
      Sweep.run .builtin (source found "") "" .minimumFirst request ≠
        Sweep.run .builtin (source lost "") "" .minimumFirst request := by
  have accepted : Request.check ⟨"sort", [2], []⟩ = .ok () := rfl
  have name : Executable.name "sort" none = "perf_sort" := by decide
  have different := run_lodging_ne .builtin "" .minimumFirst accepted (by decide)
  simp only [name] at different
  exact ⟨accepted, rfl, different⟩

end Measurement

end TimingSweep
