import Mathlib.Data.List.Forall2
import TimingSweep.Measurement
import TimingSweep.Proofs.Order
import TimingSweep.Proofs.Replies
import TimingSweep.Proofs.TimeLines

/-!
# Measurements that fail and measurements that succeed

An executable `Reports` a time if it can be started, leaves with code zero and writes the time on
its last time line. Every other outcome is one and the same to a sweep: a time of zero.

* `attempt_eq_ok_iff`: an attempt gives a time exactly if the executable reports it;
* `sample_tells`: what a single sample says of the executable of its call;
* `sweep_degrades_at_most`: no failing measurement stops, shifts or changes the others.
-/

namespace TimingSweep

theorem WaitStatus.isSuccess_iff {s : WaitStatus} : s.isSuccess = true ↔ s = ofExitCode 0 := by
  obtain ⟨word⟩ := s
  simp [isSuccess, ofExitCode]

theorem Executable.slash_mem_path {directory : String} (named : directory ≠ "")
    (algorithm : String) (backend : Option String) :
    (path directory algorithm backend).toList.contains '/' = true := by
  have begins : (name algorithm backend).toList.head? = some 'p' := by
    cases backend <;> simp [name, nameStart]
  rw [List.contains_iff_mem]
  unfold path Path.join
  rw [begins, if_neg (by decide)]
  split
  · rename_i empty
    exact absurd (by simpa using empty) named
  · rename_i last ends
    have member : last ∈ directory.toList := List.mem_of_getLast? ends
    split
    · rename_i slash
      rw [String.toList_append, List.mem_append]
      exact Or.inl (slash ▸ member)
    · simp

namespace Measurement

variable {host : Host} {directory : String} {call : Call} {elapsed : Binary64}

/-- The executable of a call is a file that starts with the size as its only argument, leaves with
code zero, and writes `elapsed` behind the mark of its last time line. -/
def Reports (host : Host) (directory : String) (call : Call) (elapsed : Binary64) : Prop :=
  ∃ program run rest,
    host.workspace.file? (Executable.path directory call.algorithm call.backend) =
      some (.program program) ∧
    program.start [toString call.size.toNat] = .ok run ∧
    run.status = .ofExitCode 0 ∧
    TimeLine.IsLast (Utf8.decode run.output) rest ∧
    Decimal.Denotes (firstWord rest) elapsed

/-- The executable reports a finite time above zero. -/
def Succeeds (host : Host) (directory : String) (call : Call) (elapsed : Binary64) : Prop :=
  Reports host directory call elapsed ∧ elapsed.isFinite = true ∧
    Binary64.lt .zero elapsed = true

theorem start_eq_ok_iff {path : String} {size : UInt64} {run : Run}
    (slash : path.toList.contains '/' = true) :
    start host path size = .ok run ↔
      ∃ program, host.workspace.file? path = some (.program program) ∧
        program.start [toString size.toNat] = .ok run := by
  unfold start
  cases file : host.workspace.file? path with
  | none =>
    have absent : host.program path = .error .noEntry := by
      simp only [Host.program, slash, file, if_true]
    simp [absent, bind, Except.bind]
  | some contents =>
    cases contents with
    | program program =>
      rw [Host.program_of_slash slash file]
      simp [bind, Except.bind]
    | drawing d =>
      have refused : host.program path = .ok .unrunnable := by
        simp only [Host.program, slash, file, if_true]
      simp [refused, Program.unrunnable, bind, Except.bind]

theorem timeOfRun_eq_ok_iff {path : String} {run : Run} :
    timeOfRun path run = .ok elapsed ↔
      run.status = .ofExitCode 0 ∧ TimeLine.read (Utf8.decode run.output) = .ok elapsed := by
  unfold timeOfRun
  rw [← WaitStatus.isSuccess_iff]
  split
  · rename_i success
    cases read : TimeLine.read (Utf8.decode run.output) <;> simp [success, Except.mapError]
  · rename_i failure
    simp [failure]

theorem attempt_eq_ok_iff (named : directory ≠ "") :
    attempt host directory call = .ok elapsed ↔ Reports host directory call elapsed ∧
      elapsed.isFinite = true ∧ Binary64.le .zero elapsed = true := by
  have slash := Executable.slash_mem_path named call.algorithm call.backend
  let path := Executable.path directory call.algorithm call.backend
  constructor
  · intro given
    cases file : host.workspace.file? path with
    | none =>
      rw [attempt_of_missing file] at given
      cases given
    | some contents =>
      cases started : start host path call.size with
      | error number =>
        rw [attempt_of_unstarted file started] at given
        cases given
      | ok run =>
        rw [attempt_of_started file started] at given
        obtain ⟨program, file, started⟩ := (start_eq_ok_iff slash).mp started
        obtain ⟨success, read⟩ := timeOfRun_eq_ok_iff.mp given
        obtain ⟨⟨rest, isLast, denotes⟩, bounds⟩ := TimeLine.read_eq_ok_iff.mp read
        exact ⟨⟨program, run, rest, file, started, success, isLast, denotes⟩, bounds⟩
  · rintro ⟨⟨program, run, rest, file, started, success, isLast, denotes⟩, bounds⟩
    have read := TimeLine.read_eq_ok_iff.mpr ⟨⟨rest, isLast, denotes⟩, bounds⟩
    have ran := (start_eq_ok_iff slash).mpr ⟨program, file, started⟩
    rw [attempt_of_started file ran]
    exact timeOfRun_eq_ok_iff.mpr ⟨success, read⟩

theorem attempt_of_succeeds (named : directory ≠ "") (h : Succeeds host directory call elapsed) :
    attempt host directory call = .ok elapsed :=
  (attempt_eq_ok_iff named).mpr ⟨h.1, h.2.1, Binary64.zero_le_of_zero_lt h.2.2⟩

theorem time_bounds (named : directory ≠ "") :
    (time host directory call).isFinite = true ∧
      Binary64.le .zero (time host directory call) = true := by
  cases outcome : attempt host directory call with
  | error fault =>
    rw [time_of_fault outcome]
    exact ⟨rfl, rfl⟩
  | ok elapsed =>
    rw [time_of_attempt outcome]
    exact ((attempt_eq_ok_iff named).mp outcome).2

theorem succeeds_of_above (named : directory ≠ "")
    (above : Binary64.lt .zero (time host directory call) = true) :
    Succeeds host directory call (time host directory call) := by
  cases outcome : attempt host directory call with
  | error fault =>
    rw [time_of_fault outcome] at above
    exact absurd above (by decide)
  | ok elapsed =>
    rw [time_of_attempt outcome] at above ⊢
    obtain ⟨reports, finite, -⟩ := (attempt_eq_ok_iff named).mp outcome
    exact ⟨reports, finite, above⟩

/-- What a sample says of the executable of the call that it was taken for. -/
structure Tells (host : Host) (directory : String) (call : Call) (s : Sample) : Prop where
  size_eq : s.size = call.size
  finite : s.elapsed.isFinite = true
  from_zero : Binary64.le .zero s.elapsed = true
  valid_iff : s.isValid = true ↔ ∃ elapsed, Succeeds host directory call elapsed
  elapsed_eq : ∀ elapsed, Succeeds host directory call elapsed → s.elapsed = elapsed
  otherwise : (¬ ∃ elapsed, Succeeds host directory call elapsed) → s.elapsed.isZero = true

theorem sample_tells (named : directory ≠ "") (host : Host) (call : Call) :
    Tells host directory call ⟨call.size, time host directory call⟩ := by
  obtain ⟨finite, from_zero⟩ : (time host directory call).isFinite = true ∧
      Binary64.le .zero (time host directory call) = true := time_bounds named
  have measured : ∀ elapsed, Succeeds host directory call elapsed →
      time host directory call = elapsed := fun elapsed h =>
    time_of_attempt (attempt_of_succeeds named h)
  refine ⟨rfl, finite, from_zero, ?_, measured, ?_⟩
  · rw [Sample.isValid_iff]
    constructor
    · rintro ⟨-, above⟩
      exact ⟨_, succeeds_of_above named above⟩
    · rintro ⟨elapsed, h⟩
      rw [measured elapsed h]
      exact h.2
  · intro fails
    apply Binary64.isZero_of_le_of_not_lt from_zero
    rw [← Bool.not_eq_true]
    exact fun above => fails ⟨_, succeeds_of_above named above⟩

theorem replies_source (host : Host) (directory : String) (calls : List Call) :
    (source host directory).replies calls =
      calls.map fun call => ⟨call, time host directory call⟩ := by
  rw [TimingSource.replies, List.mapIdx_eq_zipIdx_map]
  apply List.ext_getElem
  · simp
  · intro i _ _
    simp [source]

/-- A sweep of an accepted request comes to its report whatever the executables do, with a sample
for every call. The samples under a label are, one by one, those of the calls under it: valid with
the time reported where the executable succeeds, and zero where it does not. -/
theorem sweep_degrades_at_most (registry : Registry) (host : Host) {directory : String}
    (named : directory ≠ "") (generatedAt : String) (order : ParameterOrder) {request : Request}
    (accepted : request.check = .ok ()) :
    let competitors := registry.eligible request
    ∃ report, (Sweep.run registry (source host directory) generatedAt order request).result =
        .ok report ∧
      report.sampleCount = request.sizes.length * (1 + competitors.length) ∧
      ∀ label, List.Forall₂ (Tells host directory)
        ((request.plan competitors).filter (·.label = label)) (report.samples label) := by
  intro competitors
  have run := run_of_accepted registry (source host directory) generatedAt order accepted
  refine ⟨_, congrArg Sweep.result run, Request.sampleCount_filed .., ?_⟩
  intro label
  rw [Request.samples_filed, replies_source, List.filter_map, List.map_map,
    List.forall₂_map_right_iff]
  apply List.forall₂_same.mpr
  intro call _
  exact sample_tells named host call

/-- Writes a time whatever the size, and leaves with code zero for one size only. -/
def fickle : Program where
  start arguments :=
    .ok ⟨Utf8.encode "time: 2.5 ms\n".toList, .ofExitCode (if arguments = ["4"] then 0 else 1)⟩

/-- A folder with one executable, of the primary implementation of `sort`. -/
def bench : Host where
  workspace := ⟨.folder [("bin", .folder [("perf_sort", .file (.program fickle))])], []⟩
  search _ := .error .noEntry

theorem fickle_succeeds :
    Succeeds bench "bin" ⟨"sort", 4, none⟩ (.ofBits 0x4004000000000000) := by
  refine ⟨⟨fickle, _, " 2.5 ms".toList, rfl, rfl, rfl, ?_, ?_⟩, rfl, rfl⟩
  · exact ⟨[], [[]], by decide +kernel, by decide⟩
  · exact ⟨false, ⟨25, -1⟩, by decide +kernel, by decide +kernel⟩

theorem fickle_fails (elapsed : Binary64) : ¬ Succeeds bench "bin" ⟨"sort", 2, none⟩ elapsed := by
  rintro ⟨⟨program, run, rest, file, started, success, -⟩, -⟩
  have same : fickle = program := Contents.program.inj (Option.some.inj file)
  subst same
  cases started
  exact absurd success (by decide)

/-- The first measurement fails after its program has written a time; the second counts all the
same, and a competitor that has no executable has its samples too. -/
theorem fickle_sweep_degrades_at_most :
    let request : Request := ⟨"sort", [2, 4], ["tbb"]⟩
    "bin" ≠ "" ∧ request.check = .ok () ∧
    ∃ report, (Sweep.run .builtin (source bench "bin") "" .minimumFirst request).result =
        .ok report ∧
      report.sampleCount = 4 ∧
      ∃ first second, report.samples "compute" = [first, second] ∧
        first.isValid = false ∧ second = ⟨4, .ofBits 0x4004000000000000⟩ := by
  have accepted : Request.check ⟨"sort", [2, 4], ["tbb"]⟩ = .ok () := rfl
  intro request
  obtain ⟨report, ok, count, told⟩ :=
    sweep_degrades_at_most .builtin bench (show "bin" ≠ "" by decide) "" .minimumFirst accepted
  refine ⟨by decide, accepted, report, ok, count, ?_⟩
  have planned : (request.plan (Registry.builtin.eligible request)).filter
      (·.label = "compute") = [⟨"sort", 2, none⟩, ⟨"sort", 4, none⟩] := by decide
  have primary := told "compute"
  rw [planned] at primary
  obtain ⟨first, rest, failing, others, held⟩ := List.forall₂_cons_left_iff.mp primary
  obtain ⟨second, rest, working, last, rfl⟩ := List.forall₂_cons_left_iff.mp others
  rw [List.forall₂_nil_left_iff.mp last] at held
  refine ⟨first, second, held, ?_, ?_⟩
  · rw [← Bool.not_eq_true, failing.valid_iff]
    rintro ⟨elapsed, h⟩
    exact fickle_fails elapsed h
  · rw [← working.elapsed_eq _ fickle_succeeds]
    exact congrArg (Sample.mk · _) working.size_eq

end Measurement

end TimingSweep
