import TimingSweep.Command.Batch
import TimingSweep.Proofs.ContainedPaths
import TimingSweep.Proofs.DrawnSamples
import TimingSweep.Proofs.MadeDirectories
import TimingSweep.Proofs.NamedFiles
import TimingSweep.Proofs.WritablePaths

/-!
# The plots of a batch report

Each algorithm of the batch report has executables and a plot of its own. What the algorithms before
it have drawn is found under other names, keeps no path from being written to, and leaves the
directories where they were. So every algorithm finds its part of the files as it was at first.

* `Workspace.DrawnOver`: the same workspace but for the files of some names;
* `plot_drawnOver`, `foldlM_plot`: one algorithm draws over the name of its plot, and all over all
  these names;
* `drawing_congr`: a drawing depends on the files of the executables of its algorithm;
* `algorithms_stay_apart`: what the batch report comes to, and that two of them with the same
  executables of an algorithm draw the same plot of it.
-/

namespace TimingSweep

/-! ## Drawing over names -/

/-- A workspace after drawings under some names. Directories are where they were, the same paths can
be written to, and what is found under other names is the same. -/
structure Workspace.DrawnOver (names : List String) (w drawn : Workspace) : Prop where
  isDirectory_of : ∀ path, w.isDirectory path = true → drawn.isDirectory path = true
  canWrite_iff : ∀ path, drawn.CanWrite path ↔ w.CanWrite path
  file?_join_eq : ∀ directory name, Path.IsOrdinary name → name ∉ names →
    drawn.file? (Path.join directory name) = w.file? (Path.join directory name)

namespace Workspace

variable {w drawn further : Workspace} {names more : List String}

theorem DrawnOver.refl (names : List String) (w : Workspace) : w.DrawnOver names w :=
  ⟨fun _ found => found, fun _ => Iff.rfl, fun _ _ _ _ => rfl⟩

theorem DrawnOver.trans (first : w.DrawnOver names drawn) (second : drawn.DrawnOver more further) :
    w.DrawnOver (names ++ more) further where
  isDirectory_of path found := second.isDirectory_of path (first.isDirectory_of path found)
  canWrite_iff path := (second.canWrite_iff path).trans (first.canWrite_iff path)
  file?_join_eq directory name ordinary other := by
    obtain ⟨old, new⟩ := not_or.mp (mt List.mem_append.mpr other)
    exact (second.file?_join_eq directory name ordinary new).trans
      (first.file?_join_eq directory name ordinary old)

/-- Writing a drawing, whether it succeeds or not, draws over the one name. -/
theorem drawnOver_writeDrawing (w : Workspace) (directory : String) {name : String}
    (ordinary : Path.IsOrdinary name) (d : Drawing) :
    w.DrawnOver [name] (w.writeDrawing (Path.join directory name) d).2 := by
  by_cases can : w.CanWrite (Path.join directory name)
  · obtain ⟨written, h⟩ := can d
    obtain ⟨created, home⟩ := createFile_of_writeDrawing h
    obtain ⟨-, l, last, -, adds, -⟩ := Tree.addsFile_of_createFile created
    rw [h]
    refine ⟨fun path found => ?_, fun path => ?_, fun other name' ordinary' differ => ?_⟩
    · rw [isDirectory, home]
      exact adds.keeps.isDirectory found
    · rw [canWrite_iff, canWrite_iff, home, adds.canCreate_iff]
    · exact file?_of_writeDrawing_elsewhere ordinary ordinary' (by simpa using differ) h
  · obtain ⟨failure, h⟩ := writeDrawing_of_not_canWrite can d
    rw [h]
    exact .refl _ _

/-- What is found at a path after a drawing was to be written there: the drawing if the path can be
written to, and nothing otherwise. -/
structure AfterWriting (w : Workspace) (path : String) (d : Drawing) (found : Option Contents) :
    Prop where
  written : w.CanWrite path → found = some (.drawing d)
  failed : ¬ w.CanWrite path → found = none

theorem afterWriting_writeDrawing (w : Workspace) (directory : String) {name : String}
    (ordinary : Path.IsOrdinary name) (d : Drawing) :
    w.AfterWriting (Path.join directory name) d
      ((w.writeDrawing (Path.join directory name) d).2.file? (Path.join directory name)) where
  written can := by
    obtain ⟨written, h⟩ := can d
    rw [h]
    exact file?_of_writeDrawing h
  failed cannot := by
    obtain ⟨failure, h⟩ := writeDrawing_of_not_canWrite cannot d
    rw [h]
    exact file?_of_not_canWrite ordinary cannot

/-- Where the same drawing is written or fails, the same is found. -/
theorem AfterWriting.eq {path : String} {d : Drawing} {found found' : Option Contents}
    (first : w.AfterWriting path d found) (second : drawn.AfterWriting path d found')
    (alike : w.CanWrite path ↔ drawn.CanWrite path) : found = found' := by
  by_cases can : w.CanWrite path
  · rw [first.written can, second.written (alike.mp can)]
  · rw [first.failed can, second.failed (mt alike.mpr can)]

end Workspace

/-- An executable has no point in its name. -/
theorem Executable.name_ne_plotName {algorithm : String} {backend : Option String}
    (named : IsNamed algorithm backend) (other : String) (quantity : Quantity) :
    name algorithm backend ≠ Presenter.plotName other quantity := by
  intro same
  have point : '.' ∈ (name algorithm backend).toList := by
    rw [same, Presenter.plotName_eq, String.toList_append, List.mem_append]
    right
    cases quantity <;> decide
  exact absurd (allows_of_mem_name named '.' point) (by decide)

namespace BatchReport

variable {i j : Invocation} {settings : Settings} {w w' drawn : Workspace} {algorithm : String}

/-! ## One algorithm -/

/-- The competitors that take part: the one of the batch report, or none. -/
def competitors (algorithm : String) : List String := Registry.builtin.eligible (request algorithm)

/-- The sweep of an algorithm in a workspace. -/
def sweep (i : Invocation) (settings : Settings) (w : Workspace) (algorithm : String) : Sweep :=
  Sweep.run .builtin (Measurement.source { i.host with workspace := w } settings.binDir) i.now
    i.order (request algorithm)

def presenter (settings : Settings) : Presenter := settings.presenter settings.plotsDir true

/-- The path of the plot of an algorithm. -/
def plotPath (settings : Settings) (algorithm : String) : String :=
  (presenter settings).plotPath algorithm .time

/-- The plot of a report. -/
def drawingOf (settings : Settings) (report : Report) (algorithm : String) : Drawing :=
  .of settings.width settings.height
    ((presenter settings).chart report .time (competitors algorithm))

/-- The report of an algorithm in a workspace. -/
def reportOf (i : Invocation) (settings : Settings) (w : Workspace) (algorithm : String) : Report :=
  (request algorithm).filed (Measurement.source { i.host with workspace := w } settings.binDir)
    i.now (competitors algorithm)

theorem sweep_of_accepted (i : Invocation) (settings : Settings) (w : Workspace)
    (accepted : (request algorithm).check = .ok ()) :
    sweep i settings w algorithm = ⟨(request algorithm).plan (competitors algorithm),
      .ok (reportOf i settings w algorithm)⟩ :=
  run_of_accepted _ _ _ _ accepted

theorem algorithm_reportOf (i : Invocation) (settings : Settings) (w : Workspace)
    (algorithm : String) : (reportOf i settings w algorithm).algorithm = algorithm :=
  Report.algorithm_addAll ..

theorem isOrdinary_plotName (accepted : (request algorithm).check = .ok ()) :
    Path.IsOrdinary (Presenter.plotName algorithm .time) :=
  Presenter.isOrdinary_plotName (Request.check_eq_ok.mp accepted).1 .time

/-- Once the directory is there, an algorithm is swept and its plot is written if it can be. -/
theorem plot_of_accepted (i : Invocation) (accepted : (request algorithm).check = .ok ())
    (ready : settings.plotsDir = "" ∨ w.isDirectory settings.plotsDir = true) (calls : List Call) :
    plot i settings (w, calls) algorithm = .ok
      ((w.writeDrawing (plotPath settings algorithm)
        (drawingOf settings (reportOf i settings w algorithm) algorithm)).2,
      calls ++ (request algorithm).plan (competitors algorithm)) := by
  have swept := sweep_of_accepted i settings w accepted
  have directory := Workspace.makeDirectories_of_isDirectory ready
  unfold sweep at swept
  simp only [plot, swept, Presenter.present, Settings.presenter, Presenter.drawPlot, directory,
    algorithm_reportOf]
  rfl

/-- One algorithm makes the calls of its plan, draws over the name of its plot and over no other,
and does not fail. -/
theorem plot_drawnOver (i : Invocation) (accepted : (request algorithm).check = .ok ())
    (ready : settings.plotsDir = "" ∨ w.isDirectory settings.plotsDir = true) (calls : List Call) :
    ∃ drawn, plot i settings (w, calls) algorithm =
        .ok (drawn, calls ++ (request algorithm).plan (competitors algorithm)) ∧
      w.DrawnOver [Presenter.plotName algorithm .time] drawn ∧
      w.AfterWriting (plotPath settings algorithm)
        (drawingOf settings (reportOf i settings w algorithm) algorithm)
        (drawn.file? (plotPath settings algorithm)) :=
  ⟨_, plot_of_accepted i accepted ready calls,
    w.drawnOver_writeDrawing settings.plotsDir (isOrdinary_plotName accepted) _,
    w.afterWriting_writeDrawing settings.plotsDir (isOrdinary_plotName accepted) _⟩

/-- A drawing depends on the files of the executables of its algorithm and on nothing else. -/
theorem drawing_congr (i j : Invocation) (named : settings.binDir ≠ "")
    (files : ∀ backend ∈ Request.backends (competitors algorithm),
      w.file? (Executable.path settings.binDir algorithm backend) =
        w'.file? (Executable.path settings.binDir algorithm backend)) :
    drawingOf settings (reportOf i settings w algorithm) algorithm =
      drawingOf settings (reportOf j settings w' algorithm) algorithm := by
  have replies : (Measurement.source { i.host with workspace := w } settings.binDir).replies
      ((request algorithm).plan (competitors algorithm)) =
      (Measurement.source { j.host with workspace := w' } settings.binDir).replies
        ((request algorithm).plan (competitors algorithm)) := by
    refine Measurement.replies_congr fun call member => ?_
    obtain ⟨own, -, backend⟩ := Request.mem_plan_iff.mp member
    have file := files call.backend backend
    have called : (request algorithm).algorithm = algorithm := rfl
    rw [← called, ← own] at file
    have slash := Executable.slash_mem_path named call.algorithm call.backend
    exact Measurement.time_congr file (Host.program_congr file (Or.inl slash))
  have samples : ∀ backend, (reportOf i settings w algorithm).samples backend =
      (reportOf j settings w' algorithm).samples backend := fun backend => by
    simp only [reportOf, Request.samples_filed, replies]
  have algorithms : (reportOf i settings w algorithm).algorithm =
      (reportOf j settings w' algorithm).algorithm := by
    rw [algorithm_reportOf, algorithm_reportOf]
  rw [drawingOf, drawingOf, (presenter settings).chart_congr algorithms samples]

/-- Plots that are drawn over leave the executables of an algorithm as they are. -/
theorem drawing_of_drawnOver (i : Invocation) (named : settings.binDir ≠ "") (plots : List String)
    (frame : w.DrawnOver (plots.map (Presenter.plotName · .time)) drawn)
    (accepted : (request algorithm).check = .ok ()) :
    drawingOf settings (reportOf i settings drawn algorithm) algorithm =
      drawingOf settings (reportOf i settings w algorithm) algorithm := by
  refine drawing_congr i i named fun backend member => ?_
  have own : Executable.IsNamed algorithm backend :=
    Request.isNamed_of_mem_backends accepted member
  refine frame.file?_join_eq _ _ (Executable.isOrdinary_name own) fun listed => ?_
  obtain ⟨other, -, same⟩ := List.mem_map.mp listed
  exact Executable.name_ne_plotName own other .time same.symm

/-! ## All algorithms -/

/-- The plot of each of some algorithms that are all different is drawn as it would be drawn first,
wherever it can be. -/
theorem foldlM_plot (i : Invocation) (named : settings.binDir ≠ "") {list : List String}
    (nodup : list.Nodup) (accepted : ∀ algorithm ∈ list, (request algorithm).check = .ok ())
    (ready : settings.plotsDir = "" ∨ w.isDirectory settings.plotsDir = true) (calls : List Call) :
    ∃ drawn, list.foldlM (plot i settings) (w, calls) = .ok (drawn, calls ++
        list.flatMap fun algorithm => (request algorithm).plan (competitors algorithm)) ∧
      w.DrawnOver (list.map (Presenter.plotName · .time)) drawn ∧
      ∀ algorithm ∈ list, w.AfterWriting (plotPath settings algorithm)
        (drawingOf settings (reportOf i settings w algorithm) algorithm)
        (drawn.file? (plotPath settings algorithm)) := by
  induction list generalizing w calls with
  | nil => exact ⟨w, by simp [pure, Except.pure], .refl _ _, nofun⟩
  | cons first rest ih =>
    rw [List.forall_mem_cons] at accepted
    obtain ⟨new, nodup⟩ := List.nodup_cons.mp nodup
    obtain ⟨next, step, frame, wrote⟩ := plot_drawnOver i accepted.1 ready calls
    obtain ⟨drawn, steps, frame_rest, wrote_rest⟩ := ih nodup accepted.2
      (ready.imp_right (frame.isDirectory_of _))
      (calls ++ (request first).plan (competitors first))
    refine ⟨drawn, ?_, frame.trans frame_rest, ?_⟩
    · rw [List.foldlM_cons, step]
      refine steps.trans ?_
      rw [List.flatMap_cons, List.append_assoc]
    · intro algorithm member
      rcases List.mem_cons.mp member with rfl | later
      · -- The plots of the rest have other names.
        have kept : drawn.file? (plotPath settings algorithm) =
            next.file? (plotPath settings algorithm) := by
          refine frame_rest.file?_join_eq _ _ (isOrdinary_plotName accepted.1) fun listed => ?_
          obtain ⟨other, listed, same⟩ := List.mem_map.mp listed
          exact new ((Presenter.plotName_inj.mp same).1 ▸ listed)
        rw [kept]
        exact wrote
      · have same := drawing_of_drawnOver i named [first] frame (accepted.2 algorithm later)
        obtain ⟨written, failed⟩ := wrote_rest algorithm later
        rw [frame.canWrite_iff, same] at written
        rw [frame.canWrite_iff] at failed
        exact ⟨written, failed⟩

theorem nodup_algorithms : algorithms.Nodup := by decide

theorem check_request : ∀ algorithm ∈ algorithms, (request algorithm).check = .ok () := by decide

/-- Once the directory is made the batch report succeeds, whatever the executables come to and
whichever plots cannot be written. -/
theorem run_of_made {made : Workspace}
    (loaded : Settings.load i.environment i.assignments = .ok settings)
    (named : settings.binDir ≠ "")
    (directory : i.host.workspace.makeDirectories settings.plotsDir = (.ok (), made)) :
    ∃ drawn, run i = .finish [] drawn (algorithms.flatMap fun algorithm =>
        (request algorithm).plan (competitors algorithm)) ∧
      ∀ algorithm ∈ algorithms, made.AfterWriting (plotPath settings algorithm)
        (drawingOf settings (reportOf i settings made algorithm) algorithm)
        (drawn.file? (plotPath settings algorithm)) := by
  have ready := Workspace.isDirectory_of_makeDirectories directory
  obtain ⟨drawn, plots, -, wrote⟩ :=
    foldlM_plot i named nodup_algorithms check_request ready []
  refine ⟨drawn, ?_, wrote⟩
  simp only [run, loaded, directory, plots, List.nil_append]

/-- Two workspaces with the same executables of an algorithm have the same files at their paths. -/
theorem files_of_agree (accepted : (request algorithm).check = .ok ()) {directory : String}
    (primary : w.fileIn? directory (Executable.name algorithm none) =
      w'.fileIn? directory (Executable.name algorithm none))
    (competing : Registry.builtin.supports competitor algorithm = true →
      w.fileIn? directory (Executable.name algorithm (some competitor)) =
        w'.fileIn? directory (Executable.name algorithm (some competitor))) :
    ∀ backend ∈ Request.backends (competitors algorithm),
      w.file? (Executable.path directory algorithm backend) =
        w'.file? (Executable.path directory algorithm backend) := by
  intro backend member
  have own : Executable.IsNamed algorithm backend :=
    Request.isNamed_of_mem_backends accepted member
  have ordinary := Executable.isOrdinary_name own
  have files : w.fileIn? directory (Executable.name algorithm backend) =
      w'.fileIn? directory (Executable.name algorithm backend) := by
    rcases List.mem_cons.mp member with rfl | takes_part
    · exact primary
    · obtain ⟨label, eligible, rfl⟩ := List.mem_map.mp takes_part
      obtain ⟨only, supported⟩ := List.mem_filter.mp eligible
      rw [List.mem_singleton.mp only] at supported ⊢
      exact competing supported
  rw [Executable.path, Workspace.file?_join _ _ ordinary, Workspace.file?_join _ _ ordinary, files]

/-- If the directory of the plots can be made, the batch report sweeps all its algorithms in their
order, writes nothing to standard output and ends well. Each algorithm is measured as if it were the
only one, and its plot is found unless it cannot be written. Two batch reports with the same
settings have the same plot of an algorithm as soon as they have the same executables of it and its
plot can be written in both or in neither. Here `made` and `made'` are the files once the directory
of the plots has been made. They are the files at first with empty folders added: at every location
there is what was there, and a directory that was there holds the same files. -/
theorem algorithms_stay_apart {made : Workspace}
    (loaded : Settings.load i.environment i.assignments = .ok settings)
    (named : settings.binDir ≠ "")
    (directory : i.host.workspace.makeDirectories settings.plotsDir = (.ok (), made)) :
    (run i).exitCode = 0 ∧ (run i).output = [] ∧ (run i).error = none ∧
    (run i).calls = (algorithms.flatMap fun algorithm =>
      (request algorithm).plan (competitors algorithm)) ∧
    (∀ algorithm ∈ algorithms, ∃ report, sweep i settings made algorithm =
        ⟨(request algorithm).plan (competitors algorithm), .ok report⟩ ∧
      made.AfterWriting (plotPath settings algorithm) (drawingOf settings report algorithm)
        ((run i).workspace.file? (plotPath settings algorithm))) ∧
    (made.home = i.host.workspace.home ∧ i.host.workspace.tree.Grows made.tree ∧
      (∀ folder, i.host.workspace.isDirectory folder = true → ∀ name,
        made.fileIn? folder name = i.host.workspace.fileIn? folder name) ∧
      (i.host.workspace.isDirectory settings.plotsDir = true → made = i.host.workspace)) ∧
    ∀ j made', Settings.load j.environment j.assignments = .ok settings →
      j.host.workspace.makeDirectories settings.plotsDir = (.ok (), made') →
      ∀ algorithm ∈ algorithms,
        made.fileIn? settings.binDir (Executable.name algorithm none) =
          made'.fileIn? settings.binDir (Executable.name algorithm none) →
        (Registry.builtin.supports competitor algorithm = true →
          made.fileIn? settings.binDir (Executable.name algorithm (some competitor)) =
            made'.fileIn? settings.binDir (Executable.name algorithm (some competitor))) →
        (made.CanWrite (plotPath settings algorithm) ↔
          made'.CanWrite (plotPath settings algorithm)) →
        (run i).workspace.file? (plotPath settings algorithm) =
          (run j).workspace.file? (plotPath settings algorithm) := by
  obtain ⟨drawn, whole, wrote⟩ := run_of_made loaded named directory
  have found : (run i).workspace = drawn := congrArg Outcome.workspace whole
  refine ⟨congrArg Outcome.exitCode whole, congrArg Outcome.output whole,
    congrArg Outcome.error whole, congrArg Outcome.calls whole, ?_, ?_, ?_⟩
  · intro algorithm listed
    refine ⟨_, sweep_of_accepted i settings made (check_request algorithm listed), ?_⟩
    rw [found]
    exact wrote algorithm listed
  · refine ⟨(Workspace.exists_of_makeDirectories directory).1,
      Workspace.grows_makeDirectories directory, fun folder there name =>
        Workspace.fileIn?_of_makeDirectories directory there name, fun there => ?_⟩
    rw [Workspace.makeDirectories_of_isDirectory (.inr there)] at directory
    exact (congrArg Prod.snd directory).symm
  · intro j made' loaded' directory' algorithm listed primary competing alike
    obtain ⟨drawn', whole', wrote'⟩ := run_of_made loaded' named directory'
    have found' : (run j).workspace = drawn' := congrArg Outcome.workspace whole'
    have same := drawing_congr i j named
      (files_of_agree (check_request algorithm listed) primary competing)
    have here := wrote algorithm listed
    rw [same] at here
    rw [found, found']
    exact here.eq (wrote' algorithm listed) alike

/-- A start without settings in a home folder with an executable of `sort`, other executables and
a folder of plots. -/
def startedWith (others plots : List (String × Tree Contents)) : Invocation where
  arguments := []
  environment := []
  assignments := none
  host := ⟨⟨.folder [
    ("perf", .folder (("perf_sort", .file (.program Measurement.steady)) :: others)),
    ("perf_plots", .folder plots)], []⟩, fun _ => .error .noEntry⟩
  now := ""
  help := []
  order := .minimumFirst

/-- A start where `count` has no usable executable and the plot of `merge` cannot be written. -/
def obstructed : Invocation :=
  startedWith [("perf_count", .file (.program .unrunnable))]
    [("merge_time_plot.svg", .folder [])]

/-- What obstructs other algorithms makes no difference to the plot of `sort`. -/
theorem obstructed_plots_leave_sort :
    let free := startedWith [] []
    (run free).exitCode = 0 ∧ (run obstructed).exitCode = 0 ∧
    (run obstructed).workspace.file? "perf_plots/merge_time_plot.svg" = none ∧
    ∃ d, (run free).workspace.file? "perf_plots/sort_time_plot.svg" = some (.drawing d) ∧
      (run obstructed).workspace.file? "perf_plots/sort_time_plot.svg" = some (.drawing d) := by
  have loaded : Settings.load [] none =
      .ok ⟨"./perf", "perf_plots", 1000, 600, "perfsweep=info"⟩ := rfl
  have directory : ∀ others plots,
      (startedWith others plots).host.workspace.makeDirectories "perf_plots" =
        (.ok (), (startedWith others plots).host.workspace) := fun _ _ =>
    Workspace.makeDirectories_of_isDirectory (Or.inr rfl)
  have free_writable : (startedWith [] []).host.workspace.CanWrite
      "perf_plots/sort_time_plot.svg" := fun _ => ⟨_, rfl⟩
  have sort_writable : obstructed.host.workspace.CanWrite
      "perf_plots/sort_time_plot.svg" := fun _ => ⟨_, rfl⟩
  have merge_blocked : ¬ obstructed.host.workspace.CanWrite "perf_plots/merge_time_plot.svg" := by
    intro can
    obtain ⟨written, h⟩ := can (.of 0 0 (.new "" .time))
    cases h
  have primary : (startedWith [] []).host.workspace.fileIn? "./perf" "perf_sort" =
      obstructed.host.workspace.fileIn? "./perf" "perf_sort" := rfl
  have competing : (startedWith [] []).host.workspace.fileIn? "./perf" "perf_stl_sort" =
      obstructed.host.workspace.fileIn? "./perf" "perf_stl_sort" := rfl
  intro free
  obtain ⟨exit, -, -, -, plots, -, alike⟩ :=
    algorithms_stay_apart (i := free) loaded (by decide) (directory _ _)
  obtain ⟨exit', -, -, -, plots', -, -⟩ :=
    algorithms_stay_apart (i := obstructed) loaded (by decide) (directory _ _)
  obtain ⟨report, -, sort⟩ := plots "sort" (by decide)
  obtain ⟨report', -, merge⟩ := plots' "merge" (by decide)
  have same := alike obstructed _ loaded (directory _ _) "sort" (by decide) primary
    (fun _ => competing) (iff_of_true free_writable sort_writable)
  have drawn := sort.written free_writable
  exact ⟨exit, exit', merge.failed merge_blocked, _, drawn, same.symm.trans drawn⟩

end BatchReport

end TimingSweep
