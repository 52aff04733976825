import TimingSweep.Presenter
import TimingSweep.Proofs.CreatedFiles
import TimingSweep.Proofs.Replies

/-!
# Paths that stay in their directory

Identifiers become parts of file names, of executables and of plots. Such a name is an ordinary one,
so that a path ends in it, and what is before it is the directory and nothing else.

* `Path.entryOf_join`: an ordinary name makes an entry of any directory;
* `Presenter.isOrdinary_plotName`: plots of accepted algorithms have ordinary names;
* `Presenter.plotName_inj`: the name of a plot tells its algorithm and what is plotted;
* `paths_contained`: all paths of an accepted request are entries of their directories, and no plot
  is written over another.
-/

namespace TimingSweep

/-- A path that is a directory with one ordinary name behind it. The directory is not replaced: it
stays the parent, by the components of the path and in every tree. -/
structure Path.EntryOf (directory name path : String) : Prop where
  ordinary : IsOrdinary name
  joined : path = join directory name
  absolute : (Route.ofPath path).absolute = (Route.ofPath directory).absolute
  components : (Route.ofPath path).essential = (Route.ofPath directory).essential ++ [name]
  leads : ∀ (α : Type) (p : Place α), p.walk (Route.ofPath path).steps =
    p.walk (Route.ofPath directory).steps >>= fun q => q.walk [name]

namespace Route

/-- A step that goes on to something else. -/
def moves (step : String) : Bool := step ≠ "" && step ≠ "."

theorem essential_of_dot (rest : List String) :
    essential ⟨false, "." :: rest⟩ = "." :: rest.filter moves := rfl

theorem essential_of_dotless {absolute : Bool} {steps : List String}
    (dotless : absolute = false → steps.head? ≠ some ".") :
    essential ⟨absolute, steps⟩ = steps.filter moves := by
  unfold essential
  split
  · rename_i relative dot
    cases relative
    cases dot
    exact absurd rfl (dotless rfl)
  · rfl

/-- A name behind the steps of a directory is one more component. An empty step at the end of the
directory is none. -/
theorem essential_concat (absolute : Bool) (steps : List String) {name : String}
    (ordinary : Path.IsOrdinary name) :
    essential ⟨absolute, steps ++ [name]⟩ = essential ⟨absolute, steps⟩ ++ [name] ∧
      essential ⟨absolute, steps ++ [""]⟩ = essential ⟨absolute, steps⟩ := by
  have kept : moves name = true := by simp [moves, ordinary.nonempty, ordinary.ne_dot]
  have filtered : ∀ more : List String,
      (more ++ [name]).filter moves = more.filter moves ++ [name] ∧
      (more ++ [""]).filter moves = more.filter moves := fun more => by
    rw [List.filter_append, List.filter_append, List.filter_cons_of_pos kept]
    exact ⟨rfl, List.append_nil _⟩
  by_cases dot : absolute = false ∧ steps.head? = some "."
  · obtain ⟨rfl, first⟩ := dot
    obtain ⟨rest, rfl⟩ := List.head?_eq_some_iff.mp first
    rw [List.cons_append, List.cons_append, essential_of_dot, essential_of_dot, essential_of_dot]
    exact (filtered rest).imp (congrArg ("." :: ·)) (congrArg ("." :: ·))
  · have dotless : ∀ last : String, last ≠ "." → absolute = false →
        (steps ++ [last]).head? ≠ some "." := by
      intro last other relative
      cases steps with
      | nil => simpa using other
      | cons first rest => exact fun same => dot ⟨relative, same⟩
    rw [essential_of_dotless (dotless name ordinary.ne_dot),
      essential_of_dotless (dotless "" (by decide)),
      essential_of_dotless fun relative first => dot ⟨relative, first⟩]
    exact filtered steps

end Route

theorem Path.entryOf_join (directory : String) {name : String} (ordinary : IsOrdinary name) :
    EntryOf directory name (join directory name) := by
  obtain ⟨steps, ends, joined⟩ := Route.ofPath_join directory ordinary
  refine ⟨ordinary, rfl, by rw [joined], ?_, fun α p => p.walk_join directory ordinary⟩
  obtain ⟨name_added, nothing_added⟩ :=
    Route.essential_concat (Route.ofPath directory).absolute steps ordinary
  have whole : Route.ofPath directory =
      ⟨(Route.ofPath directory).absolute, (Route.ofPath directory).steps⟩ := rfl
  rw [joined, name_added, whole]
  rcases ends with same | closed
  · rw [same]
  · rw [closed, nothing_added]

namespace Presenter

variable {algorithm algorithm' : String} {quantity quantity' : Quantity}

/-- What stands behind the algorithm in the name of its plot. -/
def plotEnding (quantity : Quantity) : String := "_" ++ quantity.name ++ "_plot." ++ plotExtension

theorem plotName_eq (algorithm : String) (quantity : Quantity) :
    plotName algorithm quantity = algorithm ++ plotEnding quantity := by
  simp only [plotName, plotEnding, String.append_assoc]

/-- All endings have one length, whatever is plotted. -/
theorem length_plotEnding (quantity : Quantity) : (plotEnding quantity).toList.length = 14 := by
  cases quantity <;> decide

theorem plotEnding_inj : plotEnding quantity = plotEnding quantity' ↔ quantity = quantity' := by
  cases quantity <;> cases quantity' <;> decide

theorem length_plotName (algorithm : String) (quantity : Quantity) :
    (plotName algorithm quantity).toList.length = algorithm.toList.length + 14 := by
  rw [plotName_eq, String.toList_append, List.length_append, length_plotEnding]

/-- The name of a plot is cut where its ending begins, wherever else the ending may stand. -/
theorem plotName_inj : plotName algorithm quantity = plotName algorithm' quantity' ↔
    algorithm = algorithm' ∧ quantity = quantity' := by
  constructor
  · intro same
    rw [plotName_eq, plotName_eq, ← String.toList_inj, String.toList_append,
      String.toList_append] at same
    have lengths := (length_plotEnding quantity).trans (length_plotEnding quantity').symm
    obtain ⟨algorithms, endings⟩ := List.append_inj' same lengths
    exact ⟨String.toList_inj.mp algorithms, plotEnding_inj.mp (String.toList_inj.mp endings)⟩
  · rintro ⟨rfl, rfl⟩
    rfl

theorem isOrdinary_plotName (named : Identifier.check .algorithm algorithm = .ok ())
    (quantity : Quantity) : Path.IsOrdinary (plotName algorithm quantity) := by
  obtain ⟨-, short, allowed⟩ := Identifier.check_eq_ok.mp named
  have allowed := List.all_eq_true.mp allowed
  have length := length_plotName algorithm quantity
  have absent : ∀ c, Identifier.allows c = false → c ∉ (plotEnding quantity).toList →
      c ∉ (plotName algorithm quantity).toList := by
    intro c foreign outside member
    rw [plotName_eq, String.toList_append, List.mem_append] at member
    rcases member with inside | ending
    · exact absurd (allowed c inside) (by simp [foreign])
    · exact outside ending
  refine ⟨?_, ?_, ?_, ?_, ?_, ?_⟩
  · intro empty
    simp [empty] at length
  · exact absent '/' (by decide) (by cases quantity <;> decide)
  · exact absent '\x00' (by decide) (by cases quantity <;> decide)
  · intro dot
    simp [dot] at length
  · intro dots
    simp [dots] at length
  · have ending : (plotEnding quantity).utf8ByteSize = 14 := by cases quantity <;> decide
    have bound : Identifier.maxSize + 14 ≤ Place.maxNameSize := by decide
    rw [plotName_eq, String.utf8ByteSize_append, ending]
    omega

/-- In one directory the path of a plot tells its algorithm and what is plotted. -/
theorem plotPath_inj (p : Presenter) (named : Identifier.check .algorithm algorithm = .ok ())
    (named' : Identifier.check .algorithm algorithm' = .ok ()) :
    p.plotPath algorithm quantity = p.plotPath algorithm' quantity' ↔
      algorithm = algorithm' ∧ quantity = quantity' :=
  (Path.join_inj (isOrdinary_plotName named quantity).relative
    (isOrdinary_plotName named' quantity').relative).trans plotName_inj

/-- Writing a plot changes no other plot. -/
theorem file?_plotPath_elsewhere (p : Presenter)
    (named : Identifier.check .algorithm algorithm = .ok ())
    (named' : Identifier.check .algorithm algorithm' = .ok ())
    (differ : ¬ (algorithm = algorithm' ∧ quantity = quantity')) {w written : Workspace}
    {d : Drawing}
    (h : w.writeDrawing (p.plotPath algorithm quantity) d = (.ok (), written)) :
    written.file? (p.plotPath algorithm' quantity') = w.file? (p.plotPath algorithm' quantity') :=
  Workspace.file?_of_writeDrawing_elsewhere (isOrdinary_plotName named quantity)
    (isOrdinary_plotName named' quantity') (fun same => differ (plotName_inj.mp same.symm)) h

end Presenter

theorem Request.isNamed_of_check {request : Request} (accepted : request.check = .ok ())
    {backend : Option String} (member : backend ∈ backends request.competitors) :
    Executable.IsNamed request.algorithm backend := by
  obtain ⟨algorithm, -, labels⟩ := check_eq_ok.mp accepted
  refine ⟨algorithm, ?_⟩
  rintro label rfl
  exact labels label (by simpa [backends] using member)

/-- The executables and the plots of an accepted request are entries of their directories. Plots of
different algorithms or quantities have different paths, and writing one leaves the others as they
are. -/
theorem paths_contained {request : Request} (accepted : request.check = .ok ()) (binDir : String)
    (p : Presenter) :
    (∀ backend ∈ Request.backends request.competitors,
      Path.EntryOf binDir (Executable.name request.algorithm backend)
        (Executable.path binDir request.algorithm backend)) ∧
    (∀ quantity, Path.EntryOf p.outputDir (Presenter.plotName request.algorithm quantity)
      (p.plotPath request.algorithm quantity)) ∧
    ∀ algorithm, Identifier.check .algorithm algorithm = .ok () → ∀ quantity quantity',
      (p.plotPath request.algorithm quantity = p.plotPath algorithm quantity' ↔
        request.algorithm = algorithm ∧ quantity = quantity') ∧
      (¬ (request.algorithm = algorithm ∧ quantity = quantity') → ∀ w d written,
        Workspace.writeDrawing w (p.plotPath request.algorithm quantity) d = (.ok (), written) →
        written.file? (p.plotPath algorithm quantity') =
          w.file? (p.plotPath algorithm quantity')) := by
  have named := (Request.check_eq_ok.mp accepted).1
  refine ⟨?_, ?_, ?_⟩
  · intro backend member
    exact Path.entryOf_join binDir
      (Executable.isOrdinary_name (Request.isNamed_of_check accepted member))
  · intro quantity
    exact Path.entryOf_join p.outputDir (Presenter.isOrdinary_plotName named quantity)
  · intro algorithm named' quantity quantity'
    refine ⟨p.plotPath_inj named named', fun differ w d written h => ?_⟩
    exact p.file?_plotPath_elsewhere named named' differ h

/-- A home folder that holds one plot. -/
def exhibited (name : String) (d : Drawing) : Workspace :=
  ⟨.folder [(name, .file (.drawing d))], []⟩

/-- A directory above the home folder stays the parent, and an algorithm whose name ends like that
of a plot has a plot of its own, which leaves the other as it is. -/
theorem sort_rate_paths_contained :
    let request : Request := ⟨"sort_rate", [2], ["tbb"]⟩
    let p : Presenter := ⟨none, "", false⟩
    let d := Drawing.of 640 480 (.new "sort" .rate)
    let w := exhibited "sort_rate_plot.svg" d
    let result := w.writeDrawing (p.plotPath "sort_rate" .time) d
    request.check = .ok () ∧ Identifier.check .algorithm "sort" = .ok () ∧
    (Route.ofPath (Executable.path "../bin/." "sort_rate" (some "tbb"))).essential =
      ["..", "bin", "perf_tbb_sort_rate"] ∧
    p.plotPath "sort_rate" .time ≠ p.plotPath "sort" .rate ∧ result.1 = .ok () ∧
    result.2.file? (p.plotPath "sort" .rate) = some (.drawing d) := by
  have accepted : Request.check ⟨"sort_rate", [2], ["tbb"]⟩ = .ok () := rfl
  have named : Identifier.check .algorithm "sort" = .ok () := rfl
  have writes : ∀ d, ((exhibited "sort_rate_plot.svg" d).writeDrawing
      (Presenter.plotPath ⟨none, "", false⟩ "sort_rate" .time) d).1 = .ok () := fun _ => rfl
  have holds : ∀ d, (exhibited "sort_rate_plot.svg" d).file?
      (Presenter.plotPath ⟨none, "", false⟩ "sort" .rate) = some (.drawing d) := fun _ => rfl
  intro request p d w result
  obtain ⟨executables, -, plots⟩ := paths_contained accepted "../bin/." p
  obtain ⟨same_path, kept⟩ := plots "sort" named .time .rate
  refine ⟨accepted, named, ?_, ?_, writes d, ?_⟩
  · rw [(executables (some "tbb") (by decide)).components]
    decide
  · rw [Ne, same_path]
    decide
  · exact (kept (by decide) w d result.2 (Prod.ext (writes d) rfl)).trans (holds d)

end TimingSweep
