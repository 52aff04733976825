import TimingSweep.Presenter
import TimingSweep.Proofs.MadeDirectories

/-!
# Effects of a presentation

Text and JSON go to the sink and nowhere else. A plot goes to the files and nowhere else: its
directory is made, and then one chart is handed to the renderer, which answers for the rest. That
nothing more is asked of the renderer is said by putting another in its place.

* `Chart.IsRenamed`, `isRenamed_iff`: what stays of a chart that is shown under other labels, and
  that this tells the chart;
* `Presentation.IsDrawnBy`, `isDrawnBy_present`: a plot is what one call of the renderer makes it;
* `present_congr`: no other call of the renderer makes a difference;
* `present_effects`: the effects of every presentation.
-/

namespace TimingSweep

namespace Chart

variable {rename : String → String} {c renamed : Chart}

/-- The same lines under the same titles, with their labels renamed. -/
structure IsRenamed (rename : String → String) (c renamed : Chart) : Prop where
  title : renamed.title = c.title
  xLabel : renamed.xLabel = c.xLabel
  yLabel : renamed.yLabel = c.yLabel
  labels : renamed.series.map (·.label) = c.series.map fun s => rename s.label
  lines : renamed.series.map (·.points) = c.series.map (·.points)

/-- Series are told by their labels and their points. -/
theorem series_eq_of_maps {series others : List Series}
    (labels : series.map (·.label) = others.map (·.label))
    (lines : series.map (·.points) = others.map (·.points)) : series = others := by
  have paired : ∀ list : List Series,
      (list.map (·.label)).zipWith Series.mk (list.map (·.points)) = list := by
    intro list
    rw [List.zipWith_map, List.zipWith_self]
    exact List.map_id list
  rw [← paired series, labels, lines, paired others]

theorem isRenamed_iff : IsRenamed rename c renamed ↔ renamed = c.relabel rename := by
  constructor
  · intro h
    have series : renamed.series = (c.relabel rename).series := by
      apply series_eq_of_maps
      · rw [h.labels, relabel, List.map_map]
        rfl
      · rw [h.lines, relabel, List.map_map]
        rfl
    obtain ⟨title, xLabel, yLabel, -, -⟩ := h
    cases renamed
    simp only at title xLabel yLabel series
    rw [title, xLabel, yLabel, series]
    rfl
  · rintro rfl
    exact ⟨rfl, rfl, rfl, List.map_map, List.map_map⟩

/-- Renaming moves no point, so the box around them stays. -/
theorem IsRenamed.bounds (h : IsRenamed rename c renamed) : renamed.bounds = c.bounds := by
  rw [isRenamed_iff.mp h, bounds_relabel]

end Chart

/-- What a presentation comes to when one chart is handed to a renderer: its answer is passed on,
and the files are as it leaves them. -/
structure Presentation.IsDrawnBy (shown : Presentation) (renderer : Renderer) (chart : Chart)
    (path : String) (found : Workspace) : Prop where
  rendered : shown.rendered = [(path, chart)]
  drawn : ∀ left, renderer.draw chart path found = (.ok (), left) →
    shown.result = .ok (some path) ∧ shown.workspace = left
  failed : ∀ failure left, renderer.draw chart path found = (.error failure, left) →
    shown.result = .error failure ∧ shown.workspace = left

namespace Presenter

variable {p : Presenter} {report : Report} {mode : Mode} {quantity : Quantity}
  {competitors : List String} {sink : Sink} {workspace made : Workspace} {renderer : Renderer}

theorem chart_of_plain (plain : p.displayLabels = false) (report : Report) (quantity : Quantity)
    (competitors : List String) :
    p.chart report quantity competitors =
      report.chart quantity (Backend.primary :: competitors) := by
  simp [chart, plain]

theorem isRenamed_chart (labels : p.displayLabels = true) (report : Report) (quantity : Quantity)
    (competitors : List String) :
    (report.chart quantity (Backend.primary :: competitors)).IsRenamed Backend.displayLabel
      (p.chart report quantity competitors) := by
  rw [Chart.isRenamed_iff, chart, labels, if_pos rfl]

/-- Text and JSON leave the files as they are and ask nothing of the renderer. -/
theorem present_written (written : mode = .text ∨ mode = .json) (p : Presenter) (report : Report)
    (competitors : List String) (sink : Sink) (workspace : Workspace) :
    let shown := p.present report mode competitors sink workspace
    shown.workspace = workspace ∧ shown.rendered = [] ∧
      ∀ renderer, { p with renderer }.present report mode competitors sink workspace = shown := by
  rcases written with rfl | rfl
  · obtain ⟨files, rendered⟩ := present_text p report competitors sink workspace
    exact ⟨files, rendered, fun _ => rfl⟩
  · obtain ⟨files, rendered⟩ := present_json p report competitors sink workspace
    exact ⟨files, rendered, fun _ => rfl⟩

section Plot

variable (plots : p.renderer = some renderer)
include plots

/-- A plot in its directory is drawn by one call. -/
theorem isDrawnBy_present (directory : workspace.makeDirectories p.outputDir = (.ok (), made)) :
    (p.present report (.plot quantity) competitors sink workspace).IsDrawnBy renderer
      (p.chart report quantity competitors) (p.plotPath report.algorithm quantity) made := by
  constructor
  · rw [present_plot_of_made plots directory rfl]
  · intro left call
    rw [present_plot_of_made plots directory call]
    exact ⟨rfl, rfl⟩
  · intro failure left call
    rw [present_plot_of_made plots directory call]
    exact ⟨rfl, rfl⟩

/-- What another renderer does with other charts, at other paths and with other files makes no
difference. -/
theorem present_congr {other : Renderer}
    (directory : workspace.makeDirectories p.outputDir = (.ok (), made))
    (alike : other.draw (p.chart report quantity competitors)
        (p.plotPath report.algorithm quantity) made =
      renderer.draw (p.chart report quantity competitors)
        (p.plotPath report.algorithm quantity) made) :
    { p with renderer := some other }.present report (.plot quantity) competitors sink workspace =
      p.present report (.plot quantity) competitors sink workspace :=
  (present_plot_of_made (p := { p with renderer := some other }) rfl directory alike).trans
    (present_plot_of_made plots directory rfl).symm

theorem sink_present_plot :
    (p.present report (.plot quantity) competitors sink workspace).sink = sink := by
  cases directory : workspace.makeDirectories p.outputDir with
  | mk outcome made =>
    cases outcome with
    | error failure => rw [present_plot_of_unmade plots directory]
    | ok _ => rw [present_plot_of_made plots directory rfl]

end Plot

/-- Text and JSON touch no file and never reach the renderer. A plot writes nothing to the sink. If
its directory cannot be made, that is the failure, and the renderer is not reached. If it can, the
renderer is reached once, with the path of the plot and the chart of the primary backend and the
competitors, in which display labels change nothing but the labels. Making the directory, with or
without success, changes no file that was there. Without a renderer a plot is the text in every
respect. -/
theorem present_effects (p : Presenter) (report : Report) (competitors : List String) (sink : Sink)
    (workspace : Workspace) :
    (∀ mode, mode = .text ∨ mode = .json →
      let shown := p.present report mode competitors sink workspace
      shown.workspace = workspace ∧ shown.rendered = [] ∧
        ∀ renderer, { p with renderer }.present report mode competitors sink workspace = shown) ∧
    ∀ quantity,
      let shown := p.present report (.plot quantity) competitors sink workspace
      let plain := report.chart quantity (Backend.primary :: competitors)
      let path := p.plotPath report.algorithm quantity
      (p.renderer = none → shown = p.present report .text competitors sink workspace) ∧
      ∀ renderer, p.renderer = some renderer →
        shown.sink = sink ∧
        (∀ failure made, workspace.makeDirectories p.outputDir = (.error failure, made) →
          shown.result = .error (.files failure) ∧ shown.rendered = [] ∧
          shown.workspace = made ∧ workspace.tree.Grows made.tree ∧
          ∀ other, { p with renderer := some other }.present report (.plot quantity) competitors
            sink workspace = shown) ∧
        ∀ made, workspace.makeDirectories p.outputDir = (.ok (), made) →
          workspace.tree.Grows made.tree ∧
          (p.outputDir = "" ∨ made.isDirectory p.outputDir = true) ∧
          ∃ chart, shown.IsDrawnBy renderer chart path made ∧
            (p.displayLabels = false → chart = plain) ∧
            (p.displayLabels = true → plain.IsRenamed Backend.displayLabel chart ∧
              chart.bounds = plain.bounds) ∧
            ∀ other, other.draw chart path made = renderer.draw chart path made →
              { p with renderer := some other }.present report (.plot quantity) competitors
                sink workspace = shown := by
  refine ⟨fun mode written => present_written written p report competitors sink workspace, ?_⟩
  intro quantity shown plain path
  constructor
  · intro absent
    simp only [shown, present, absent]
  · intro renderer plots
    refine ⟨sink_present_plot plots, ?_, ?_⟩
    · intro failure made unmade
      have refused : shown = ⟨.error (.files failure), sink, made, []⟩ :=
        present_plot_of_unmade plots unmade
      rw [refused]
      exact ⟨rfl, rfl, rfl, Workspace.grows_makeDirectories unmade,
        fun other => present_plot_of_unmade rfl unmade⟩
    · intro made directory
      refine ⟨Workspace.grows_makeDirectories directory,
        Workspace.isDirectory_of_makeDirectories directory, p.chart report quantity competitors,
        isDrawnBy_present plots directory, fun plain => chart_of_plain plain ..,
        fun labels => ?_, fun other alike => present_congr plots directory alike⟩
      have renamed := isRenamed_chart labels report quantity competitors
      exact ⟨renamed, renamed.bounds⟩

/-- Refuses every chart. -/
def refusing : Renderer := ⟨fun chart path workspace =>
  (.error (.plot (path ++ ": no room for " ++ chart.title)), workspace)⟩

/-- A home folder in which the name `plots` is free, or is that of a file. -/
def home (free : Bool) : Workspace :=
  ⟨.folder (if free then [] else [("plots", .file (.program .unrunnable))]), []⟩

/-- What stands in the way of a plot is the file in the place of its folder, and then the
renderer. -/
theorem refusing_effects :
    let p : Presenter := ⟨some refusing, "plots", true⟩
    let r := ((Report.new "sort" "").add "stl" 2 (.ofNat 1)).add "compute" 2 (.ofNat 3)
    let blocked := p.present r (.plot .rate) ["stl"] (.limited 3) (home false)
    let refused := p.present r (.plot .rate) ["stl"] (.limited 3) (home true)
    (home false).makeDirectories "plots" = (.error (.system .entryExists), home false) ∧
    (home true).makeDirectories "plots" = (.ok (), ⟨.folder [("plots", .folder [])], []⟩) ∧
    blocked.result = .error (.files (.system .entryExists)) ∧ blocked.rendered = [] ∧
    refused.result = .error (.plot "plots/sort_rate_plot.svg: no room for sort") ∧
    refused.workspace.isDirectory "plots" = true ∧ refused.sink = .limited 3 ∧
    (∃ c, refused.rendered = [("plots/sort_rate_plot.svg", c)] ∧
      c.series.map (·.label) = ["Boost.Compute", "C++ STL"]) ∧
    (p.present r .json ["stl"] (.limited 3) (home true)).rendered = [] ∧
    { p with renderer := none }.present r (.plot .rate) ["stl"] (.limited 3) (home true) =
      p.present r .text ["stl"] (.limited 3) (home true) := by
  intro p r blocked refused
  have taken : (home false).makeDirectories "plots" =
      (.error (.system .entryExists), home false) := rfl
  have made : (home true).makeDirectories "plots" =
      (.ok (), ⟨.folder [("plots", .folder [])], []⟩) := rfl
  have path : p.plotPath r.algorithm .rate = "plots/sort_rate_plot.svg" := by decide +kernel
  obtain ⟨-, plots⟩ := present_effects p r ["stl"] (.limited 3) (home false)
  obtain ⟨-, unmade, -⟩ := (plots .rate).2 refusing rfl
  obtain ⟨failed, unreached, -⟩ := unmade _ _ taken
  obtain ⟨written, plots⟩ := present_effects p r ["stl"] (.limited 3) (home true)
  obtain ⟨sink, -, drawn⟩ := (plots .rate).2 refusing rfl
  obtain ⟨-, -, c, call, -, labels, -⟩ := drawn _ made
  rw [path] at call
  obtain ⟨renamed, -⟩ := labels rfl
  have title : c.title = "sort" := renamed.title
  obtain ⟨answer, files⟩ := call.failed _ _ rfl
  obtain ⟨-, -, replaced⟩ := written .text (.inl rfl)
  obtain ⟨-, unreached_by_json, -⟩ := written .json (.inr rfl)
  obtain ⟨as_text, -⟩ := (present_effects { p with renderer := none } r ["stl"] (.limited 3)
    (home true)).2 .rate
  refine ⟨taken, made, failed, unreached, ?_, ?_, sink, ⟨c, call.rendered, ?_⟩, unreached_by_json,
    (as_text rfl).trans (replaced none)⟩
  · rw [answer, title]
    decide +kernel
  · rw [files]
    rfl
  · rw [renamed.labels]
    decide +kernel

end Presenter

end TimingSweep
