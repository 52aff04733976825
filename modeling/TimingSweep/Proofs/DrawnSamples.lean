import TimingSweep.Presenter
import TimingSweep.Proofs.Charts
import TimingSweep.Proofs.CreatedFiles

/-!
# Drawn samples

A plot is drawn in steps: the report drops what is not valid and what is not asked for, the
presenter puts the primary backend first and may rename the series, and the drawing counts the
series to give each a colour. What comes out of all steps is read off the valid samples alone.

* `color_inj`: the colours of the palette are all different;
* `shows_of_chart`: what a drawing of a report shows of each backend;
* `plot_shows_valid_samples`: what is found at the path of a plot that has been written.
-/

namespace TimingSweep

namespace Report

/-- The samples of a backend that are drawn. -/
def validSamples (r : Report) (backend : String) : List Sample :=
  (r.samples backend).filter Sample.isValid

/-- The backends that have a series, in the order in which they are asked for. -/
def shown (r : Report) (backends : List String) : List String :=
  backends.filter fun backend => (r.samples backend).any Sample.isValid

theorem validSamples_ne_nil {r : Report} {backends : List String} {backend : String}
    (h : backend ∈ r.shown backends) : r.validSamples backend ≠ [] := by
  obtain ⟨s, held, valid⟩ := List.any_eq_true.mp (List.mem_filter.mp h).2
  exact List.ne_nil_of_mem (List.mem_filter.mpr ⟨held, valid⟩)

end Report

namespace Presenter

/-- The name of a backend in the legends of a presenter. -/
def legendName (p : Presenter) (backend : String) : String :=
  if p.displayLabels then Backend.displayLabel backend else backend

theorem series_chart (p : Presenter) (r : Report) (quantity : Quantity)
    (competitors : List String) :
    (p.chart r quantity competitors).series =
      (r.shown (Backend.primary :: competitors)).map fun backend =>
        ⟨p.legendName backend, (r.validSamples backend).map (Report.point quantity)⟩ := by
  have drawn := Report.series_chart r quantity (Backend.primary :: competitors)
  unfold chart legendName
  cases p.displayLabels with
  | false => exact drawn
  | true =>
    show List.map _ (r.chart quantity (Backend.primary :: competitors)).series = _
    rw [drawn, List.map_map]
    rfl

theorem axes_chart (p : Presenter) (r : Report) (quantity : Quantity) (competitors : List String) :
    Drawing.axes (p.chart r quantity competitors) =
      Drawing.axes (r.chart quantity (Backend.primary :: competitors)) := by
  unfold chart
  split
  · rw [Drawing.axes, Chart.bounds_relabel]
    rfl
  · rfl

/-- Nothing but the algorithm and the samples of a report makes a difference to its charts. -/
theorem chart_congr (p : Presenter) {r r' : Report} (algorithm : r.algorithm = r'.algorithm)
    (samples : ∀ backend, r.samples backend = r'.samples backend) (quantity : Quantity)
    (competitors : List String) :
    p.chart r quantity competitors = p.chart r' quantity competitors := by
  have lines : r.line? quantity = r'.line? quantity := funext fun backend => by
    rw [Report.line?, Report.line?, samples]
  simp only [chart, Report.chart, lines, algorithm]

end Presenter

namespace Drawing

theorem color_eq (index : Nat) : palette[index % palette.length]? = some (color index) := by
  have within : index % palette.length < palette.length := Nat.mod_lt _ (by decide)
  rw [color, List.getD_eq_getElem?_getD, List.getElem?_eq_getElem within, Option.getD_some]

/-- The colours of the palette are all different. -/
theorem color_inj {i j : Nat} (hi : i < palette.length) (hj : j < palette.length) :
    color i = color j ↔ i = j := by
  have nodup : palette.Nodup := by decide
  rw [← Option.some.injEq, ← color_eq, ← color_eq, Nat.mod_eq_of_lt hi, Nat.mod_eq_of_lt hj,
    List.getElem?_inj hi nodup]

/-- What a drawing shows of a report: a legend entry with its key and a line for each of the
backends that has a valid sample, and a marker for each valid sample of these, all in order. What
belongs to one backend has the colour of its place among those shown. -/
structure Shows (d : Drawing) (r : Report) (quantity : Quantity) (name : String → String)
    (backends : List String) : Prop where
  legend : d.legend = (r.shown backends).map name
  keys : d.keys = (r.shown backends).zipIdx.map fun (_, index) => (color index, keyVertices)
  lines : d.lines = (r.shown backends).zipIdx.map fun (backend, index) =>
    (color index, (r.validSamples backend).length)
  markers : d.markers = (r.shown backends).zipIdx.flatMap fun (backend, index) =>
    (r.validSamples backend).map fun s =>
      marker (.of d.width d.height) (axes (r.chart quantity backends)).1.span
        (axes (r.chart quantity backends)).2.span index (Report.point quantity s)

theorem shows_of_chart (width height : UInt32) (p : Presenter) (r : Report) (quantity : Quantity)
    (competitors : List String) :
    (of width height (p.chart r quantity competitors)).Shows r quantity p.legendName
      (Backend.primary :: competitors) := by
  have series := p.series_chart r quantity competitors
  refine ⟨?_, ?_, ?_, ?_⟩
  · rw [legend_of, series, List.map_map]
    rfl
  · show (p.chart r quantity competitors).series.zipIdx.map _ = _
    rw [series, List.zipIdx_map, List.map_map]
    rfl
  · show ((p.chart r quantity competitors).series.zipIdx.filter _).map _ = _
    rw [series, List.zipIdx_map, List.filter_map, List.map_map]
    -- No series is left out here: one without a point has been dropped before.
    rw [List.filter_eq_self.mpr]
    · simp only [Function.comp_def, Prod.map, List.length_map, id]
    · rintro ⟨backend, index⟩ member
      have nonempty := Report.validSamples_ne_nil (List.fst_mem_of_mem_zipIdx member)
      simpa using nonempty
  · show markersOf _ _ = _
    unfold markersOf
    rw [series, p.axes_chart, List.zipIdx_map, List.flatMap_map]
    simp only [Prod.map, List.map_map, id]
    rfl

variable {d : Drawing} {r : Report} {quantity : Quantity} {name : String → String}
  {backends : List String}

/-- The keys of the legend have the colours of the lines. -/
theorem Shows.colors_of_keys (h : d.Shows r quantity name backends) :
    d.keys.map (·.1) = d.lines.map (·.1) := by
  rw [h.keys, h.lines, List.map_map, List.map_map]
  rfl

/-- Behind each line there are as many markers in its colour as it has vertices. -/
theorem Shows.colors_of_markers (h : d.Shows r quantity name backends) :
    d.markers.map (·.color) =
      d.lines.flatMap fun (color, vertices) => List.replicate vertices color := by
  rw [h.markers, h.lines, List.map_flatMap, List.flatMap_map]
  congr 1
  funext (backend, index)
  show _ = List.replicate (r.validSamples backend).length (color index)
  rw [List.map_map, ← List.map_const']
  rfl

end Drawing

namespace Presenter

variable {width height : UInt32} {r : Report} {quantity : Quantity} {competitors : List String}
  {sink : Sink} {workspace : Workspace}

theorem present_of_written {p : Presenter} {made written : Workspace}
    (svg : p.renderer = some (.svg width height))
    (directory : workspace.makeDirectories p.outputDir = (.ok (), made))
    (file : made.writeDrawing (p.plotPath r.algorithm quantity)
      (.of width height (p.chart r quantity competitors)) = (.ok (), written)) :
    p.present r (.plot quantity) competitors sink workspace =
      ⟨.ok (some (p.plotPath r.algorithm quantity)), sink, written,
        [(p.plotPath r.algorithm quantity, p.chart r quantity competitors)]⟩ :=
  present_plot_of_made svg directory (Renderer.svg_draw_of_written file)

/-- A plot is shown only if its directory can be made and its drawing can be written there. -/
theorem exists_of_present {p : Presenter} {found : Option String}
    (svg : p.renderer = some (.svg width height))
    (h : (p.present r (.plot quantity) competitors sink workspace).result = .ok found) :
    ∃ made written, workspace.makeDirectories p.outputDir = (.ok (), made) ∧
      made.writeDrawing (p.plotPath r.algorithm quantity)
        (.of width height (p.chart r quantity competitors)) = (.ok (), written) := by
  simp only [present, svg, drawPlot] at h
  split at h
  · cases h
  · rename_i made directory
    simp only [Renderer.svg] at h
    cases file : made.writeDrawing (p.plotPath r.algorithm quantity)
        (.of width height (p.chart r quantity competitors)) with
    | mk outcome written =>
      cases outcome with
      | error failure =>
        rw [file] at h
        cases h
      | ok _ => exact ⟨made, written, directory, file⟩

/-- The drawing of a plot shows every valid sample of the primary backend and the competitors, in
the colour of its backend, and nothing else. The colours are those of the palette in turn, so that
the first 21 series differ in colour. A plot is shown exactly if its directory can be made and the
drawing can be written, and then the drawing is found at the path of the plot. -/
theorem plot_shows_valid_samples (width height : UInt32) (outputDir : String)
    (displayLabels : Bool) (r : Report) (quantity : Quantity) (competitors : List String)
    (sink : Sink) (workspace : Workspace) :
    let p : Presenter := ⟨some (.svg width height), outputDir, displayLabels⟩
    let path := p.plotPath r.algorithm quantity
    let d := Drawing.of width height (p.chart r quantity competitors)
    let shown := p.present r (.plot quantity) competitors sink workspace
    d.Shows r quantity p.legendName (Backend.primary :: competitors) ∧
    d.keys.map (·.1) = d.lines.map (·.1) ∧
    d.markers.map (·.color) =
      (d.lines.flatMap fun (color, vertices) => List.replicate vertices color) ∧
    (∀ index, Drawing.palette[index % 21]? = some (Drawing.color index)) ∧
    (∀ i j, i < 21 → j < 21 → (Drawing.color i = Drawing.color j ↔ i = j)) ∧
    (shown.result = .ok (some path) ↔ ∃ made written,
      workspace.makeDirectories outputDir = (.ok (), made) ∧
      made.writeDrawing path d = (.ok (), written)) ∧
    ∀ found, shown.result = .ok found →
      found = some path ∧ shown.workspace.file? path = some (.drawing d) := by
  intro p path d shown
  have shows_samples := Drawing.shows_of_chart width height p r quantity competitors
  have svg : p.renderer = some (.svg width height) := rfl
  refine ⟨shows_samples, shows_samples.colors_of_keys, shows_samples.colors_of_markers,
    Drawing.color_eq, fun _ _ => Drawing.color_inj, ?_, ?_⟩
  · constructor
    · exact exists_of_present svg
    · rintro ⟨made, written, directory, file⟩
      exact congrArg Presentation.result (present_of_written svg directory file)
  · intro found h
    obtain ⟨made, written, directory, file⟩ := exists_of_present svg h
    have whole : shown = _ := present_of_written svg directory file
    rw [whole] at h
    refine ⟨(Except.ok.inj h).symm, ?_⟩
    rw [whole]
    exact Workspace.file?_of_writeDrawing file

/-- Samples of three backends, of which one has none that is valid. -/
def threeBackends : Report :=
  (((((Report.new "sort" "").add "tbb" 8 (.ofNat 3)).add "compute" 2 .zero).add "stl" 4 .nan).add
    "compute" 4 (.ofNat 1)).add "compute" 8 (.ofNat 2)

/-- The primary backend comes first, and a backend without a valid sample takes no colour. -/
theorem three_backends_drawn :
    let p : Presenter := ⟨some (.svg 640 480), "plots", true⟩
    let shown := p.present threeBackends (.plot .time) ["stl", "tbb"] .unlimited
      ⟨.folder [], []⟩
    ∃ d, shown.result = .ok (some "plots/sort_time_plot.svg") ∧
      shown.workspace.file? "plots/sort_time_plot.svg" = some (.drawing d) ∧
      d.legend = ["Boost.Compute", "Intel TBB"] ∧
      d.lines = [("#E6194B", 2), ("#3CB44B", 1)] ∧
      d.markers.map (·.color) = ["#E6194B", "#E6194B", "#3CB44B"] := by
  have directory : Workspace.makeDirectories ⟨.folder [], []⟩ "plots" =
      (.ok (), ⟨.folder [("plots", .folder [])], []⟩) := rfl
  have writes : ∀ d, ∃ written, Workspace.writeDrawing ⟨.folder [("plots", .folder [])], []⟩
      "plots/sort_time_plot.svg" d = (.ok (), written) := fun d => ⟨_, rfl⟩
  intro p shown
  obtain ⟨drawn, -, colors, -, -, written, found⟩ := plot_shows_valid_samples 640 480 "plots"
    true threeBackends .time ["stl", "tbb"] .unlimited ⟨.folder [], []⟩
  have ok := written.mpr ⟨_, _, directory, (writes _).choose_spec⟩
  refine ⟨_, ok, (found _ ok).2, ?_, ?_, ?_⟩
  · rw [drawn.legend]
    decide +kernel
  · rw [drawn.lines]
    decide +kernel
  · rw [colors, drawn.lines]
    decide +kernel

end Presenter

end TimingSweep
