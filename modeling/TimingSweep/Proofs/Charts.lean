import TimingSweep.Proofs.Additions

/-!
# Series of a chart

A chart has a series for each asked backend that has a valid sample, in the order in which the
backends were asked for, and a point for each valid sample, in the order in which these were added.

* `labels_chart`: the labels of a chart;
* `series_chart`: the series of a chart with their points;
* `chart_addAll`: the charts of a report, read off its additions.
-/

namespace TimingSweep.Report

theorem line?_eq_none_iff {r : Report} {backend : String} (quantity : Quantity) :
    r.line? quantity backend = none ↔ (r.samples backend).any Sample.isValid = false := by
  unfold line?
  rw [List.any_eq_false]
  cases valid : (r.samples backend).filter Sample.isValid with
  | nil => simpa using List.filter_eq_nil_iff.mp valid
  | cons s rest =>
    have member : s ∈ (r.samples backend).filter Sample.isValid := valid ▸ List.mem_cons_self
    obtain ⟨held, isValid⟩ := List.mem_filter.mp member
    constructor
    · intro impossible
      cases impossible
    · intro absent
      exact absurd isValid (absent s held)

theorem line?_eq_some {r : Report} {quantity : Quantity} {backend : String} {line : Series}
    (h : r.line? quantity backend = some line) :
    line = ⟨backend, ((r.samples backend).filter Sample.isValid).map (point quantity)⟩ := by
  unfold line? at h
  split at h
  · cases h
  · rename_i valid
    cases h
    rfl

/-- The points of a backend; none if it has no series. -/
def points (r : Report) (quantity : Quantity) (backend : String) : List (Binary64 × Binary64) :=
  ((r.line? quantity backend).map (·.points)).getD []

theorem points_eq (r : Report) (quantity : Quantity) (backend : String) :
    r.points quantity backend =
      ((r.samples backend).filter Sample.isValid).map (point quantity) := by
  unfold points line?
  cases (r.samples backend).filter Sample.isValid <;> rfl

theorem series_chart (r : Report) (quantity : Quantity) (backends : List String) :
    (r.chart quantity backends).series =
      (backends.filter fun backend => (r.samples backend).any Sample.isValid).map fun backend =>
        ⟨backend, ((r.samples backend).filter Sample.isValid).map (point quantity)⟩ := by
  show backends.filterMap (r.line? quantity) = _
  induction backends with
  | nil => rfl
  | cons backend rest ih =>
    cases drawn : r.line? quantity backend with
    | none =>
      have invalid : (r.samples backend).any Sample.isValid = false :=
        (line?_eq_none_iff quantity).mp drawn
      rw [List.filterMap_cons_none drawn, ih, List.filter_cons,
        if_neg (by simp [invalid])]
    | some line =>
      have valid : (r.samples backend).any Sample.isValid = true := by
        rw [← Bool.not_eq_false, ← line?_eq_none_iff quantity, drawn]
        exact Option.some_ne_none line
      rw [List.filterMap_cons_some drawn, ih, List.filter_cons, if_pos valid, List.map_cons,
        line?_eq_some drawn]

theorem labels_chart (r : Report) (quantity : Quantity) (backends : List String) :
    (r.chart quantity backends).series.map (·.label) =
      backends.filter fun backend => (r.samples backend).any Sample.isValid := by
  rw [series_chart, List.map_map]
  exact List.map_id _

/-- No series is drawn without a point. -/
theorem points_ne_nil {r : Report} {quantity : Quantity} {backends : List String} {s : Series}
    (drawn : s ∈ (r.chart quantity backends).series) : s.points ≠ [] := by
  rw [series_chart] at drawn
  obtain ⟨backend, kept, rfl⟩ := List.mem_map.mp drawn
  obtain ⟨sample, held, valid⟩ := List.any_eq_true.mp (List.mem_filter.mp kept).2
  have member : sample ∈ (r.samples backend).filter Sample.isValid :=
    List.mem_filter.mpr ⟨held, valid⟩
  exact List.ne_nil_of_mem (List.mem_map_of_mem member)

theorem isEmpty_chart_iff (r : Report) (quantity : Quantity) (backends : List String) :
    (r.chart quantity backends).isEmpty = true ↔ (r.chart quantity backends).bounds = none := by
  rw [Chart.bounds_eq_none, Chart.isEmpty, List.isEmpty_iff, Chart.points, List.flatMap_eq_nil_iff]
  constructor
  · intro pointless s drawn
    rw [pointless] at drawn
    cases drawn
  · intro pointless
    apply List.eq_nil_iff_forall_not_mem.mpr
    intro s drawn
    exact points_ne_nil drawn (pointless s drawn)

/-- The valid samples among those added under a label. -/
def validOf (additions : List Addition) (backend : String) : List Sample :=
  (additions.filter fun a => a.backend = backend && a.sample.isValid).map (·.sample)

theorem filter_samples_addAll_append (r : Report) (additions : List Addition) (backend : String) :
    ((r.addAll additions).samples backend).filter Sample.isValid =
      (r.samples backend).filter Sample.isValid ++ validOf additions backend := by
  rw [samples_addAll, List.filter_append, List.filter_map, List.filter_filter, validOf]
  congr 2
  apply List.filter_congr
  intro a _
  exact Bool.and_comm ..

theorem filter_samples_addAll (algorithm generatedAt : String) (additions : List Addition)
    (backend : String) :
    (((new algorithm generatedAt).addAll additions).samples backend).filter Sample.isValid =
      validOf additions backend :=
  filter_samples_addAll_append ..

/-- The charts of a report in terms of what was added to it. Both quantities are drawn for the same
backends at the same sizes, and a chart without a box has no series at all. -/
theorem chart_addAll (algorithm generatedAt : String) (additions : List Addition)
    (backends : List String) :
    let report := (new algorithm generatedAt).addAll additions
    let drawn := backends.filter fun backend => !(validOf additions backend).isEmpty
    let sizesByLabel := fun quantity =>
      (report.chart quantity backends).series.map fun s => (s.label, s.points.map (·.1))
    (∀ quantity, (report.chart quantity backends).series = drawn.map fun backend =>
      ⟨backend, (validOf additions backend).map fun s => (.ofNat s.size.toNat, quantity.of s)⟩) ∧
    (report.chart .time backends).series = (drawn.map fun backend =>
      ⟨backend, (validOf additions backend).map fun s => (.ofNat s.size.toNat, s.elapsed)⟩) ∧
    sizesByLabel .time = sizesByLabel .rate ∧
    (∀ quantity, ∀ s ∈ (report.chart quantity backends).series, s.points ≠ []) ∧
    ∀ quantity, (report.chart quantity backends).isEmpty = true ↔
      (report.chart quantity backends).bounds = none := by
  intro report drawn sizesByLabel
  have valid : ∀ backend, (report.samples backend).filter Sample.isValid =
      validOf additions backend := filter_samples_addAll algorithm generatedAt additions
  have kept : ∀ backend, (report.samples backend).any Sample.isValid =
      !(validOf additions backend).isEmpty := by
    intro backend
    rw [← valid, Bool.eq_iff_iff, Bool.not_eq_true', List.isEmpty_eq_false_iff, List.any_eq_true]
    rw [Ne, List.filter_eq_nil_iff]
    simp
  have series : ∀ quantity, (report.chart quantity backends).series = drawn.map fun backend =>
      ⟨backend, (validOf additions backend).map (point quantity)⟩ := by
    intro quantity
    simp only [series_chart, valid, kept]
    rfl
  have sizes : ∀ quantity, sizesByLabel quantity = drawn.map fun backend =>
      (backend, (validOf additions backend).map fun s => .ofNat s.size.toNat) := by
    intro quantity
    simp only [sizesByLabel, series, List.map_map]
    simp [Function.comp_def, point]
  refine ⟨series, series .time, ?_, fun _ _ => points_ne_nil, ?_⟩
  · rw [sizes, sizes]
  · exact fun quantity => isEmpty_chart_iff report quantity backends

/-- Additions under three labels in turn, of which two samples are valid. -/
def mixed : List Addition := [
  ⟨"tbb", 8, .ofBits 0x4008000000000000⟩, ⟨"compute", 2, .nan⟩, ⟨"stl", 4, .signedZero true⟩,
  ⟨"tbb", 2, .zero⟩, ⟨"compute", 4, .infinity false⟩, ⟨"tbb", 4, .infinity true⟩,
  ⟨"compute", 8, .ofBits 1⟩, ⟨"stl", 2, .ofBits 0xBFF0000000000000⟩]

/-- A backend that is asked for twice is drawn twice; an unknown one and one without a valid sample
are not drawn. -/
theorem chart_addAll_mixed :
    let chart := fun quantity => ((new "sort" "").addAll mixed).chart quantity
      ["tbb", "omp", "stl", "compute", "tbb"]
    (chart .time).series = [⟨"tbb", [(.ofNat 8, .ofBits 0x4008000000000000)]⟩,
      ⟨"compute", [(.ofNat 8, .ofBits 1)]⟩, ⟨"tbb", [(.ofNat 8, .ofBits 0x4008000000000000)]⟩] ∧
    ∀ quantity, ∀ s ∈ (chart quantity).series, s.points ≠ [] := by
  intro chart
  obtain ⟨-, time, -, nonempty, -⟩ :=
    chart_addAll "sort" "" mixed ["tbb", "omp", "stl", "compute", "tbb"]
  exact ⟨time.trans (by decide +kernel), nonempty⟩

end TimingSweep.Report
