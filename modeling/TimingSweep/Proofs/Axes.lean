import TimingSweep.Drawing
import TimingSweep.Proofs.Boxes
import TimingSweep.Proofs.Labels
import TimingSweep.Proofs.Measurements
import TimingSweep.Proofs.PlottedPoints

/-!
# The axes around plotted points

An axis is meant to reach from below the least coordinate to above the greatest, at numbers that
have logarithms. Both ends are rounded. Two thirds of the smallest double are rounded up to itself,
and one and a half times a double from `Axis.firstOverflow` on are rounded to infinity; everywhere
else the ends are where they are meant to be.

* `low_lt_iff`, `lt_high`, `isFinite_high_iff`: the two ends, each by itself;
* `encloses_around_iff`: which coordinates have an axis around them;
* `axes_enclose_iff`: the axes for the times of a sweep;
* `extreme_times_are_not_enclosed`: a time that lies on the frame and one that has no upper end.
-/

namespace TimingSweep

namespace Binary64

/-- The smallest double above zero. -/
def smallest : Binary64 := ⟨false, 1, by decide⟩

theorem isFinite_iff {x : Binary64} : x.isFinite = true ↔ x.rank < infiniteRank := by
  simp [isFinite]

theorem units_lt_iff {a b : Nat} : units a < units b ↔ a < b := by
  constructor
  · intro less
    apply Nat.lt_of_not_le
    intro beyond
    exact Nat.not_lt_of_le (units_le beyond) less
  · exact units_lt

/-- A magnitude is at most twice the one before it, and twice only as the second of all. -/
theorem units_succ_bound {rank : Nat} (positive : 0 < rank) :
    units (rank + 1) < 2 * units rank ∨ units (rank + 1) = 2 * units rank ∧ rank = 1 := by
  obtain ⟨shift, digits, rfl, normal⟩ := exists_digits rank
  rw [Nat.add_assoc, units_eq (by omega), units_eq (by omega), ← Nat.mul_assoc]
  by_cases single : digits = 1
  · right
    subst single
    exact ⟨rfl, by omega⟩
  · left
    exact Nat.mul_lt_mul_of_pos_right (by omega) (Nat.two_pow_pos shift)

/-- Two thirds of a magnitude come to a smaller rank, but for the first. -/
theorem nearestRank_two_thirds_lt_iff {rank : Nat} (positive : 0 < rank)
    (bound : rank ≤ infiniteRank) : nearestRank (2 * units rank) 3 < rank ↔ 1 < rank := by
  rw [← Nat.not_le, le_nearestRank_iff (by decide) positive bound, Reaches, midpoint]
  constructor
  · intro short
    apply Nat.lt_of_le_of_ne positive
    rintro rfl
    exact short (by decide)
  · intro second
    obtain ⟨before, rfl⟩ : ∃ before, rank = before + 1 := ⟨rank - 1, by omega⟩
    have positive := units_pos_iff.mpr (show 0 < before by omega)
    rw [Nat.add_sub_cancel]
    rcases units_succ_bound (show 0 < before by omega) with less | ⟨twice, -⟩ <;> omega

/-- One and a half of a magnitude come to a larger rank. -/
theorem lt_nearestRank_three_halves {rank : Nat} (positive : 0 < rank)
    (bound : rank < infiniteRank) :
    rank < nearestRank (3 * units rank) 2 := by
  have next : rank + 1 ≤ infiniteRank := bound
  show rank + 1 ≤ _
  rw [le_nearestRank_iff (by decide) (Nat.add_one_pos rank) next, Reaches, midpoint,
    Nat.add_sub_cancel]
  rcases units_succ_bound positive with less | ⟨twice, rfl⟩
  · left
    omega
  · -- Of the two neighbours of one and a half units the second is the even one.
    right
    exact ⟨by omega, by decide⟩

end Binary64

open Binary64

namespace Axis

/-- The least double that has no finite double half as much again above it. -/
def firstOverflow : Binary64 := ⟨false, 2045 * 2 ^ 52 + 6004799503160661, by decide⟩

theorem padding_exact : padding.isFinite = true ∧ padding.negative = false ∧
    padding.isZero = false ∧ 2 * units padding.rank = 3 * unitsInOne := by
  decide +kernel

theorem firstOverflow_exact : 3 * units firstOverflow.rank = midpoint infiniteRank := by
  decide +kernel

variable {x y : Binary64}

/-- The lower end is two thirds of the least coordinate. -/
theorem div_padding (finite : x.isFinite = true) (above : lt .zero x = true) :
    (x / padding).isNaN = false ∧ (x / padding).negative = false ∧
      (x / padding).rank = nearestRank (2 * units x.rank) 3 := by
  obtain ⟨-, plus, nonzero⟩ := zero_lt_iff.mp above
  obtain ⟨bounded, positive, nonzero, exact_half⟩ := padding_exact
  rw [div_of_finite finite bounded (by simp [isZero]; omega), nonzero, if_neg (by simp), plus,
    positive]
  refine ⟨isNumber_iff.mpr (nearestRank_le_infinite ..), rfl, ?_⟩
  apply nearestRank_congr (units_pos_iff.mpr ?_) (by decide)
  · have swapped : 2 * units x.rank * units padding.rank =
        units x.rank * (2 * units padding.rank) := by
      rw [Nat.mul_comm 2, Nat.mul_assoc]
    rw [swapped, exact_half, Nat.mul_assoc, Nat.mul_comm unitsInOne]
  · exact Nat.pos_of_ne_zero (by simpa [isZero] using nonzero)

/-- The upper end is one and a half of the greatest coordinate. -/
theorem mul_padding (finite : x.isFinite = true) (above : lt .zero x = true) :
    (x * padding).isNaN = false ∧ (x * padding).negative = false ∧
      (x * padding).rank = nearestRank (3 * units x.rank) 2 := by
  obtain ⟨-, plus, -⟩ := zero_lt_iff.mp above
  obtain ⟨bounded, positive, -, exact_half⟩ := padding_exact
  rw [mul_of_finite finite bounded, plus, positive]
  refine ⟨isNumber_iff.mpr (nearestRank_le_infinite ..), rfl, ?_⟩
  apply nearestRank_congr unitsInOne_pos (by decide)
  rw [Nat.mul_assoc, Nat.mul_comm _ 2, exact_half, ← Nat.mul_assoc, Nat.mul_comm _ 3]

/-- The lower end is above zero. -/
theorem zero_lt_low (finite : x.isFinite = true) (above : lt .zero x = true) (y : Binary64) :
    lt .zero (around x y).low = true := by
  obtain ⟨number, plus, rank⟩ := div_padding finite above
  obtain ⟨-, -, nonzero⟩ := zero_lt_iff.mp above
  have positive := units_pos_iff.mpr nonzero
  refine zero_lt_iff.mpr ⟨number, plus, ?_⟩
  show 0 < (x / padding).rank
  rw [rank, nearestRank_pos_iff (by decide)]
  omega

/-- The lower end is below the least coordinate, unless this is the smallest double. -/
theorem low_lt_iff (finite : x.isFinite = true) (above : lt .zero x = true) (y : Binary64) :
    lt (around x y).low x = true ↔ lt smallest x = true := by
  obtain ⟨number, plus, rank⟩ := div_padding finite above
  obtain ⟨number', plus', nonzero⟩ := zero_lt_iff.mp above
  have low : lt (around x y).low x = true ↔ (x / padding).rank < x.rank :=
    lt_iff_rank_lt number number' plus plus'
  rw [low, lt_iff_rank_lt (x := smallest) rfl number' rfl plus', rank]
  exact nearestRank_two_thirds_lt_iff nonzero (Nat.le_of_lt (isFinite_iff.mp finite))

/-- The upper end is above the greatest coordinate. -/
theorem lt_high (finite : y.isFinite = true) (above : lt .zero y = true) (x : Binary64) :
    lt y (around x y).high = true := by
  obtain ⟨number, plus, rank⟩ := mul_padding finite above
  obtain ⟨number', plus', nonzero⟩ := zero_lt_iff.mp above
  refine (lt_iff_rank_lt number' number plus' plus).mpr ?_
  rw [rank]
  exact lt_nearestRank_three_halves nonzero (isFinite_iff.mp finite)

/-- The upper end is finite for coordinates below the first that overflows. -/
theorem isFinite_high_iff (finite : y.isFinite = true) (above : lt .zero y = true) (x : Binary64) :
    (around x y).high.isFinite = true ↔ lt y firstOverflow = true := by
  obtain ⟨-, -, rank⟩ := mul_padding finite above
  obtain ⟨number, plus, -⟩ := zero_lt_iff.mp above
  have high : (around x y).high.isFinite = true ↔ (y * padding).rank ≠ infiniteRank :=
    isFinite_iff_rank_ne (rank ▸ nearestRank_le_infinite ..)
  rw [high, lt_iff_rank_lt (y := firstOverflow) number rfl plus rfl, ← units_lt_iff, rank, Ne,
    nearestRank_eq_infinite_iff (by decide), ← firstOverflow_exact]
  omega

/-- The axis goes from a number above zero and below the coordinates, which lie from `least` to
`greatest`, to a finite number above them. -/
structure Encloses (a : Axis) (least greatest : Binary64) : Prop where
  positive : lt .zero a.low = true
  below : lt a.low least = true
  ordered : le least greatest = true
  above : lt greatest a.high = true
  finite : a.high.isFinite = true

theorem encloses_around_iff (least : x.isFinite = true ∧ lt .zero x = true)
    (greatest : y.isFinite = true ∧ lt .zero y = true) (ordered : le x y = true) :
    (around x y).Encloses x y ↔ lt smallest x = true ∧ lt y firstOverflow = true := by
  have low := low_lt_iff least.1 least.2 y
  have high := isFinite_high_iff greatest.1 greatest.2 x
  constructor
  · intro e
    exact ⟨low.mp e.below, high.mp e.finite⟩
  · rintro ⟨below, within⟩
    exact ⟨zero_lt_low least.1 least.2 y, low.mpr below, ordered, lt_high greatest.1 greatest.2 x,
      high.mpr within⟩

/-- The axis around positive numbers. -/
theorem encloses_ends_iff {xs : List Binary64} (ends : AreEnds x y xs)
    (positive : ∀ v ∈ xs, v.isFinite = true ∧ lt .zero v = true) :
    (around x y).Encloses x y ↔
      ∀ v ∈ xs, lt smallest v = true ∧ lt v firstOverflow = true := by
  obtain ⟨least_mem, greatest_mem, between⟩ := ends
  rw [encloses_around_iff (positive x least_mem) (positive y greatest_mem) (between x least_mem).2]
  constructor
  · rintro ⟨least, greatest⟩ v member
    obtain ⟨from_least, to_greatest⟩ := between v member
    exact ⟨lt_of_lt_of_le least from_least, lt_of_le_of_lt to_greatest greatest⟩
  · intro within
    exact ⟨(within x least_mem).1, (within y greatest_mem).2⟩

end Axis

/-- Sizes are neither so small nor so large that an axis could not go around them. -/
theorem Sample.size_within {s : Sample} (sized : 1 ≤ s.size) :
    (ofNat s.size.toNat).isFinite = true ∧ lt smallest (ofNat s.size.toNat) = true ∧
      lt (ofNat s.size.toNat) Axis.firstOverflow = true := by
  obtain ⟨finite, from_one, most⟩ := size_bounds sized
  have number := isNaN_of_isFinite finite
  have start : units smallest.rank < unitsInOne := by decide +kernel
  have room : 2 ^ 64 * unitsInOne < units Axis.firstOverflow.rank := by decide +kernel
  rw [lt_iff_rank_lt rfl number rfl rfl, lt_iff_rank_lt number rfl rfl rfl]
  exact ⟨finite, units_lt_iff.mp (Nat.lt_of_lt_of_le start from_one),
    units_lt_iff.mp (Nat.lt_of_le_of_lt most room)⟩

namespace Report

theorem mem_points_chart {r : Report} {quantity : Quantity} {backends : List String}
    {p : Binary64 × Binary64} :
    p ∈ (r.chart quantity backends).points ↔
      ∃ backend ∈ backends, ∃ s ∈ r.samples backend, s.isValid = true ∧ point quantity s = p := by
  rw [Chart.points, series_chart, List.flatMap_map, List.mem_flatMap]
  simp only [List.mem_filter, List.mem_map, List.any_eq_true]
  constructor
  · rintro ⟨backend, ⟨asked, -⟩, s, ⟨held, valid⟩, rfl⟩
    exact ⟨backend, asked, s, held, valid, rfl⟩
  · rintro ⟨backend, asked, s, held, valid, rfl⟩
    exact ⟨backend, ⟨asked, s, held, valid⟩, s, ⟨held, valid⟩, rfl⟩

variable {r : Report} {backends : List String}

/-- Of a chart of times the horizontal axis goes around the sizes, and the vertical one around the
times unless one of them is the smallest double or overflows. -/
theorem axes_chart (sized : ∀ backend, ∀ s ∈ r.samples backend, 1 ≤ s.size)
    (drawn : ∃ backend ∈ backends, ∃ s ∈ r.samples backend, s.isValid = true) :
    ∃ box, (r.chart .time backends).bounds = some box ∧
      box.IsTight (r.chart .time backends).points ∧
      Drawing.axes (r.chart .time backends) =
        (.around box.left box.right, .around box.bottom box.top) ∧
      (Axis.around box.left box.right).Encloses box.left box.right ∧
      ((Axis.around box.bottom box.top).Encloses box.bottom box.top ↔
        ∀ backend ∈ backends, ∀ s ∈ r.samples backend, s.isValid = true →
          lt smallest s.elapsed = true ∧ lt s.elapsed Axis.firstOverflow = true) := by
  have sizes : ∀ p ∈ (r.chart .time backends).points, p.1.isFinite = true ∧
      lt smallest p.1 = true ∧ lt p.1 Axis.firstOverflow = true := by
    intro p member
    obtain ⟨backend, -, s, held, -, rfl⟩ := mem_points_chart.mp member
    exact Sample.size_within (sized backend s held)
  have times : ∀ p ∈ (r.chart .time backends).points,
      p.2.isFinite = true ∧ lt .zero p.2 = true := by
    intro p member
    obtain ⟨backend, -, s, -, valid, rfl⟩ := mem_points_chart.mp member
    exact Sample.isValid_iff.mp valid
  cases bounds : (r.chart .time backends).bounds with
  | none =>
    obtain ⟨backend, asked, s, held, valid⟩ := drawn
    have member : point .time s ∈ (r.chart .time backends).points :=
      mem_points_chart.mpr ⟨backend, asked, s, held, valid, rfl⟩
    rw [Chart.bounds_eq_none.mp bounds] at member
    cases member
  | some box =>
    have tight : box.IsTight (r.chart .time backends).points :=
      Chart.isTight_of_bounds bounds fun p member =>
        ⟨isNaN_of_isFinite (sizes p member).1, isNaN_of_isFinite (times p member).1⟩
    refine ⟨box, rfl, tight, by rw [Drawing.axes, bounds], ?_, ?_⟩
    · have above : lt .zero smallest = true := by decide
      refine (Axis.encloses_ends_iff tight.across ?_).mpr ?_
      · exact List.forall_mem_map.mpr fun p member =>
          ⟨(sizes p member).1, lt_of_lt_of_le above (le_of_lt (sizes p member).2.1)⟩
      · exact List.forall_mem_map.mpr fun p member => (sizes p member).2
    · rw [Axis.encloses_ends_iff tight.upward (List.forall_mem_map.mpr times), List.forall_mem_map]
      constructor
      · intro within backend asked s held valid
        exact within _ (mem_points_chart.mpr ⟨backend, asked, s, held, valid, rfl⟩)
      · intro within p member
        obtain ⟨backend, asked, s, held, valid, rfl⟩ := mem_points_chart.mp member
        exact within backend asked s held valid

end Report

theorem Request.sized_filed {request : Request} (accepted : request.check = .ok ())
    (source : TimingSource) (generatedAt : String) (competitors : List String) (backend : String) :
    ∀ s ∈ (request.filed source generatedAt competitors).samples backend, 1 ≤ s.size := by
  intro s held
  have member : s.size ∈ ((request.filed source generatedAt competitors).samples backend).map
      (·.size) := List.mem_map_of_mem held
  rw [map_size_samples_filed, List.mem_flatten] at member
  obtain ⟨sizes, repeated, member⟩ := member
  rw [List.eq_of_mem_replicate repeated] at member
  obtain ⟨-, nonzero, -⟩ := check_eq_ok.mp accepted
  have positive : s.size ≠ 0 := fun zero => nonzero (zero ▸ member)
  rw [UInt64.le_iff_toNat_le]
  exact Nat.pos_of_ne_zero fun zero => positive (UInt64.toNat_inj.mp zero)

/-- A sweep comes to a report, and wherever a chart of its times has a point, the horizontal axis
goes around all sizes and the vertical one around all times: they start above zero and below every
coordinate, and end at a finite number above them. The vertical axis does not exactly if one of the
times is the smallest double or from `Axis.firstOverflow` on. -/
theorem axes_enclose_iff (registry : Registry) (source : TimingSource) (generatedAt : String)
    (order : ParameterOrder) {request : Request} (accepted : request.check = .ok ()) :
    ∃ report, (Sweep.run registry source generatedAt order request).result = .ok report ∧
      ∀ backends, (∃ backend ∈ backends, ∃ s ∈ report.samples backend, s.isValid = true) →
        let chart := report.chart .time backends
        ∃ box, chart.bounds = some box ∧ box.IsTight chart.points ∧
          Drawing.axes chart = (.around box.left box.right, .around box.bottom box.top) ∧
          (Axis.around box.left box.right).Encloses box.left box.right ∧
          ((Axis.around box.bottom box.top).Encloses box.bottom box.top ↔
            ∀ backend ∈ backends, ∀ s ∈ report.samples backend, s.isValid = true →
              lt smallest s.elapsed = true ∧ lt s.elapsed Axis.firstOverflow = true) := by
  have run := run_of_accepted registry source generatedAt order accepted
  refine ⟨_, congrArg Sweep.result run, fun backends drawn => ?_⟩
  exact Report.axes_chart (Request.sized_filed accepted source generatedAt _) drawn

/-- A host whose only executable, of the primary implementation of `sort`, takes one time at size
two and another at all other sizes. -/
def hostTiming (two others : String) : Host where
  workspace := ⟨.folder [("bin", .folder [("perf_sort", .file (.program ⟨fun arguments =>
    let time := if arguments = ["2"] then two else others
    .ok ⟨Utf8.encode ("time: " ++ time ++ " ms\n").toList, .ofExitCode 0⟩⟩))])], []⟩
  search _ := .error .noEntry

/-- Both axes go around half a millisecond at size two and forty at size four; a competitor that has
no executable has no time to go around. -/
theorem usual_times_are_enclosed :
    let request : Request := ⟨"sort", [2, 4], ["tbb"]⟩
    let source := Measurement.source (hostTiming "0.5" "40") "bin"
    request.check = .ok () ∧
    ∃ report, (Sweep.run .builtin source "" .minimumFirst request).result = .ok report ∧
      (∃ backend ∈ ["compute", "tbb"], ∃ s ∈ report.samples backend, s.isValid = true) ∧
      ∃ box, (report.chart .time ["compute", "tbb"]).bounds = some box ∧
        (Axis.around box.left box.right).Encloses box.left box.right ∧
        (Axis.around box.bottom box.top).Encloses box.bottom box.top := by
  have accepted : Request.check ⟨"sort", [2, 4], ["tbb"]⟩ = .ok () := rfl
  intro request source
  obtain ⟨report, ok, axes⟩ := axes_enclose_iff .builtin source "" .minimumFirst accepted
  have filed : request.filed source "" (Registry.builtin.eligible request) = report :=
    Except.ok.inj
      ((congrArg Sweep.result
        (run_of_accepted .builtin source "" .minimumFirst accepted)).symm.trans ok)
  have primary : report.samples "compute" = [⟨2, .ofRatio false 1 2⟩, ⟨4, .ofNat 40⟩] := by
    rw [← filed]
    decide +kernel
  have competitor : report.samples "tbb" = [⟨2, .zero⟩, ⟨4, .zero⟩] := by
    rw [← filed]
    decide +kernel
  have drawn : ∃ backend ∈ ["compute", "tbb"], ∃ s ∈ report.samples backend,
      s.isValid = true := by
    refine ⟨"compute", List.mem_cons_self, ?_⟩
    rw [primary]
    decide +kernel
  obtain ⟨box, bounds, -, -, across, upward⟩ := axes _ drawn
  refine ⟨accepted, report, ok, drawn, box, bounds, across, upward.mpr ?_⟩
  rw [List.forall_mem_cons, List.forall_mem_singleton, primary, competitor]
  decide +kernel

/-- Of the smallest double and a very large one the former is the lower end itself, so that its
point lies on the frame, and the upper end is infinite. -/
theorem extreme_times_are_not_enclosed :
    let request : Request := ⟨"sort", [2, 4], []⟩
    let source := Measurement.source (hostTiming "5e-324" "1.5e308") "bin"
    request.check = .ok () ∧
    ∃ report, (Sweep.run .builtin source "" .minimumFirst request).result = .ok report ∧
      let chart := report.chart .time ["compute"]
      (∃ s ∈ report.samples "compute", s.isValid = true) ∧
      (Binary64.ofNat 2, smallest) ∈ chart.points ∧
      (Drawing.axes chart).2 = ⟨smallest, .infinity false⟩ :=
  ⟨rfl, _, rfl, by decide +kernel⟩

end TimingSweep
