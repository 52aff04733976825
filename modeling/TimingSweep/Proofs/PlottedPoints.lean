import TimingSweep.Proofs.Charts
import TimingSweep.Proofs.Nearest
import TimingSweep.Proofs.Order

/-!
# Plotted points

Of a valid sample with a size the plotted coordinates are numbers above zero, and finite but for the
rate of a very short time: where the size over the seconds overflows, and where the seconds are
rounded to zero, the rate is infinite.

* `rate_bounds`: the rate of a valid sample;
* `lt_leastSafe_of_overflows`: only times below `2 ^ -949` milliseconds overflow;
* `plotted_points_bounds`: the points of a series;
* `shortest_times_have_infinite_rates`: two valid times that are too short.
-/

namespace TimingSweep

namespace Binary64

/-- A quotient of at least one over a finite number never vanishes, but it may overflow. -/
theorem ofRatio_bounds {num den : Nat} (positive : 0 < den) (bound : den ≤ units infiniteRank)
    (large : unitsInOne ≤ num) :
    lt .zero (ofRatio false num den) = true ∧
      ((ofRatio false num den).isFinite = true ↔
        ¬ midpoint infiniteRank * den ≤ 2 * (num * unitsInOne)) := by
  have most : (ofRatio false num den).rank ≤ infiniteRank := nearestRank_le_infinite ..
  constructor
  · rw [zero_lt_iff]
    have number : (ofRatio false num den).isNaN = false := by simpa [isNaN] using most
    refine ⟨number, rfl, (nearestRank_pos_iff positive).mpr ?_⟩
    have least : unitsInOne * unitsInOne ≤ num * unitsInOne := Nat.mul_le_mul_right _ large
    have room : units infiniteRank < 2 * (unitsInOne * unitsInOne) := by decide +kernel
    omega
  · rw [isFinite_iff_rank_ne most]
    exact not_congr (nearestRank_eq_infinite_iff positive)

end Binary64

namespace Sample

open Binary64

/-- The time of a sample in seconds. -/
def seconds (s : Sample) : Binary64 := s.elapsed * Quantity.thousandth

/-- The time of a sample is so short that its size divided by the seconds is rounded to infinity.
Times that come to no second at all are among them. -/
def Overflows (s : Sample) : Prop :=
  midpoint infiniteRank * units s.seconds.rank ≤
    2 * (units (ofNat s.size.toNat).rank * unitsInOne)

instance (s : Sample) : Decidable s.Overflows := inferInstanceAs (Decidable (_ ≤ _))

theorem thousandth_bounds : Quantity.thousandth.isFinite = true ∧
    Quantity.thousandth.negative = false ∧ units Quantity.thousandth.rank ≤ unitsInOne ∧
    unitsInOne ≤ 2 ^ 10 * units Quantity.thousandth.rank := by
  decide +kernel

variable {s : Sample}

theorem seconds_of_valid (valid : s.isValid = true) : s.seconds =
    ofUnits false (units s.elapsed.rank * units Quantity.thousandth.rank) unitsInOne := by
  obtain ⟨finite, above⟩ := isValid_iff.mp valid
  obtain ⟨-, plus, -⟩ := zero_lt_iff.mp above
  obtain ⟨small, positive, -⟩ := thousandth_bounds
  rw [seconds, mul_of_finite finite small, plus, positive]
  rfl

theorem isFinite_seconds (valid : s.isValid = true) : s.seconds.isFinite = true := by
  obtain ⟨finite, -⟩ := isValid_iff.mp valid
  have bound : s.elapsed.rank < infiniteRank := by simpa [isFinite] using finite
  have least : s.seconds.rank ≤ s.elapsed.rank := by
    rw [← nearestRank_units unitsInOne_pos (Nat.le_of_lt bound), seconds_of_valid valid]
    apply nearestRank_mono unitsInOne_pos unitsInOne_pos
    exact Nat.mul_le_mul_right _ (Nat.mul_le_mul_left _ thousandth_bounds.2.2.1)
  simp only [isFinite, decide_eq_true_eq]
  omega

theorem size_bounds (sized : 1 ≤ s.size) : (ofNat s.size.toNat).isFinite = true ∧
    unitsInOne ≤ units (ofNat s.size.toNat).rank ∧
    units (ofNat s.size.toNat).rank ≤ 2 ^ 64 * unitsInOne :=
  ofNat_bounds sized (Nat.le_of_lt s.size.toNat_lt)

theorem rate_of_valid (valid : s.isValid = true) (sized : 1 ≤ s.size) :
    Quantity.rate.of s = if s.seconds.isZero then infinity false
      else ofRatio false (units (ofNat s.size.toNat).rank) (units s.seconds.rank) := by
  obtain ⟨finite, large, -⟩ := size_bounds sized
  have nonzero : (ofNat s.size.toNat).isZero = false := by
    have := units_pos_iff.mp (Nat.lt_of_lt_of_le unitsInOne_pos large)
    simp only [isZero, beq_eq_false_iff_ne]
    omega
  have plus : s.seconds.negative = false := by
    rw [seconds_of_valid valid]
    rfl
  show ofNat s.size.toNat / s.seconds = _
  rw [div_of_finite finite (isFinite_seconds valid) nonzero, plus]
  rfl

/-- The rate of a valid sample is above zero, and finite unless it overflows. -/
theorem rate_bounds (valid : s.isValid = true) (sized : 1 ≤ s.size) :
    lt .zero (Quantity.rate.of s) = true ∧
      ((Quantity.rate.of s).isFinite = true ↔ ¬ s.Overflows) := by
  rw [rate_of_valid valid sized]
  have finite := isFinite_seconds valid
  simp only [isFinite, decide_eq_true_eq] at finite
  cases zero : s.seconds.isZero with
  | true =>
    have rank : s.seconds.rank = 0 := by simpa [isZero] using zero
    rw [if_pos rfl, Overflows, rank, show units 0 = 0 by decide]
    exact ⟨by decide, by simp [isFinite, infinity]⟩
  | false =>
    have positive : 0 < units s.seconds.rank := by
      rw [units_pos_iff]
      simp only [isZero, beq_eq_false_iff_ne] at zero
      omega
    rw [if_neg (by simp)]
    exact ofRatio_bounds positive (units_le (Nat.le_of_lt finite)) (size_bounds sized).2.1

/-- The double `2 ^ -949`: no size is so large that its rate overflows from this time on. -/
def leastSafe : Binary64 := ⟨false, 74 * 2 ^ 52, by decide⟩

theorem lt_leastSafe_of_overflows (valid : s.isValid = true) (sized : 1 ≤ s.size)
    (overflows : s.Overflows) : lt s.elapsed leastSafe = true := by
  obtain ⟨finite, above⟩ := isValid_iff.mp valid
  obtain ⟨number, plus, -⟩ := zero_lt_iff.mp above
  suffices less : s.elapsed.rank < 74 * 2 ^ 52 by
    have below : (s.elapsed.rank : Int) < (74 * 2 ^ 52 : Nat) := Int.ofNat_lt.mpr less
    rw [lt, number, show leastSafe.isNaN = false from rfl]
    simpa [place, plus, leastSafe] using below
  apply Nat.lt_of_not_le
  intro rank
  have elapsed : 2 ^ 125 ≤ units s.elapsed.rank := units_power 73 ▸ units_le rank
  have seconds : 2 ^ 115 ≤ units s.seconds.rank := by
    rw [← units_power 63, seconds_of_valid valid]
    apply units_le
    apply le_nearestRank unitsInOne_pos (by decide)
    rw [units_power]
    have scaled := Nat.mul_le_mul elapsed (Nat.le_refl (units Quantity.thousandth.rank))
    have small := thousandth_bounds.2.2.2
    omega
  obtain ⟨-, -, size⟩ := size_bounds sized
  have upper := Nat.mul_le_mul_right unitsInOne size
  have lower := Nat.mul_le_mul_left (midpoint infiniteRank) seconds
  have room : 2 * (2 ^ 64 * unitsInOne * unitsInOne) < midpoint infiniteRank * 2 ^ 115 := by
    decide +kernel
  rw [Overflows] at overflows
  omega

end Sample

namespace Report

open Binary64

/-- The points of a series are positive numbers at finite sizes. Their values are finite too, except
for the rates of the samples that overflow, all of which take less than `Sample.leastSafe`. -/
theorem plotted_points_bounds {r : Report} (sized : ∀ backend, ∀ s ∈ r.samples backend, 1 ≤ s.size)
    (quantity : Quantity) {backend : String} {line : Series}
    (drawn : r.line? quantity backend = some line) :
    (∀ p ∈ line.points, p.1.isFinite = true ∧ lt .zero p.1 = true ∧ lt .zero p.2 = true) ∧
    ((∀ p ∈ line.points, p.2.isFinite = true) ↔
      quantity = .time ∨ ∀ s ∈ r.samples backend, s.isValid = true → ¬ s.Overflows) ∧
    ∀ s ∈ r.samples backend, s.isValid = true → s.Overflows →
      lt s.elapsed Sample.leastSafe = true := by
  rw [line?_eq_some drawn]
  simp only [List.forall_mem_map, List.mem_filter, and_imp, point]
  refine ⟨?_, ?_, ?_⟩
  · intro s held valid
    obtain ⟨finite, large, -⟩ := Sample.size_bounds (sized backend s held)
    have above : lt .zero (ofNat s.size.toNat) = true := by
      refine zero_lt_iff.mpr ⟨isNaN_of_isFinite finite, rfl, ?_⟩
      exact units_pos_iff.mp (Nat.lt_of_lt_of_le unitsInOne_pos large)
    refine ⟨finite, above, ?_⟩
    cases quantity with
    | time => exact (Sample.isValid_iff.mp valid).2
    | rate => exact (Sample.rate_bounds valid (sized backend s held)).1
  · cases quantity with
    | time =>
      refine iff_of_true ?_ (Or.inl rfl)
      exact fun s _ valid => (Sample.isValid_iff.mp valid).1
    | rate =>
      have bounds : ∀ s ∈ r.samples backend, s.isValid = true →
          ((Quantity.rate.of s).isFinite = true ↔ ¬ s.Overflows) := fun s held valid =>
        (Sample.rate_bounds valid (sized backend s held)).2
      constructor
      · intro finite
        exact Or.inr fun s held valid => (bounds s held valid).mp (finite s held valid)
      · rintro (time | within) s held valid
        · cases time
        · exact (bounds s held valid).mpr (within s held valid)
  · intro s held valid
    exact Sample.lt_leastSafe_of_overflows valid (sized backend s held)

/-- A time of a second and one of half a millisecond have finite rates. -/
theorem long_times_have_finite_rates :
    let r := ((new "sort" "").add "tbb" 2 (.ofBits 0x408F400000000000)).add "tbb" 8
      (.ofBits 0x3FE0000000000000)
    (∀ backend, ∀ s ∈ r.samples backend, 1 ≤ s.size) ∧
    ∃ line, r.line? .rate "tbb" = some line ∧ line.points.length = 2 ∧
      ∀ p ∈ line.points, p.2.isFinite = true := by
  intro r
  have sized : ∀ backend, ∀ s ∈ r.samples backend, 1 ≤ s.size := by
    intro backend
    by_cases same : backend = "tbb"
    · subst same
      decide
    · simp [r, new, Report.add, samples, Filing.add, Filing.get, Ne.symm same]
  have drawn : r.line? .rate "tbb" = some _ := rfl
  obtain ⟨-, finite, -⟩ := plotted_points_bounds sized .rate drawn
  refine ⟨sized, _, rfl, rfl, finite.mpr (Or.inr ?_)⟩
  decide +kernel

/-- The smallest double is a valid time, and so is one of `10 ^ -300` milliseconds; the former comes
to no second at all. -/
theorem shortest_times_have_infinite_rates :
    let r := ((new "sort" "").add "compute" 1 (.ofBits 1)).add "compute" 0x100000
      (.ofBits 0x01A56E1FC2F8F359)
    (∀ s ∈ r.samples "compute", 1 ≤ s.size ∧ s.isValid = true) ∧
    r.line? .rate "compute" =
      some ⟨"compute", [(.ofNat 1, .infinity false), (.ofNat 0x100000, .infinity false)]⟩ ∧
    (infinity false).isFinite = false := by
  decide +kernel

end Report

end TimingSweep
