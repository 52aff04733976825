import TimingSweep.Proofs.NearestDoubles
import TimingSweep.Proofs.PlottedPoints

/-!
# The order of plotted points

A plot keeps the order of what it shows, although each coordinate is rounded, and the rate three
times over: sizes ascend from left to right, and where one of two backends takes no longer at a
size, its rate is no lower.

* `le_ofRatio`, `ofNat_le`: rounding keeps the order of quotients;
* `exact_ofNat`: whole numbers up to `2 ^ 53` are doubles;
* `roundsEachStep_of_valid`: a rate is found by three roundings to the nearest double;
* `rate_le_rate`: a rate grows with the size and falls with the time;
* `plots_keep_order`: what this says about samples and about the plots of a report.
-/

namespace TimingSweep

namespace Binary64

variable {x y : Binary64}

theorem isNaN_ofRatio (negative : Bool) (num den : Nat) :
    (ofRatio negative num den).isNaN = false :=
  isNumber_iff.mpr (nearestRank_le_infinite ..)

/-- A larger quotient is not rounded to a smaller double. -/
theorem le_ofRatio {num den num' den' : Nat} (positive : 0 < den) (positive' : 0 < den')
    (h : num * den' ≤ num' * den) :
    le (ofRatio false num den) (ofRatio false num' den') = true := by
  rw [le_iff_rank_le (isNaN_ofRatio ..) (isNaN_ofRatio ..) rfl rfl]
  apply nearestRank_mono positive positive'
  rw [Nat.mul_right_comm, Nat.mul_right_comm num']
  exact Nat.mul_le_mul_right unitsInOne h

theorem le_infinity (number : x.isNaN = false) : le x (infinity false) = true := by
  have bound := isNumber_iff.mp number
  refine le_iff.mpr ⟨number, rfl, ?_⟩
  show x.place ≤ (infiniteRank : Int)
  unfold place
  split <;> omega

theorem ofNat_le {m n : Nat} (h : m ≤ n) : le (ofNat m) (ofNat n) = true :=
  le_ofRatio Nat.one_pos Nat.one_pos (Nat.mul_le_mul_right 1 h)

/-- A positive number of at most 53 binary digits can be filled up with zeros to 53. -/
theorem exists_filled {n : Nat} (positive : 0 < n) (bound : n ≤ 2 ^ 53) :
    ∃ filled ≤ 52, 2 ^ 52 ≤ n * 2 ^ filled ∧ n * 2 ^ filled ≤ 2 ^ 53 := by
  by_cases full : 2 ^ 52 ≤ n
  · exact ⟨0, by omega, by omega, by omega⟩
  · have order : n.log2 < 52 := (Nat.log2_lt positive.ne').mpr (by omega)
    have places : n.log2 + (52 - n.log2) = 52 := by omega
    refine ⟨52 - n.log2, by omega, ?_, ?_⟩
    · calc 2 ^ 52 = 2 ^ n.log2 * 2 ^ (52 - n.log2) := by rw [← Nat.pow_add, places]
        _ ≤ n * 2 ^ (52 - n.log2) := Nat.mul_le_mul_right _ (Nat.log2_self_le positive.ne')
    · calc n * 2 ^ (52 - n.log2) ≤ 2 ^ (n.log2 + 1) * 2 ^ (52 - n.log2) :=
          Nat.mul_le_mul_right _ (Nat.le_of_lt Nat.lt_log2_self)
        _ = 2 ^ 53 := by rw [← Nat.pow_add, Nat.add_right_comm, places]

/-- A number of at most 53 binary digits, some of them behind the point, is the magnitude of a
rank. -/
theorem exists_rank {n places : Nat} (bound : n ≤ 2 ^ 53) (normal : places ≤ 1022) :
    ∃ rank ≤ infiniteRank, units rank * 2 ^ places = n * unitsInOne := by
  rcases Nat.eq_zero_or_pos n with rfl | positive
  · exact ⟨0, Nat.zero_le _, by rw [units_zero, Nat.zero_mul, Nat.zero_mul]⟩
  · obtain ⟨filled, within, least, most⟩ := exists_filled positive bound
    refine ⟨(unitPlaces - places - filled) * 2 ^ 52 + n * 2 ^ filled, ?_, ?_⟩
    · simp only [unitPlaces, infiniteRank]
      omega
    · rw [units_eq (Or.inr ⟨least, most⟩), Nat.mul_assoc, Nat.mul_assoc, ← Nat.pow_add,
        ← Nat.pow_add, unitsInOne]
      congr 2
      simp only [unitPlaces]
      omega

theorem units_ofNat {n : Nat} (bound : n ≤ 2 ^ 53) : units (ofNat n).rank = n * unitsInOne := by
  obtain ⟨rank, finite, magnitude⟩ := exists_rank bound (Nat.zero_le 1022)
  rw [Nat.pow_zero, Nat.mul_one] at magnitude
  have same : (ofNat n).rank = rank := by
    show nearestRank (n * unitsInOne) 1 = rank
    rw [← magnitude, ← Nat.mul_one (units rank), nearestRank_units Nat.one_pos finite]
  rw [same, magnitude]

theorem exact_ofNat {n : Nat} (bound : n ≤ 2 ^ 53) : (ofNat n).exact = n := by
  have plus : (ofNat n).negative = false := rfl
  rw [exact_of_plus plus, units_ofNat bound, Nat.cast_mul,
    mul_div_cancel_right₀ _ unitsInOne_pos_rat.ne']

end Binary64

namespace Sample

open Binary64

/-- Each step on the way to a rate is exact but for its rounding to the nearest double. What no
second is left for has an infinite rate. -/
structure RoundsEachStep (s : Sample) : Prop where
  size : IsNearest s.size.toNat (ofNat s.size.toNat)
  thousandth : IsNearest (1 / 1000) Quantity.thousandth
  seconds : IsNearest (s.elapsed.exact * Quantity.thousandth.exact) s.seconds
  quotient : s.seconds.isZero = false →
    IsNearest ((ofNat s.size.toNat).exact / s.seconds.exact) (Quantity.rate.of s)
  infinite : s.seconds.isZero = true → Quantity.rate.of s = infinity false

variable {s : Sample}

theorem isNearest_seconds (valid : s.isValid = true) :
    IsNearest (s.elapsed.exact * Quantity.thousandth.exact) s.seconds := by
  obtain ⟨-, above⟩ := isValid_iff.mp valid
  obtain ⟨-, plus, -⟩ := zero_lt_iff.mp above
  have squared : 0 < unitsInOne * unitsInOne := Nat.mul_pos unitsInOne_pos unitsInOne_pos
  -- The product counts units of units, so that it is a quotient by their square.
  have whole : s.seconds = ofRatio false (units s.elapsed.rank * units Quantity.thousandth.rank)
      (unitsInOne * unitsInOne) := by
    have ranks := nearestRank_congr unitsInOne_pos squared
      (Nat.mul_assoc (units s.elapsed.rank * units Quantity.thousandth.rank) unitsInOne
        unitsInOne).symm
    rw [seconds_of_valid valid]
    simp only [ofRatio, ofUnits, ranks]
  have value : s.elapsed.exact * Quantity.thousandth.exact =
      ((units s.elapsed.rank * units Quantity.thousandth.rank : Nat) : ℚ) /
        (unitsInOne * unitsInOne : Nat) := by
    rw [exact_of_plus plus, exact_of_plus thousandth_bounds.2.1, div_mul_div_comm,
      Nat.cast_mul, Nat.cast_mul]
  rw [value, whole]
  exact isNearest_ofRatio _ squared false

theorem isNearest_rate (valid : s.isValid = true) (sized : 1 ≤ s.size)
    (nonzero : s.seconds.isZero = false) :
    IsNearest ((ofNat s.size.toNat).exact / s.seconds.exact) (Quantity.rate.of s) := by
  have plus : s.seconds.negative = false := by rw [seconds_of_valid valid]; rfl
  have plus' : (ofNat s.size.toNat).negative = false := rfl
  have positive : 0 < units s.seconds.rank := by
    rw [units_pos_iff]
    simp only [isZero, beq_eq_false_iff_ne] at nonzero
    omega
  rw [rate_of_valid valid sized, nonzero, if_neg Bool.false_ne_true, exact_of_plus plus,
    exact_of_plus plus', div_div_div_cancel_right₀ unitsInOne_pos_rat.ne']
  exact isNearest_ofRatio _ positive false

theorem roundsEachStep_of_valid (valid : s.isValid = true) (sized : 1 ≤ s.size) :
    s.RoundsEachStep where
  size := by
    have nearest := isNearest_ofRatio s.size.toNat Nat.one_pos false
    rwa [if_neg Bool.false_ne_true, Nat.cast_one, div_one] at nearest
  thousandth := by
    have nearest := isNearest_ofRatio 1 (show 0 < 1000 by decide) false
    rwa [if_neg Bool.false_ne_true, Nat.cast_one, Nat.cast_ofNat] at nearest
  seconds := isNearest_seconds valid
  quotient := isNearest_rate valid sized
  infinite none := by rw [rate_of_valid valid sized, none, if_pos rfl]

variable {a b : Sample}

theorem seconds_rank_le (valid : a.isValid = true) (valid' : b.isValid = true)
    (times : le a.elapsed b.elapsed = true) : a.seconds.rank ≤ b.seconds.rank := by
  obtain ⟨number, plus, -⟩ := zero_lt_iff.mp (isValid_iff.mp valid).2
  obtain ⟨number', plus', -⟩ := zero_lt_iff.mp (isValid_iff.mp valid').2
  have ranks := (le_iff_rank_le number number' plus plus').mp times
  rw [seconds_of_valid valid, seconds_of_valid valid']
  apply nearestRank_mono unitsInOne_pos unitsInOne_pos
  exact Nat.mul_le_mul_right _ (Nat.mul_le_mul_right _ (units_le ranks))

/-- What is no smaller and takes no longer has no lower rate. -/
theorem rate_le_rate (valid : a.isValid = true) (valid' : b.isValid = true) (sized : 1 ≤ a.size)
    (sized' : 1 ≤ b.size) (sizes : le (ofNat a.size.toNat) (ofNat b.size.toNat) = true)
    (times : le b.elapsed a.elapsed = true) :
    le (Quantity.rate.of a) (Quantity.rate.of b) = true := by
  have seconds := seconds_rank_le valid' valid times
  have sizes := (le_iff_rank_le (isNaN_ofRatio ..) (isNaN_ofRatio ..) rfl rfl).mp sizes
  have number := (zero_lt_iff.mp (rate_bounds valid sized).1).1
  rw [rate_of_valid valid' sized']
  cases zero : b.seconds.isZero with
  | true =>
    rw [if_pos rfl]
    exact le_infinity number
  | false =>
    simp only [isZero, beq_eq_false_iff_ne] at zero
    have nonzero : a.seconds.isZero = false := by
      simp only [isZero, beq_eq_false_iff_ne]
      omega
    rw [rate_of_valid valid sized, nonzero, if_neg Bool.false_ne_true, if_neg Bool.false_ne_true]
    apply le_ofRatio
    · exact units_pos_iff.mpr (by omega)
    · exact units_pos_iff.mpr (by omega)
    · exact Nat.mul_le_mul (units_le sizes) (units_le seconds)

end Sample

namespace Report

open Binary64

variable {r : Report}

/-- An ascending sweep is drawn from left to right. -/
theorem pairwise_points {backend : String}
    (ascending : (r.samples backend).Pairwise (·.size ≤ ·.size)) (quantity : Quantity) :
    (r.points quantity backend).Pairwise fun p q => le p.1 q.1 = true := by
  rw [points_eq, List.pairwise_map]
  apply (ascending.filter Sample.isValid).imp
  intro a b sizes
  exact ofNat_le (UInt64.le_iff_toNat_le.mp sizes)

/-- A point stands for a valid sample, which has a point of the same place in either plot. -/
theorem exists_of_getElem?_points {quantity : Quantity} {backend : String} {i : Nat}
    {p : Binary64 × Binary64} (found : (r.points quantity backend)[i]? = some p) :
    ∃ s ∈ r.samples backend, s.isValid = true ∧ p = point quantity s ∧
      ∀ other, (r.points other backend)[i]? = some (point other s) := by
  rw [points_eq, List.getElem?_map, Option.map_eq_some_iff] at found
  obtain ⟨s, held, rfl⟩ := found
  obtain ⟨member, valid⟩ := List.mem_filter.mp (List.mem_of_getElem? held)
  refine ⟨s, member, valid, rfl, fun other => ?_⟩
  rw [points_eq, List.getElem?_map, held]
  rfl

/-- At one size, of the points of a plot of times the lower one is not the lower one in the plot of
rates. -/
theorem rates_rank_as_times (sized : ∀ backend, ∀ s ∈ r.samples backend, 1 ≤ s.size)
    {backend other : String} {i j : Nat} {p q : Binary64 × Binary64}
    (found : (r.points .time backend)[i]? = some p) (found' : (r.points .time other)[j]? = some q)
    (size : p.1 = q.1) (times : le p.2 q.2 = true) :
    ∃ p' q', (r.points .rate backend)[i]? = some p' ∧ (r.points .rate other)[j]? = some q' ∧
      p'.1 = p.1 ∧ q'.1 = q.1 ∧ le q'.2 p'.2 = true := by
  obtain ⟨a, member, valid, rfl, points⟩ := exists_of_getElem?_points found
  obtain ⟨b, member', valid', rfl, points'⟩ := exists_of_getElem?_points found'
  refine ⟨_, _, points .rate, points' .rate, rfl, rfl, ?_⟩
  have sizes : le (ofNat b.size.toNat) (ofNat a.size.toNat) = true := by
    have same : ofNat a.size.toNat = ofNat b.size.toNat := size
    rw [same]
    exact le_refl (isNaN_ofRatio ..)
  exact Sample.rate_le_rate valid' valid (sized other b member') (sized backend a member) sizes
    times

/-- Plotted points keep the order of the samples. A larger size has no smaller coordinate, and up
to `2 ^ 53` the coordinate is the size itself; at one size the slower of two samples has no higher
rate, and of two that take equally long the larger one has no lower rate. So in a plot sizes that
ascend go from left to right, and at one size rates never contradict the times. -/
theorem plots_keep_order :
    (∀ a b : Sample, a.isValid = true → b.isValid = true → 1 ≤ a.size → 1 ≤ b.size →
      a.RoundsEachStep ∧
      (∀ quantity, a.size ≤ b.size → le (point quantity a).1 (point quantity b).1 = true) ∧
      (∀ quantity, a.size.toNat ≤ 2 ^ 53 → (point quantity a).1.exact = a.size.toNat) ∧
      (a.size = b.size → le a.elapsed b.elapsed = true →
        le (Quantity.rate.of b) (Quantity.rate.of a) = true) ∧
      (a.elapsed = b.elapsed → a.size ≤ b.size →
        le (Quantity.rate.of a) (Quantity.rate.of b) = true)) ∧
    ∀ r : Report, (∀ backend, ∀ s ∈ r.samples backend, 1 ≤ s.size) →
      (∀ quantity backend, (r.samples backend).Pairwise (·.size ≤ ·.size) →
        (r.points quantity backend).Pairwise fun p q => le p.1 q.1 = true) ∧
      ∀ (backend other : String) (i j : Nat) (p q : Binary64 × Binary64),
        (r.points .time backend)[i]? = some p → (r.points .time other)[j]? = some q →
        p.1 = q.1 → le p.2 q.2 = true →
        ∃ p' q', (r.points .rate backend)[i]? = some p' ∧ (r.points .rate other)[j]? = some q' ∧
          p'.1 = p.1 ∧ q'.1 = q.1 ∧ le q'.2 p'.2 = true := by
  constructor
  · intro a b valid valid' sized sized'
    have number : a.elapsed.isNaN = false := isNaN_of_isFinite (Sample.isValid_iff.mp valid).1
    refine ⟨Sample.roundsEachStep_of_valid valid sized, ?_, ?_, ?_, ?_⟩
    · exact fun _ sizes => ofNat_le (UInt64.le_iff_toNat_le.mp sizes)
    · exact fun _ small => exact_ofNat small
    · intro size times
      exact Sample.rate_le_rate valid' valid sized' sized (size ▸ le_refl (isNaN_ofRatio ..)) times
    · intro time sizes
      exact Sample.rate_le_rate valid valid' sized sized'
        (ofNat_le (UInt64.le_iff_toNat_le.mp sizes)) (time ▸ le_refl number)
  · intro r sized
    exact ⟨fun quantity _ ascending => pairwise_points ascending quantity,
      fun _ _ _ _ _ _ found found' => rates_rank_as_times sized found found'⟩

/-- Two sizes that are one double, and a time of which no second is left. -/
def crowded : List Addition := [
  ⟨"compute", ⟨0x20000000000000, .ofBits 1⟩⟩,
  ⟨"tbb", ⟨0x20000000000001, .ofBits 0x4008000000000000⟩⟩,
  ⟨"compute", ⟨0x20000000000001, .ofBits 0x3FF8000000000000⟩⟩]

theorem crowded_points_keep_order :
    let a : Sample := ⟨0x20000000000000, .ofBits 1⟩
    let b : Sample := ⟨0x20000000000001, .ofBits 0x4008000000000000⟩
    let r := (new "sort" "").addAll crowded
    (a.isValid = true ∧ b.isValid = true ∧ 1 ≤ a.size ∧ 1 ≤ b.size) ∧
    (point .rate a).1.exact = a.size.toNat ∧
    le (point .rate a).1 (point .rate b).1 = true ∧
    (∀ backend, ∀ s ∈ r.samples backend, 1 ≤ s.size) ∧
    ((r.points .rate "compute").Pairwise fun p q => le p.1 q.1 = true) ∧
    ∃ p q, (r.points .rate "compute")[0]? = some p ∧ (r.points .rate "tbb")[0]? = some q ∧
      le q.2 p.2 = true := by
  intro a b r
  obtain ⟨samples, plots⟩ := plots_keep_order
  have hypotheses : a.isValid = true ∧ b.isValid = true ∧ 1 ≤ a.size ∧ 1 ≤ b.size := by decide
  obtain ⟨-, across, exactly, -, -⟩ :=
    samples a b hypotheses.1 hypotheses.2.1 hypotheses.2.2.1 hypotheses.2.2.2
  have sized : ∀ backend, ∀ s ∈ r.samples backend, 1 ≤ s.size := by
    intro backend s held
    rw [samples_addAll_new] at held
    obtain ⟨addition, added, rfl⟩ := List.mem_map.mp held
    have each : ∀ addition ∈ crowded, 1 ≤ addition.sample.size := by decide
    exact each addition (List.mem_filter.mp added).1
  obtain ⟨upward, ranked⟩ := plots r sized
  obtain ⟨p, q, found, found', -, -, rates⟩ := ranked "compute" "tbb" 0 0 _ _ rfl rfl
    (by decide +kernel) (by decide +kernel)
  exact ⟨hypotheses, exactly .rate (by decide), across .rate (by decide), sized,
    upward .rate "compute" (by decide +kernel), p, q, found, found', rates⟩

end Report

end TimingSweep
