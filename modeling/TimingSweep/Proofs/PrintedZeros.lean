import TimingSweep.Proofs.Charts
import TimingSweep.Proofs.Order
import TimingSweep.Proofs.ReportedSigns

/-!
# Times printed as zero

The text report and the plot each have their own sign that nothing was measured: a time whose digits
are all zeros, and a sample without a point. They come apart only where a time above zero is rounded
away, which happens up to half a millionth of a millisecond.

* `isLeftOut_iff`, `isDrawn_iff`: validity alone decides whether a sample has a point;
* `printsZeros_iff`, `row_eq_missing_iff`: which times are printed with zeros only, and which like
  the one that stands for none;
* `zeros_and_gaps`: the two signs compared, for all times that come into a report;
* `tiny_time_is_printed_as_zero`: a time that is printed as zero and drawn.
-/

namespace TimingSweep

theorem roundHalfEven_eq_zero_iff {num den : Nat} (positive : 0 < den) :
    roundHalfEven num den = 0 ↔ 2 * num ≤ den := by
  constructor
  · intro zero
    have near := le_roundHalfEven num den positive
    rwa [zero, Nat.mul_zero, Nat.mul_zero, Nat.zero_add] at near
  · intro small
    have quotient : num / den = 0 := Nat.div_eq_of_lt (by omega)
    have rest : num % den = num := Nat.mod_eq_of_lt (by omega)
    simp only [roundHalfEven, quotient, rest]
    split
    · rfl
    · rw [if_neg (by omega)]

/-- Only zero is written with zeros alone. -/
theorem toDigits_zeros_iff (n : Nat) : (∀ c ∈ Nat.toDigits 10 n, c = '0') ↔ n = 0 := by
  constructor
  · intro zeros
    have same : Nat.toDigits 10 n = List.replicate (Nat.toDigits 10 n).length '0' :=
      List.eq_replicate_of_mem zeros
    rw [← Nat.ofDigitChars_ten_toDigits (n := n), same, Nat.ofDigitChars_replicate_zero,
      Nat.mul_zero]
  · rintro rfl c member
    exact List.mem_singleton.mp member

/-! ## Samples without a point -/

namespace Sample

/-- No report has other series for the sample, whatever is added before it and after it. -/
def IsLeftOut (s : Sample) (quantity : Quantity) : Prop :=
  ∀ (r : Report) (backend : String) (later : List Addition),
    (r.addAll (⟨backend, s⟩ :: later)).line? quantity = (r.addAll later).line? quantity

/-- Between the points of the samples before it and after it the sample has one of its own. -/
def IsDrawn (s : Sample) (quantity : Quantity) : Prop :=
  ∀ (r : Report) (backend : String) (later : List Addition),
    (r.addAll (⟨backend, s⟩ :: later)).points quantity backend =
      r.points quantity backend ++ Report.point quantity s ::
        (Report.validOf later backend).map (Report.point quantity)

variable {s : Sample} (quantity : Quantity)

theorem isLeftOut_of_invalid (invalid : s.isValid = false) : s.IsLeftOut quantity := by
  intro r backend later
  funext other
  have same : Report.validOf (⟨backend, s⟩ :: later) other = Report.validOf later other := by
    rw [Report.validOf, List.filter_cons, invalid, Bool.and_false, if_neg Bool.false_ne_true]
    rfl
  rw [Report.line?, Report.line?, Report.filter_samples_addAll_append, same,
    Report.filter_samples_addAll_append]

theorem isDrawn_of_valid (valid : s.isValid = true) : s.IsDrawn quantity := by
  intro r backend later
  have first : Report.validOf (⟨backend, s⟩ :: later) backend =
      s :: Report.validOf later backend := by
    rw [Report.validOf, List.filter_cons, valid, Bool.and_true, if_pos (decide_eq_true rfl)]
    rfl
  rw [Report.points_eq, Report.filter_samples_addAll_append, first, List.map_append,
    ← Report.points_eq, List.map_cons]

/-- A sample cannot be left out and drawn. -/
theorem IsLeftOut.not_isDrawn {quantity : Quantity} (leftOut : s.IsLeftOut quantity) :
    ¬ s.IsDrawn quantity := by
  intro drawn
  have same := congrFun (leftOut (.new "" "") "" []) ""
  have points := drawn (.new "" "") "" []
  rw [Report.points, same] at points
  cases points

theorem isLeftOut_iff : s.IsLeftOut quantity ↔ s.isValid = false := by
  constructor
  · intro leftOut
    rw [← Bool.not_eq_true]
    exact fun valid => leftOut.not_isDrawn (isDrawn_of_valid quantity valid)
  · exact isLeftOut_of_invalid quantity

theorem isDrawn_iff : s.IsDrawn quantity ↔ s.isValid = true := by
  constructor
  · intro drawn
    rw [← Bool.not_eq_false]
    exact fun invalid => (isLeftOut_of_invalid quantity invalid).not_isDrawn drawn
  · exact isDrawn_of_valid quantity

end Sample

/-! ## Times that are rounded away -/

namespace Binary64

/-- The largest number of milliseconds that is rounded to zero at six places. -/
def halfMillionth : ℚ := 1 / 2000000

variable {x : Binary64}

theorem scaled_eq_zero_iff (nonneg : 0 ≤ x.exact) :
    scaled Report.timePlaces x = 0 ↔ x.exact ≤ halfMillionth := by
  have magnitude : x.exact = units x.rank / unitsInOne := by
    cases minus : x.negative with
    | false => exact exact_of_plus minus
    | true =>
      have rank : units (signedZero true).rank = 0 := units_zero
      rw [eq_signedZero_of_nonneg nonneg minus, exact_signedZero, rank, Nat.cast_zero, zero_div]
  rw [scaled, roundHalfEven_eq_zero_iff unitsInOne_pos, magnitude,
    div_le_iff₀ unitsInOne_pos_rat, halfMillionth, Report.timePlaces, ← Nat.cast_le (α := ℚ)]
  push_cast
  constructor
  · intro small
    linarith
  · intro small
    linarith

/-- The comparison with zero goes by the number. -/
theorem zero_lt_iff_exact (number : x.isNaN = false) : lt zero x = true ↔ 0 < x.exact := by
  rw [zero_lt_iff, and_iff_right number]
  cases sign : x.negative with
  | true =>
    have below := exact_of_minus_le sign
    constructor
    · rintro ⟨plus, -⟩
      cases plus
    · intro above
      exact absurd above (not_lt.mpr below)
  | false =>
    rw [and_iff_right rfl, exact_of_plus sign, ← units_pos_iff,
      div_pos_iff_of_pos_right unitsInOne_pos_rat, Nat.cast_pos]

section Printed

variable (finite : x.isFinite = true) (places : Nat)
include finite

theorem zeros_of_fixed_iff :
    (∀ c ∈ fixed places x, c.isDigit = true → c = '0') ↔ scaled places x = 0 := by
  rw [fixed_of_finite finite]
  generalize scaled places x = n
  constructor
  · intro zeros
    simp only [List.mem_append, List.mem_singleton] at zeros
    have whole : ∀ c ∈ Nat.toDigits 10 (n / 10 ^ places), c = '0' := fun c member =>
      zeros c (by simp [member]) (isDigit_toDigits _ c member)
    have fraction : ∀ c ∈ Nat.toDigits 10 (n % 10 ^ places), c = '0' := fun c member =>
      zeros c (by simp [member]) (isDigit_toDigits _ c member)
    rw [toDigits_zeros_iff] at whole fraction
    rw [← Nat.div_add_mod n (10 ^ places), whole, fraction, Nat.mul_zero]
  · rintro rfl c member digit
    rw [Nat.zero_div, Nat.zero_mod] at member
    simp only [List.mem_append, List.mem_singleton, List.mem_replicate] at member
    rcases member with (((signed | whole) | rfl) | ⟨-, zero⟩) | fraction
    · unfold sign at signed
      split at signed
      · rw [List.mem_singleton.mp signed] at digit
        exact absurd digit (by decide)
      · cases signed
    · exact (toDigits_zeros_iff 0).mpr rfl c whole
    · exact absurd digit (by decide)
    · exact zero
    · exact (toDigits_zeros_iff 0).mpr rfl c fraction

/-- A number is printed like zero if nothing is left of it and it has no sign. -/
theorem fixed_eq_fixed_zero_iff :
    fixed places x = fixed places .zero ↔ scaled places x = 0 ∧ x.negative = false := by
  have bounded : (zero : Binary64).isFinite = true := rfl
  have nothing : scaled places zero = 0 := by
    have rank : units zero.rank = 0 := units_zero
    rw [scaled, roundHalfEven_eq_zero_iff unitsInOne_pos, rank, Nat.zero_mul, Nat.mul_zero]
    exact Nat.zero_le _
  constructor
  · intro same
    constructor
    · rw [← zeros_of_fixed_iff finite, same, zeros_of_fixed_iff bounded, nothing]
    · cases minus : x.negative with
      | false => rfl
      | true =>
        -- The sign comes first, where zero has a digit.
        have first : (fixed places x).head? = some '-' := by
          rw [fixed_of_finite finite, sign, minus]
          rfl
        have other : (fixed places zero).head? = some '0' := by
          rw [fixed_of_finite bounded, nothing, Nat.zero_div]
          rfl
        rw [same, other] at first
        cases first
  · rintro ⟨same, plus⟩
    have sign : x.sign = sign zero := by rw [sign, plus]; rfl
    rw [fixed_of_finite finite, fixed_of_finite bounded, same, nothing, sign]

end Printed

end Binary64

/-! ## What is printed -/

namespace Report

/-- The row of a sample stands in the text of its report. -/
theorem exists_toText_of_mem {r : Report} {backend : String} {s : Sample}
    (held : s ∈ r.samples backend) : ∃ before after, r.toText = before ++ row s ++ after := by
  have label : backend ∈ r.series.labels := by
    by_contra absent
    rw [samples, Filing.get_of_not_mem absent] at held
    cases held
  obtain ⟨entry, member, -, items⟩ := Filing.exists_of_mem_labels label
  rw [samples, items] at held
  have line : rowLine s ∈ r.lines := by
    refine List.mem_flatMap.mpr ⟨entry, member, ?_⟩
    exact List.mem_cons_of_mem _ (List.mem_cons_of_mem _ (List.mem_map_of_mem held))
  obtain ⟨before, after, split⟩ := List.append_of_mem line
  refine ⟨.ofList (before.flatMap (· ++ ['\n'])), .ofList (after.flatMap (· ++ ['\n'])), ?_⟩
  apply String.toList_injective
  rw [toList_toText, split, List.flatMap_append, List.flatMap_cons, String.toList_append,
    String.toList_append, String.toList_ofList, String.toList_ofList, toList_row]
  simp only [List.append_assoc]

end Report

namespace Sample

open Binary64

/-- The time in the row of the sample has no digits but zeros. -/
def PrintsZeros (s : Sample) : Prop :=
  ∃ time, (Report.row s).toList = Nat.toDigits 10 s.size.toNat ++ ',' :: time ++ ['\n'] ∧
    ∀ c ∈ time, c.isDigit = true → c = '0'

variable {s : Sample} (finite : s.elapsed.isFinite = true)
include finite

theorem isValid_iff_pos : s.isValid = true ↔ 0 < s.elapsed.exact := by
  rw [isValid_iff, and_iff_right finite, zero_lt_iff_exact (isNaN_of_isFinite finite)]

variable (nonneg : 0 ≤ s.elapsed.exact)
include nonneg

theorem printsZeros_iff : s.PrintsZeros ↔ s.elapsed.exact ≤ halfMillionth := by
  rw [← scaled_eq_zero_iff nonneg, ← zeros_of_fixed_iff finite]
  constructor
  · rintro ⟨time, row, zeros⟩
    rw [Report.toList_row, Report.rowLine, List.append_left_inj, List.append_cancel_left_eq,
      List.cons.injEq] at row
    rwa [row.2]
  · exact fun zeros => ⟨_, Report.toList_row s, zeros⟩

theorem row_eq_missing_iff : Report.row s = Report.row ⟨s.size, noMeasurement⟩ ↔
    s.elapsed.exact ≤ halfMillionth ∧ s.elapsed ≠ .signedZero true := by
  have times : Report.row s = Report.row ⟨s.size, noMeasurement⟩ ↔
      fixed Report.timePlaces s.elapsed = fixed Report.timePlaces .zero := by
    rw [← String.toList_inj, Report.toList_row, Report.toList_row, List.append_left_inj,
      Report.rowLine, Report.rowLine, List.append_cancel_left_eq, List.cons.injEq,
      and_iff_right rfl, noMeasurement]
  rw [times, fixed_eq_fixed_zero_iff finite, scaled_eq_zero_iff nonneg]
  apply and_congr_right
  intro _
  constructor
  · rintro plus zero
    rw [zero] at plus
    cases plus
  · intro other
    rw [← Bool.not_eq_true]
    exact fun minus => other (eq_signedZero_of_nonneg nonneg minus)

end Sample

namespace TimeLine

/-- The time was read from an output, or it stands for none. -/
def IsReported (x : Binary64) : Prop := x = noMeasurement ∨ ∃ output, read output = .ok x

theorem IsReported.bounds {x : Binary64} (reported : IsReported x) :
    x.isFinite = true ∧ 0 ≤ x.exact := by
  rcases reported with stand_in | ⟨output, accepted⟩
  · rw [stand_in]
    exact ⟨rfl, (Binary64.exact_signedZero false).ge⟩
  · obtain ⟨_, _, -, -, time⟩ := exists_word_of_read accepted
    exact time.2

/-- A sample has no point exactly if its time is zero, and its time is printed with zeros only
exactly if it is at most half a millionth. So the text and the plot agree on what was not measured,
but for the times above zero that are rounded away. Negative zero is printed with its sign. -/
theorem zeros_and_gaps {s : Sample} (reported : IsReported s.elapsed) :
    (∀ r backend, s ∈ Report.samples r backend →
      ∃ before after, r.toText = before ++ Report.row s ++ after) ∧
    (∀ quantity, s.IsLeftOut quantity ↔ s.elapsed.exact = 0) ∧
    (∀ quantity, s.IsDrawn quantity ↔ 0 < s.elapsed.exact) ∧
    (s.PrintsZeros ↔ s.elapsed.exact ≤ Binary64.halfMillionth) ∧
    (Report.row s = Report.row ⟨s.size, noMeasurement⟩ ↔
      s.elapsed.exact ≤ Binary64.halfMillionth ∧ s.elapsed ≠ .signedZero true) ∧
    ((s.PrintsZeros ↔ ∀ quantity, s.IsLeftOut quantity) ↔
      ¬ (0 < s.elapsed.exact ∧ s.elapsed.exact ≤ Binary64.halfMillionth)) := by
  obtain ⟨finite, nonneg⟩ := reported.bounds
  have drawn : ∀ quantity, s.IsDrawn quantity ↔ 0 < s.elapsed.exact := fun quantity =>
    (Sample.isDrawn_iff quantity).trans (Sample.isValid_iff_pos finite)
  have leftOut : ∀ quantity, s.IsLeftOut quantity ↔ s.elapsed.exact = 0 := by
    intro quantity
    rw [Sample.isLeftOut_iff, ← Bool.not_eq_true, Sample.isValid_iff_pos finite, not_lt]
    exact ⟨fun most => le_antisymm most nonneg, fun zero => zero.le⟩
  have zeros := Sample.printsZeros_iff finite nonneg
  refine ⟨fun r backend => Report.exists_toText_of_mem, leftOut, drawn, zeros,
    Sample.row_eq_missing_iff finite nonneg, ?_⟩
  have gap : (∀ quantity, s.IsLeftOut quantity) ↔ s.elapsed.exact = 0 :=
    ⟨fun all => (leftOut .time).mp (all .time), fun zero quantity => (leftOut quantity).mpr zero⟩
  have positive : 0 < Binary64.halfMillionth := by norm_num [Binary64.halfMillionth]
  rw [zeros, gap]
  constructor
  · rintro agree ⟨above, small⟩
    exact above.ne' (agree.mp small)
  · intro outside
    constructor
    · intro small
      exact le_antisymm (not_lt.mp fun above => outside ⟨above, small⟩) nonneg
    · intro zero
      rw [zero]
      exact positive.le

/-- A time of a tenth of a millionth is printed like the one that stands for none, and has a point
in both plots; negative zero has a sign in print and no point. -/
theorem tiny_time_is_printed_as_zero :
    let tiny : Sample := ⟨2, .ofBits 0x3E7AD7F29ABCAF48⟩
    let r := ((Report.new "sort" "").add "compute" tiny.size tiny.elapsed).add "tbb" 2
      (.signedZero true)
    read "time: 1e-7".toList = .ok tiny.elapsed ∧
    read "time: -0".toList = .ok (.signedZero true) ∧
    r.toText = "=== sort with compute ===\nsize,time (ms)\n2,0.000000\n" ++
      "=== sort with tbb ===\nsize,time (ms)\n2,-0.000000\n" ∧
    Report.row tiny = Report.row ⟨2, noMeasurement⟩ ∧
    (∀ quantity, r.points quantity "compute" = [Report.point quantity tiny]) ∧
    ∀ quantity, r.line? quantity "tbb" = none := by
  refine ⟨by decide +kernel, by decide +kernel, by decide +kernel, by decide +kernel, ?_, ?_⟩
  · intro quantity
    cases quantity <;> decide +kernel
  · intro quantity
    cases quantity <;> rfl

/-- Half a millionth is read as a double below it, which is the last that is rounded away. -/
theorem half_a_millionth_is_rounded_away :
    let last : Sample := ⟨1, .ofBits 0x3EA0C6F7A0B5ED8D⟩
    let next : Sample := ⟨1, .ofBits 0x3EA0C6F7A0B5ED8E⟩
    IsReported last.elapsed ∧ IsReported next.elapsed ∧
    last.PrintsZeros ∧ ¬ next.PrintsZeros ∧
    (∀ quantity, last.IsDrawn quantity ∧ next.IsDrawn quantity) ∧
    ¬ (last.PrintsZeros ↔ ∀ quantity, last.IsLeftOut quantity) := by
  intro last next
  have reported : IsReported last.elapsed :=
    Or.inr ⟨"time: 5e-7".toList, by decide +kernel⟩
  have reported' : IsReported next.elapsed :=
    Or.inr ⟨"time: 5.000000000000001e-7".toList, by decide +kernel⟩
  have above : 0 < last.elapsed.exact := (Binary64.zero_lt_iff_exact rfl).mp (by decide)
  have above' : 0 < next.elapsed.exact := (Binary64.zero_lt_iff_exact rfl).mp (by decide)
  have small : last.elapsed.exact ≤ Binary64.halfMillionth :=
    (Binary64.scaled_eq_zero_iff above.le).mp (by decide +kernel)
  have large : ¬ next.elapsed.exact ≤ Binary64.halfMillionth := by
    rw [← Binary64.scaled_eq_zero_iff above'.le]
    decide +kernel
  obtain ⟨-, -, drawn, zeros, -, agree⟩ := zeros_and_gaps reported
  obtain ⟨-, -, drawn', zeros', -, -⟩ := zeros_and_gaps reported'
  refine ⟨reported, reported', zeros.mpr small, fun zero => large (zeros'.mp zero), ?_, ?_⟩
  · exact fun quantity => ⟨(drawn quantity).mpr above, (drawn' quantity).mpr above'⟩
  · exact fun same => agree.mp same ⟨above, small⟩

end TimeLine

end TimingSweep
