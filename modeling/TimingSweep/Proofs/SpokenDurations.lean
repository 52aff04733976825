import Mathlib.Algebra.Order.Floor.Ring
import TimingSweep.Duration
import TimingSweep.Proofs.PlottedOrder
import TimingSweep.Proofs.Separators

/-!
# Durations read back

A duration is said in one of three ways, and each is read back as the duration it denotes. A longer
duration is never said to be shorter, although seconds are rounded to hundredths by way of a double.
Rounding comes after the choice between seconds and minutes, so that the last four milliseconds of a
minute are said as sixty seconds.

* `Wording.read?_text`: the words of a duration are read back;
* `IsNearest.abs_sub_lt`: how near the nearest double is to a number that is not too large;
* `hundredths_bounds`: the hundredths that are said are at most five milliseconds off;
* `words_read_back`: what is said of any duration, and that a longer one is not said to be shorter;
* `sixty_seconds`: the seconds that should have been a minute.
-/

namespace TimingSweep

namespace Binary64

/-- Fractions of this many binary digits are doubles, so that the nearest double is as near. -/
theorem IsNearest.abs_sub_lt {q : ℚ} {x : Binary64} (h : IsNearest q x) (nonneg : 0 ≤ q)
    {places : Nat} (bound : q * 2 ^ places ≤ 2 ^ 53) (normal : places ≤ 1022) :
    |x.exact - q| < 1 / 2 ^ places := by
  have scale : (0 : ℚ) < 2 ^ places := by positivity
  let n := ⌊q * 2 ^ places⌋₊
  have below : (n : ℚ) ≤ q * 2 ^ places := Nat.floor_le (by positivity)
  have above : q * 2 ^ places < n + 1 := Nat.lt_floor_add_one _
  have digits : n ≤ 2 ^ 53 := by exact_mod_cast below.trans bound
  obtain ⟨rank, number, magnitude⟩ := exists_rank digits normal
  let y : Binary64 := ⟨false, rank, Nat.lt_of_le_of_lt number (by decide)⟩
  have exact : y.exact = n / 2 ^ places := by
    have plus : y.negative = false := rfl
    have magnitude : (units rank : ℚ) * 2 ^ places = n * unitsInOne := by exact_mod_cast magnitude
    rw [exact_of_plus plus, div_eq_div_iff unitsInOne_pos_rat.ne' scale.ne', magnitude]
  calc |x.exact - q|
      ≤ |y.exact - q| := h.nearest y (isNumber_iff.mpr number)
    _ = |n - q * 2 ^ places| / 2 ^ places := by
      rw [exact, ← abs_of_pos scale, ← abs_div, abs_of_pos scale, sub_div,
        mul_div_cancel_right₀ _ scale.ne']
    _ < 1 / 2 ^ places := by
      rw [div_lt_div_iff_of_pos_right scale, abs_lt]
      constructor <;> linarith

/-- The quotient of whole numbers is rounded once. -/
theorem ofNat_div_ofNat {m n : Nat} (positive : 0 < m) (positive' : 0 < n) (bound : m ≤ 2 ^ 53)
    (bound' : n ≤ 2 ^ 53) : ofNat m / ofNat n = ofRatio false m n := by
  have finite : ∀ k, 0 < k → k ≤ 2 ^ 53 → (ofNat k).isFinite = true ∧ (ofNat k).isZero = false := by
    intro k positive bound
    obtain ⟨finite, least, -⟩ := ofNat_bounds positive (bound.trans (by decide))
    have positive : 0 < (ofNat k).rank := units_pos_iff.mp (unitsInOne_pos.trans_le least)
    exact ⟨finite, by simp only [isZero, beq_eq_false_iff_ne]; omega⟩
  obtain ⟨finiteNum, nonzero⟩ := finite m positive bound
  obtain ⟨finiteDen, nonzero'⟩ := finite n positive' bound'
  rw [div_of_finite finiteNum finiteDen nonzero, nonzero', if_neg Bool.false_ne_true,
    units_ofNat bound, units_ofNat bound']
  apply ofRatio_congr false (Nat.mul_pos positive' unitsInOne_pos) positive'
  rw [Nat.mul_assoc, Nat.mul_comm unitsInOne]

/-- What is written with some places is at most half of the last place off. -/
theorem abs_scaled_sub_le {x : Binary64} (plus : x.negative = false) (places : Nat) :
    |scaled places x / 10 ^ places - x.exact| ≤ 1 / 10 ^ places / 2 := by
  have step := (isNearestMultiple_scaled places x).abs_sub_le (by positivity)
  rwa [Decimal.value_places, plus, if_neg Bool.false_ne_true] at step

end Binary64

/-! ## Ways of saying a duration -/

/-- Milliseconds, seconds with hundredths, or minutes with seconds. -/
inductive Wording where
  | milliseconds (count : Nat)
  | seconds (whole : Nat) (hundredths : Fin 100)
  | minutes (count : Nat) (further : Nat)
  deriving DecidableEq

namespace Wording

def text : Wording → List Char
  | .milliseconds count => Nat.toDigits 10 count ++ ['m', 's']
  | .seconds whole hundredths =>
    Nat.toDigits 10 whole ++
      ['.', Nat.digitChar (hundredths / 10), Nat.digitChar (hundredths % 10), 's']
  | .minutes count further =>
    Nat.toDigits 10 count ++ 'm' :: ' ' :: (Nat.toDigits 10 further ++ ['s'])

/-- The milliseconds that are meant. -/
def denoted : Wording → Nat
  | .milliseconds count => count
  | .seconds whole hundredths => 1000 * whole + 10 * hundredths
  | .minutes count further => 60000 * count + 1000 * further

/-- No figure is as large as one of the next unit, and the first is not zero unless it is alone. -/
def IsNormal : Wording → Prop
  | .milliseconds count => count < 1000
  | .seconds whole _ => 1 ≤ whole ∧ whole < 60
  | .minutes count further => 1 ≤ count ∧ further < 60

/-- Reads the unit behind a number, and what belongs to it. -/
def readUnit? (count : Nat) : List Char → Option Wording
  | ['m', 's'] => some (.milliseconds count)
  | ['.', tenth, hundredth, 's'] =>
    if tenth.isDigit && hundredth.isDigit then
      some (.seconds count (Fin.ofNat 100 (Nat.ofDigitChars 10 [tenth, hundredth] 0)))
    else none
  | 'm' :: ' ' :: rest =>
    let digits := rest.takeWhile Char.isDigit
    if !digits.isEmpty && rest.dropWhile Char.isDigit = ['s'] then
      some (.minutes count (Nat.ofDigitChars 10 digits 0))
    else none
  | _ => none

def read? (text : List Char) : Option Wording :=
  let digits := text.takeWhile Char.isDigit
  if digits.isEmpty then none
  else readUnit? (Nat.ofDigitChars 10 digits 0) (text.dropWhile Char.isDigit)

section Digits

variable (n : Nat) {mark : Char} (other : mark.isDigit = false) (rest : List Char)
include other

theorem takeWhile_toDigits :
    (Nat.toDigits 10 n ++ mark :: rest).takeWhile Char.isDigit = Nat.toDigits 10 n :=
  takeWhile_eq_iff.mpr ⟨mark :: rest, rfl, isDigit_toDigits n, fun c head => by
    rwa [← Option.mem_some.mp head]⟩

theorem dropWhile_toDigits :
    (Nat.toDigits 10 n ++ mark :: rest).dropWhile Char.isDigit = mark :: rest :=
  dropWhile_eq_iff.mpr ⟨Nat.toDigits 10 n, rfl, isDigit_toDigits n, fun c head => by
    rwa [← Option.mem_some.mp head]⟩

theorem read?_append : read? (Nat.toDigits 10 n ++ mark :: rest) = readUnit? n (mark :: rest) := by
  have digits : (Nat.toDigits 10 n).isEmpty = false := by simp
  simp only [read?, takeWhile_toDigits n other, dropWhile_toDigits n other, digits,
    Bool.false_eq_true, if_false, Nat.ofDigitChars_ten_toDigits]

end Digits

/-- What is said is read back. -/
theorem read?_text (w : Wording) : read? w.text = some w := by
  cases w with
  | milliseconds count =>
    rw [text, read?_append count (by decide)]
    rfl
  | seconds whole hundredths =>
    have digits : ∀ n : Fin 100, (Nat.digitChar (n / 10)).isDigit = true ∧
        (Nat.digitChar (n % 10)).isDigit = true ∧ Fin.ofNat 100
          (Nat.ofDigitChars 10 [Nat.digitChar (n / 10), Nat.digitChar (n % 10)] 0) = n := by
      decide
    obtain ⟨tenth, hundredth, value⟩ := digits hundredths
    rw [text, read?_append whole (by decide)]
    simp only [readUnit?, tenth, hundredth, value, Bool.and_self, if_true]
  | minutes count further =>
    have digits : (Nat.toDigits 10 further).isEmpty = false := by simp
    have ends : 's'.isDigit = false := by decide
    rw [text, read?_append count (by decide)]
    simp only [readUnit?, takeWhile_toDigits further ends, dropWhile_toDigits further ends, digits,
      Nat.ofDigitChars_ten_toDigits]
    rfl

end Wording

/-! ## What is said -/

/-- Milliseconds are said exactly, seconds to the nearest hundredth, and behind minutes only whole
seconds count. -/
inductive IsSaidAs (ms : Nat) : Wording → Prop
  | milliseconds (short : ms < 1000) : IsSaidAs ms (.milliseconds ms)
  | seconds {whole : Nat} {hundredths : Fin 100} (least : 1000 ≤ ms) (below : ms < 60000)
      (atMost : 1000 * whole + 10 * hundredths ≤ ms + 5)
      (atLeast : ms ≤ 1000 * whole + 10 * hundredths + 5) : IsSaidAs ms (.seconds whole hundredths)
  | minutes (long : 60000 ≤ ms) : IsSaidAs ms (.minutes (ms / 60000) (ms / 1000 % 60))

namespace IsSaidAs

variable {ms ms' : Nat} {w w' : Wording}

/-- Hundredths are ten milliseconds apart, so that roundings do not cross. -/
theorem denoted_le (said : IsSaidAs ms w) (said' : IsSaidAs ms' w') (shorter : ms < ms') :
    w.denoted ≤ w'.denoted := by
  cases said <;> cases said' <;> simp only [Wording.denoted] <;> omega

/-- Only what has been rounded up to a minute is out of form. -/
theorem isNormal_iff (said : IsSaidAs ms w) :
    w.IsNormal ↔ ¬ (ms < 60000 ∧ w = .seconds 60 0) := by
  cases said with
  | milliseconds short => simpa [Wording.IsNormal] using short
  | @seconds whole hundredths least below atMost atLeast =>
    have start : 1 ≤ whole := by omega
    have carried : whole = 60 → hundredths = 0 := fun sixty => Fin.ext (by show _ = 0; omega)
    simp only [Wording.IsNormal, Wording.seconds.injEq]
    constructor
    · rintro ⟨-, less⟩ ⟨-, rfl, -⟩
      exact absurd less (Nat.lt_irrefl 60)
    · intro other
      have differs : whole ≠ 60 := fun sixty => other ⟨below, sixty, carried sixty⟩
      exact ⟨start, by omega⟩
  | minutes long =>
    have minutes : 1 ≤ ms / 60000 := by omega
    simpa [Wording.IsNormal, Nat.mod_lt] using minutes

end IsSaidAs

namespace Duration

/-- The hundredths of a second in some milliseconds, rounded by way of a double. -/
def hundredths (ms : Nat) : Nat := Binary64.scaled 2 (Binary64.ofNat ms / Binary64.ofNat 1000)

section Seconds

variable {ms : Nat} (positive : 0 < ms) (below : ms < 60000)
include positive below

theorem seconds_eq : Binary64.ofNat ms / Binary64.ofNat 1000 = .ofRatio false ms 1000 :=
  Binary64.ofNat_div_ofNat positive (by decide) (by omega) (by decide)

theorem abs_seconds_sub_lt :
    |(Binary64.ofNat ms / Binary64.ofNat 1000).exact - ms / 1000| < 1 / 2 ^ 10 := by
  have nearest := Binary64.isNearest_of_plus ms (show 0 < 1000 by decide)
  have long : (ms : ℚ) ≤ 60000 := by exact_mod_cast below.le
  rw [← seconds_eq positive below, Nat.cast_ofNat] at nearest
  exact nearest.abs_sub_lt (by positivity) (by linarith) (by decide)

theorem hundredths_bounds : 10 * hundredths ms ≤ ms + 5 ∧ ms ≤ 10 * hundredths ms + 5 := by
  have plus : (Binary64.ofNat ms / Binary64.ofNat 1000).negative = false := by
    rw [seconds_eq positive below]
    rfl
  have exact := abs_seconds_sub_lt positive below
  have written := Binary64.abs_scaled_sub_le plus 2
  rw [abs_lt] at exact
  rw [abs_le] at written
  -- together less than six milliseconds, which is at most five
  have atMost : (10 * hundredths ms : ℚ) < ms + 6 := by
    unfold hundredths
    linarith
  have atLeast : (ms : ℚ) < 10 * hundredths ms + 6 := by
    unfold hundredths
    linarith
  have atMost : 10 * hundredths ms < ms + 6 := by exact_mod_cast atMost
  have atLeast : ms < 10 * hundredths ms + 6 := by exact_mod_cast atLeast
  omega

theorem isFinite_seconds : (Binary64.ofNat ms / Binary64.ofNat 1000).isFinite = true := by
  have most : (Binary64.ofRatio false ms 1000).rank ≤ (1022 + 6 + 1) * 2 ^ 52 := by
    apply Binary64.nearestRank_le_of_le_units (by decide) (by decide)
    rw [Binary64.units_binade 6, Nat.mul_right_comm]
    exact Nat.mul_le_mul_right _ (by omega)
  rw [seconds_eq positive below, Binary64.isFinite, decide_eq_true_eq]
  exact Nat.lt_of_le_of_lt most (by decide)

theorem fixed_seconds :
    Binary64.fixed 2 (Binary64.ofNat ms / Binary64.ofNat 1000) ++ ['s'] =
      (Wording.seconds (hundredths ms / 100) (Fin.ofNat 100 (hundredths ms))).text := by
  have plus : (Binary64.ofNat ms / Binary64.ofNat 1000).sign = [] := by
    rw [seconds_eq positive below]
    rfl
  have filled : ∀ n < 100,
      List.replicate (2 - (Nat.toDigits 10 n).length) '0' ++ Nat.toDigits 10 n =
        [Nat.digitChar (n / 10), Nat.digitChar (n % 10)] := by decide
  have part := filled (hundredths ms % 100) (Nat.mod_lt _ (by decide))
  rw [Binary64.fixed_of_finite (isFinite_seconds positive below), plus]
  show [] ++ Nat.toDigits 10 (hundredths ms / 100) ++ ['.'] ++
    List.replicate (2 - (Nat.toDigits 10 (hundredths ms % 100)).length) '0' ++
      Nat.toDigits 10 (hundredths ms % 100) ++ ['s'] = _
  rw [List.append_assoc _ (List.replicate ..), part, Wording.text, List.nil_append,
    List.append_assoc, List.append_assoc]
  rfl

/-- The last half hundredth of a minute is rounded up, but for its beginning, where the double lies
below the tie. -/
theorem hundredths_eq_minute_iff : hundredths ms = 6000 ↔ 59996 ≤ ms := by
  obtain ⟨atMost, atLeast⟩ := hundredths_bounds positive below
  by_cases tie : ms = 59995
  · have down : hundredths 59995 = 5999 := by decide +kernel
    rw [tie, down]
    decide
  · omega

end Seconds

theorem exists_wording (d : Duration) : ∃ w : Wording, w.text = d.words.toList ∧
    IsSaidAs d.milliseconds.toNat w ∧
    (d.milliseconds.toNat < 60000 ∧ w = .seconds 60 0 ↔
      59996 ≤ d.milliseconds.toNat ∧ d.milliseconds.toNat ≤ 59999) := by
  generalize number : d.milliseconds.toNat = ms
  by_cases short : ms < 1000
  · refine ⟨.milliseconds ms, ?_, .milliseconds short, ?_⟩
    · have unit : "ms".toList = ['m', 's'] := rfl
      simp only [words, number, short, if_true, String.toList_append, unit, Nat.toString_eq_repr,
        Nat.toList_repr, Wording.text]
    · simp only [reduceCtorEq, and_false, false_iff]
      omega
  by_cases below : ms < 60000
  · have positive : 0 < ms := by omega
    obtain ⟨atMost, atLeast⟩ := hundredths_bounds positive below
    have whole : 1000 * (hundredths ms / 100) + 10 * (Fin.ofNat 100 (hundredths ms) : Nat) =
        10 * hundredths ms := by
      show 1000 * (hundredths ms / 100) + 10 * (hundredths ms % 100) = _
      omega
    refine ⟨.seconds (hundredths ms / 100) (Fin.ofNat 100 (hundredths ms)), ?_, ?_, ?_⟩
    · have unit : "s".toList = ['s'] := rfl
      simp only [words, number, short, below, if_false, if_true, String.toList_append, unit,
        String.toList_ofList, fixed_seconds positive below]
    · exact .seconds (Nat.le_of_not_lt short) below (whole.le.trans atMost)
        (atLeast.trans (Nat.add_le_add_right whole.ge 5))
    · have minute := hundredths_eq_minute_iff positive below
      have last : Fin.ofNat 100 (hundredths ms) = 0 ↔ hundredths ms % 100 = 0 := Fin.ext_iff
      simp only [Wording.seconds.injEq, last]
      omega
  · have long : 60000 ≤ ms := Nat.le_of_not_lt below
    refine ⟨.minutes (ms / 60000) (ms / 1000 % 60), ?_, .minutes long, ?_⟩
    · have units : "m ".toList = ['m', ' '] ∧ "s".toList = ['s'] := ⟨rfl, rfl⟩
      have minutes : ms / 1000 / 60 = ms / 60000 := Nat.div_div_eq_div_mul ..
      simp only [words, number, short, below, if_false, String.toList_append, units,
        Nat.toString_eq_repr, Nat.toList_repr, Wording.text, minutes, List.append_assoc,
        List.cons_append, List.nil_append]
    · simp only [reduceCtorEq, and_false, false_iff]
      omega

/-- The words of a duration as they are read back. -/
theorem exists_read (d : Duration) : ∃ w, Wording.read? d.words.toList = some w ∧
    w.text = d.words.toList ∧ IsSaidAs d.milliseconds.toNat w ∧
    (w.IsNormal ↔ ¬ (59996 ≤ d.milliseconds.toNat ∧ d.milliseconds.toNat ≤ 59999)) ∧
    (¬ w.IsNormal → w = .seconds 60 0) := by
  obtain ⟨w, text, said, minute⟩ := d.exists_wording
  have normal := said.isNormal_iff
  have read : Wording.read? d.words.toList = some w := by rw [← text, w.read?_text]
  refine ⟨w, read, text, said, normal.trans (not_congr minute), fun other => ?_⟩
  rw [normal, Classical.not_not] at other
  exact other.2

/-- The words of any duration are read back, and denote it exactly below a second, to the nearest
hundredth below a minute, and in whole seconds from there on. No figure is as large as one of the
next unit, except for the sixty seconds that are said in the last four milliseconds of a minute. A
longer duration is not said to be shorter. -/
theorem words_read_back (d : Duration) :
    ∃ w, Wording.read? d.words.toList = some w ∧ w.text = d.words.toList ∧
      IsSaidAs d.milliseconds.toNat w ∧
      (w.IsNormal ↔ ¬ (59996 ≤ d.milliseconds.toNat ∧ d.milliseconds.toNat ≤ 59999)) ∧
      (¬ w.IsNormal → w = .seconds 60 0) ∧
      ∀ longer : Duration, d.milliseconds ≤ longer.milliseconds →
        ∃ w', Wording.read? longer.words.toList = some w' ∧ w.denoted ≤ w'.denoted := by
  obtain ⟨w, read, text, said, normal, minute⟩ := exists_read d
  refine ⟨w, read, text, said, normal, minute, fun longer shorter => ?_⟩
  obtain ⟨w', read', -, said', -⟩ := exists_read longer
  refine ⟨w', read', ?_⟩
  rcases Nat.lt_or_eq_of_le (UInt64.le_iff_toNat_le.mp shorter) with less | same
  · exact said.denoted_le said' less
  · have equal : d = longer := by
      cases d
      cases longer
      exact congrArg _ (UInt64.toNat_inj.mp same)
    rw [equal, read', Option.some.injEq] at read
    rw [read]

/-- Two neighbours of the same length in words, the first of them out of form. -/
theorem neighbours_read_back :
    ∃ w w', Wording.read? (Duration.mk 59999).words.toList = some w ∧ ¬ w.IsNormal ∧
      w = .seconds 60 0 ∧ (59999 : UInt64) ≤ 60000 ∧
      Wording.read? (Duration.mk 60000).words.toList = some w' ∧ w.denoted ≤ w'.denoted := by
  have shorter : (59999 : UInt64) ≤ 60000 := by decide
  have last : 59996 ≤ (59999 : UInt64).toNat ∧ (59999 : UInt64).toNat ≤ 59999 := by decide
  obtain ⟨w, read, -, -, normal, minute, order⟩ := words_read_back ⟨59999⟩
  obtain ⟨w', read', denoted⟩ := order ⟨60000⟩ shorter
  have other : ¬ w.IsNormal := fun isNormal => normal.mp isNormal last
  exact ⟨w, w', read, other, minute other, shorter, read', denoted⟩

/-- What is one millisecond short of a minute is said as sixty seconds. -/
theorem sixty_seconds :
    (Duration.mk 59999).words = "60.00s" ∧
      Wording.read? "60.00s".toList = some (.seconds 60 0) ∧ ¬ (Wording.seconds 60 0).IsNormal := by
  have words : (Duration.mk 59999).words = "60.00s" := by decide +kernel
  exact ⟨words, Wording.read?_text (.seconds 60 0), fun normal => absurd normal.2 (by decide)⟩

end Duration

end TimingSweep
