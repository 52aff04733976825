import TimingSweep.Number.Decimal
import TimingSweep.Proofs.Nearest

/-!
# Decimals and doubles

A decimal is read as the double nearest to its exact value, and only that value matters. The
shortest decimal of a double is one that is read as that double.

* `Decimal.toBinary64_eq_ofRatio`: the powers that are never formed would change nothing;
* `Decimal.toBinary64_shift`: zeros can be moved between the significand and the exponent;
* `Binary64.shortest_reads_back`: no finite double is lost by writing its shortest decimal.
-/

namespace TimingSweep

namespace Binary64

variable {num den num' den' : Nat}

/-- Only the quotient matters. -/
theorem ofRatio_congr (negative : Bool) (positive : 0 < den) (positive' : 0 < den')
    (h : num * den' = num' * den) : ofRatio negative num den = ofRatio negative num' den' := by
  simp only [ofRatio, ofUnits, mk.injEq, true_and]
  apply nearestRank_congr positive positive'
  rw [Nat.mul_right_comm, h, Nat.mul_right_comm]

theorem ofRatio_eq_signedZero (negative : Bool) (positive : 0 < den)
    (tiny : 2 * (num * unitsInOne) ≤ den) : ofRatio negative num den = signedZero negative := by
  have not_positive := mt (nearestRank_pos_iff positive).mp (Nat.not_lt_of_le tiny)
  simp only [ofRatio, ofUnits, signedZero, mk.injEq, true_and]
  exact Nat.eq_zero_of_not_pos not_positive

theorem ofRatio_eq_infinity (negative : Bool) (positive : 0 < den) {k : Nat} (beyond : 1024 ≤ k)
    (huge : 2 ^ k * den ≤ num) : ofRatio negative num den = infinity negative := by
  have above : infiniteRank ≤ (1022 + k + 1) * 2 ^ 52 := by
    simp only [infiniteRank]
    omega
  simp only [ofRatio, ofUnits, infinity, mk.injEq, true_and]
  apply Nat.le_antisymm (nearestRank_le_infinite ..)
  apply le_nearestRank positive (Nat.le_refl _)
  calc
    units infiniteRank * den ≤ 2 ^ k * unitsInOne * den :=
      Nat.mul_le_mul_right den (units_binade k ▸ units_le above)
    _ = 2 ^ k * den * unitsInOne := Nat.mul_right_comm ..
    _ ≤ num * unitsInOne := Nat.mul_le_mul_right unitsInOne huge

end Binary64

namespace Decimal

open Binary64

theorem two_pow_le_ten_pow (n : Nat) : 2 ^ (3 * n) ≤ 10 ^ n := by
  rw [Nat.pow_mul]
  exact Nat.pow_le_pow_left (by decide) n

/-- A decimal is read as the double nearest to its exact value. -/
theorem toBinary64_eq_ofRatio (negative : Bool) (d : Decimal) :
    d.toBinary64 negative =
      .ofRatio negative (d.significand * 10 ^ d.exponent.toNat) (10 ^ (-d.exponent).toNat) := by
  have ten_pos : ∀ n, 0 < 10 ^ n := fun n => Nat.pow_pos (by decide)
  simp only [toBinary64]
  by_cases zero : d.significand = 0
  · rw [if_pos zero, zero, Nat.zero_mul, ofRatio_eq_signedZero negative (ten_pos _) (by simp)]
  rw [if_neg zero]
  by_cases huge : 400 < d.exponent
  · have whole : (-d.exponent).toNat = 0 := by omega
    have large : 2 ^ (3 * d.exponent.toNat) ≤ d.significand * 10 ^ d.exponent.toNat :=
      Nat.le_trans (two_pow_le_ten_pow _) (Nat.le_mul_of_pos_left _ (Nat.pos_of_ne_zero zero))
    have beyond : 1024 ≤ 3 * d.exponent.toNat := by omega
    rw [if_pos huge, whole, Nat.pow_zero,
      ofRatio_eq_infinity negative Nat.one_pos beyond (by rwa [Nat.mul_one])]
  rw [if_neg huge]
  by_cases tiny : Nat.log2 d.significand + 1200 < 3 * (-d.exponent).toNat
  · have fraction : d.exponent.toNat = 0 := by omega
    have small : 2 * (d.significand * unitsInOne) ≤ 10 ^ (-d.exponent).toNat := by
      calc
        2 * (d.significand * unitsInOne)
          ≤ 2 * (2 ^ (Nat.log2 d.significand + 1) * 2 ^ unitPlaces) :=
            Nat.mul_le_mul_left 2 (Nat.mul_le_mul_right _ (Nat.le_of_lt Nat.lt_log2_self))
        _ = 2 ^ (Nat.log2 d.significand + 1 + unitPlaces + 1) := by
            rw [← Nat.pow_add, Nat.pow_succ _ (_ + unitPlaces), Nat.mul_comm]
        _ ≤ 2 ^ (3 * (-d.exponent).toNat) :=
            Nat.pow_le_pow_right (by decide) (by simp only [unitPlaces]; omega)
        _ ≤ 10 ^ (-d.exponent).toNat := two_pow_le_ten_pow _
    rw [if_pos tiny, fraction, Nat.pow_zero, Nat.mul_one,
      ofRatio_eq_signedZero negative (ten_pos _) small]
  · rw [if_neg tiny]

/-- Zeros at the end of a significand count in the exponent. -/
theorem toBinary64_shift (negative : Bool) (significand zeros : Nat) (exponent : Int) :
    toBinary64 negative ⟨significand * 10 ^ zeros, exponent⟩ =
      toBinary64 negative ⟨significand, exponent + zeros⟩ := by
  rw [toBinary64_eq_ofRatio, toBinary64_eq_ofRatio]
  apply ofRatio_congr negative (Nat.pow_pos (by decide)) (Nat.pow_pos (by decide))
  have balance : zeros + exponent.toNat + (-(exponent + zeros)).toNat =
      (exponent + zeros).toNat + (-exponent).toNat := by omega
  simp only [Nat.mul_assoc, ← Nat.pow_add]
  rw [balance]

/-- The sign of what is read is the sign that was written. -/
theorem toBinary64_of_rank {d : Decimal} {x : Binary64}
    (h : (d.toBinary64 false).rank = x.rank) : d.toBinary64 x.negative = x := by
  rw [toBinary64_eq_ofRatio] at h ⊢
  cases x
  simp only [ofRatio, ofUnits] at h ⊢
  simp only [h]

end Decimal

namespace Binary64

theorem rank_of_onGrid? {rank : Nat} {exponent : Int} {d : Decimal}
    (found : onGrid? rank exponent = some d) : (d.toBinary64 false).rank = rank := by
  simpa using List.find?_some found

theorem rank_of_exactDecimal {rank : Nat} (bound : rank ≤ infiniteRank) :
    ((exactDecimal rank).toBinary64 false).rank = rank := by
  have power : (-(exactDecimal rank).exponent).toNat = unitPlaces := rfl
  rw [Decimal.toBinary64_eq_ofRatio, power]
  show nearestRank ((exactDecimal rank).significand * 10 ^ 0 * unitsInOne) _ = rank
  rw [Nat.pow_zero, Nat.mul_one, exactDecimal_mul]
  exact nearestRank_units (Nat.pow_pos (by decide)) bound

/-- The shortest decimal of a rank is read as that rank. -/
theorem shortest_reads_back {rank : Nat} (bound : rank ≤ infiniteRank) :
    ((shortest rank).toBinary64 false).rank = rank := by
  simp only [shortest]
  cases found : (List.range 17).findSome? fun (more : Nat) =>
      onGrid? rank (Decimal.order (units rank) unitsInOne - more) with
  | none => exact rank_of_exactDecimal bound
  | some d =>
    obtain ⟨_, _, found⟩ := List.exists_of_findSome?_eq_some found
    exact rank_of_onGrid? found

theorem shortest_pos {rank : Nat} (positive : 0 < rank) (bound : rank ≤ infiniteRank) :
    0 < (shortest rank).significand := by
  apply Nat.pos_of_ne_zero
  intro zero
  have read := shortest_reads_back bound
  simp only [Decimal.toBinary64, zero, if_true] at read
  exact absurd read (Nat.ne_of_lt positive)

end Binary64

end TimingSweep
