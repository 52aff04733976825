import TimingSweep.Number.Power
import TimingSweep.Number.Rounding

/-!
# Doubles

A `Binary64` is a sign and a rank. The rank is the bit pattern without the sign, read as a number,
so ranks order the magnitudes. Finite magnitudes are whole numbers of units of `2 ^ -1074`, given
by `units`; `nearestRank` finds the rank nearest to a quotient of units, ties to the even rank.
Arithmetic and conversion are the exact rational operation followed by this rounding.

* `ofBits_toBits`, `toBits_ofBits`: a double is its bit pattern;
* `add_comm`: a sum does not depend on the order of its terms.
-/

namespace TimingSweep

/-- A 64-bit binary floating-point number: the sign bit, and the other 63 bits as a number. -/
structure Binary64 where
  negative : Bool
  rank : Nat
  rank_lt : rank < 2 ^ 63
  deriving DecidableEq

namespace Binary64

/-- The rank of infinity; larger ranks are no numbers. -/
def infiniteRank : Nat := 2047 * 2 ^ 52

/-- The binary places of the unit in which magnitudes are counted. -/
def unitPlaces : Nat := 1074

/-- The units in one. -/
def unitsInOne : Nat := 2 ^ unitPlaces

/-- The magnitude of a rank in units of `2 ^ -1074`. The rank of infinity is given the magnitude
`2 ^ 1024`, the bound at which rounding overflows. -/
def units (rank : Nat) : Nat :=
  let shift := rank / 2 ^ 52 - 1
  (rank - shift * 2 ^ 52) * 2 ^ shift

/-- The rank nearest to `num / den` units, ties to even; what lies beyond the largest finite
magnitude by half a step or more becomes infinite. -/
def nearestRank (num den : Nat) : Nat :=
  let shift := Nat.log2 (num / den) - 52
  min infiniteRank (shift * 2 ^ 52 + roundHalfEven num (den * 2 ^ shift))

theorem nearestRank_lt (num den : Nat) : nearestRank num den < 2 ^ 63 :=
  Nat.lt_of_le_of_lt (Nat.min_le_left ..) (by decide)

def ofBits (bits : UInt64) : Binary64 where
  negative := 2 ^ 63 ≤ bits.toNat
  rank := bits.toNat % 2 ^ 63
  rank_lt := Nat.mod_lt _ (by decide)

def toBits (x : Binary64) : UInt64 :=
  UInt64.ofNat ((if x.negative then 2 ^ 63 else 0) + x.rank)

theorem toNat_toBits (x : Binary64) :
    x.toBits.toNat = (if x.negative then 2 ^ 63 else 0) + x.rank := by
  have := x.rank_lt
  rw [toBits, UInt64.toNat_ofNat_of_lt']
  show _ < 2 ^ 64
  split <;> omega

theorem ofBits_toBits (x : Binary64) : ofBits x.toBits = x := by
  have bound := x.rank_lt
  cases x with
  | mk negative rank rank_lt =>
    simp only [ofBits, toNat_toBits, mk.injEq]
    cases negative <;> simp <;> omega

theorem toBits_ofBits (bits : UInt64) : (ofBits bits).toBits = bits := by
  apply UInt64.toNat.inj
  rw [toNat_toBits]
  have := bits.toNat_lt
  simp only [ofBits, decide_eq_true_eq]
  split <;> omega

def signedZero (negative : Bool) : Binary64 := ⟨negative, 0, by decide⟩

def zero : Binary64 := signedZero false

def infinity (negative : Bool) : Binary64 := ⟨negative, infiniteRank, by decide⟩

def nan : Binary64 := ⟨false, infiniteRank + 2 ^ 51, by decide⟩

/-- The double nearest to `num / den` units of `2 ^ -1074`, with the given sign. -/
def ofUnits (negative : Bool) (num den : Nat) : Binary64 :=
  ⟨negative, nearestRank num den, nearestRank_lt num den⟩

/-- The double nearest to the rational `num / den`, with the given sign. -/
def ofRatio (negative : Bool) (num den : Nat) : Binary64 :=
  ofUnits negative (num * unitsInOne) den

def ofNat (n : Nat) : Binary64 := ofRatio false n 1

def isNaN (x : Binary64) : Bool := infiniteRank < x.rank

def isInfinite (x : Binary64) : Bool := x.rank == infiniteRank

def isFinite (x : Binary64) : Bool := x.rank < infiniteRank

def isZero (x : Binary64) : Bool := x.rank == 0

/-- Zero times infinity is no number; otherwise the product of the magnitudes, rounded. -/
def mul (x y : Binary64) : Binary64 :=
  let negative := x.negative != y.negative
  if x.isNaN || y.isNaN || (x.isInfinite && y.isZero) || (x.isZero && y.isInfinite) then nan
  else if x.isInfinite || y.isInfinite then infinity negative
  else ofUnits negative (units x.rank * units y.rank) unitsInOne

/-- Zero over zero and infinity over infinity are no numbers; a non-zero number over zero is
infinite and a finite number over infinity zero; otherwise the quotient of the magnitudes,
rounded. -/
def div (x y : Binary64) : Binary64 :=
  let negative := x.negative != y.negative
  if x.isNaN || y.isNaN || (x.isInfinite && y.isInfinite) || (x.isZero && y.isZero) then nan
  else if x.isInfinite || y.isZero then infinity negative
  else if y.isInfinite then signedZero negative
  else ofRatio negative (units x.rank) (units y.rank)

/-- A finite number in units of `2 ^ -1074`. -/
def signedUnits (x : Binary64) : Int := if x.negative then -units x.rank else units x.rank

/-- Infinities of both signs have no sum; otherwise an infinite number is the sum, and the exact sum
of finite numbers is rounded. A sum that is zero is negative only if both numbers are. -/
def add (x y : Binary64) : Binary64 :=
  if x.isNaN || y.isNaN then nan
  else if x.isInfinite && y.isInfinite && x.negative != y.negative then nan
  else if x.isInfinite then x
  else if y.isInfinite then y
  else
    let sum := x.signedUnits + y.signedUnits
    if sum = 0 then signedZero (x.negative && y.negative)
    else ofUnits (decide (sum < 0)) sum.natAbs 1

instance : Add Binary64 := ⟨add⟩

instance : Neg Binary64 := ⟨fun x => { x with negative := !x.negative }⟩

instance : Sub Binary64 := ⟨fun x y => x + -y⟩

instance : Mul Binary64 := ⟨mul⟩

instance : Div Binary64 := ⟨div⟩

theorem neg_neg (x : Binary64) : - -x = x := by
  show (⟨!(!x.negative), x.rank, _⟩ : Binary64) = x
  simp only [Bool.not_not]

theorem add_comm (x y : Binary64) : x + y = y + x := by
  show add x y = add y x
  have same : x.isInfinite = true → y.isInfinite = true → x.negative = y.negative → x = y := by
    intro hx hy hs
    cases x
    cases y
    simp_all [isInfinite]
  unfold add
  rw [Int.add_comm y.signedUnits, Bool.and_comm y.negative, Bool.or_comm y.isNaN]
  grind

/-- The whole number at or below a finite number; zero for what is not finite. -/
def floor (x : Binary64) : Int := if x.isFinite then x.signedUnits / (unitsInOne : Int) else 0

/-- The place of a number in the numerical order, in which the two zeros coincide. -/
def place (x : Binary64) : Int := if x.negative then -x.rank else x.rank

/-- The numerical order; no number is below or above one that is none. -/
def lt (x y : Binary64) : Bool := !x.isNaN && !y.isNaN && x.place < y.place

def le (x y : Binary64) : Bool := !x.isNaN && !y.isNaN && x.place ≤ y.place

/-- The smaller number, the second of two equal ones; what is no number gives way. -/
def min (x y : Binary64) : Binary64 := if y.isNaN || lt x y then x else y

/-- The larger number, the second of two equal ones; what is no number gives way. -/
def max (x y : Binary64) : Binary64 := if y.isNaN || lt y x then x else y

end Binary64

end TimingSweep
