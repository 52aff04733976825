import TimingSweep.Number.Binary64

/-!
# Decimal numerals

A `Decimal` is a whole number times a power of ten. `Decimal.toBinary64` is the double nearest to
it, `Decimal.read?` reads a numeral, `Binary64.shortest` finds the shortest decimal that reads back
as a given double, and `Binary64.fixed` writes a double with a fixed number of places.

* `exactDecimal_mul`: the exact expansion denotes the double's own magnitude.
-/

namespace TimingSweep

/-- The number `significand * 10 ^ exponent`. -/
structure Decimal where
  significand : Nat
  exponent : Int
  deriving DecidableEq

namespace Decimal

/-- The double nearest to a decimal, ties to even. A magnitude of `10 ^ 400` or more is infinite and
one below `2 ^ -1200` is zero whatever the digits are, so no power beyond these is formed. -/
def toBinary64 (negative : Bool) (d : Decimal) : Binary64 :=
  let below := (-d.exponent).toNat
  if d.significand = 0 then .signedZero negative
  else if 400 < d.exponent then .infinity negative
  else if Nat.log2 d.significand + 1200 < 3 * below then .signedZero negative
  else .ofRatio negative (d.significand * 10 ^ d.exponent.toNat) (10 ^ below)

/-- An optional sign; `true` stands for minus. -/
def readSign : List Char → Bool × List Char
  | '-' :: rest => (true, rest)
  | '+' :: rest => (false, rest)
  | rest => (false, rest)

/-- The exponent part of a numeral: nothing, or `e` or `E`, an optional sign and digits. -/
def readExponent? : List Char → Option Int
  | [] => some 0
  | mark :: rest =>
    let (negative, digits) := readSign rest
    if (mark == 'e' || mark == 'E') && !digits.isEmpty && digits.all Char.isDigit then
      let size : Int := Nat.ofDigitChars 10 digits 0
      some (if negative then -size else size)
    else none

/-- The digits after the point, if there is one, and what follows them. -/
def readFraction : List Char → List Char × List Char
  | '.' :: rest => (rest.takeWhile Char.isDigit, rest.dropWhile Char.isDigit)
  | rest => ([], rest)

/-- Reads a numeral: an optional sign, digits with at most one point and at least one digit, and an
optional exponent. The sign is kept beside the magnitude, so that a negative zero is one. -/
def read? (text : List Char) : Option (Bool × Decimal) :=
  let (negative, body) := readSign text
  let whole := body.takeWhile Char.isDigit
  let (fraction, rest) := readFraction (body.dropWhile Char.isDigit)
  if whole.isEmpty && fraction.isEmpty then none
  else (readExponent? rest).map fun exponent =>
    (negative, ⟨Nat.ofDigitChars 10 (whole ++ fraction) 0, exponent - fraction.length⟩)

/-- The exponent of the first digit of the positive number `num / den`. -/
def order (num den : Nat) : Int :=
  if den ≤ num then (Nat.toDigits 10 (num / den)).length - 1
  else -(Nat.toDigits 10 ((den - 1) / num)).length

/-- Digits before and after the point, with a digit on either side: `digits` are the digits of a
number without trailing zeros and `order` is the exponent of the first. -/
def positional (digits : List Char) (order : Int) : List Char :=
  if order < 0 then
    ['0', '.'] ++ List.replicate (-order - 1).toNat '0' ++ digits
  else
    let before := order.toNat + 1
    digits.take before ++ List.replicate (before - digits.length) '0' ++ ['.'] ++
      (if digits.length ≤ before then ['0'] else digits.drop before)

/-- One digit, the others after a point if there are any, and an exponent behind its sign. `plus` is
the sign of the exponents from zero on. -/
def scientific (plus : List Char) (digits : List Char) (order : Int) : List Char :=
  digits.take 1 ++ (if digits.length ≤ 1 then [] else '.' :: digits.drop 1) ++
    'e' :: (if order < 0 then ['-'] else plus) ++ Nat.toDigits 10 order.natAbs

/-- The exponents of the first digit for which a number is written positionally, and the sign of
exponents that are not negative. -/
structure Layout where
  lowest : Int
  highest : Int
  plus : List Char

/-- A positive decimal in digits: trailing zeros are dropped, and the exponent of the first digit
decides between the two notations. -/
def write (layout : Layout) (d : Decimal) : List Char :=
  let all := Nat.toDigits 10 d.significand
  let digits := (all.reverse.dropWhile (· == '0')).reverse
  let order := d.exponent + all.length - 1
  if layout.lowest ≤ order && order ≤ layout.highest then positional digits order
  else scientific layout.plus digits order

end Decimal

namespace Binary64

/-- Of the two decimals with this exponent that enclose the magnitude of a rank, the nearer one
that reads back as the rank; a tie goes to the even one. -/
def onGrid? (rank : Nat) (exponent : Int) : Option Decimal :=
  let num := units rank * 10 ^ (-exponent).toNat
  let den := unitsInOne * 10 ^ exponent.toNat
  let near := roundHalfEven num den
  let far := if near = num / den then near + 1 else near - 1
  ([near, far].map fun m => (⟨m, exponent⟩ : Decimal)).find? fun d =>
    (d.toBinary64 false).rank = rank

/-- The exact decimal expansion of the magnitude of a rank. -/
def exactDecimal (rank : Nat) : Decimal := ⟨units rank * 5 ^ unitPlaces, -unitPlaces⟩

theorem exactDecimal_mul (rank : Nat) :
    (exactDecimal rank).significand * unitsInOne = units rank * 10 ^ unitPlaces :=
  mul_five_pow_mul_two_pow (units rank) unitPlaces

/-- The decimal with the fewest digits, up to seventeen, that reads back as a positive rank, and of
those the one nearest to its magnitude. -/
def shortest (rank : Nat) : Decimal :=
  let order := Decimal.order (units rank) unitsInOne
  let found := (List.range 17).findSome? fun (more : Nat) => onGrid? rank (order - more)
  found.getD (exactDecimal rank)

/-- The sign before the digits of a number. -/
def sign (x : Binary64) : List Char := if x.negative then ['-'] else []

/-- A number with `places` digits after the point: the multiple of `10 ^ -places` nearest to its
exact magnitude, ties to even, behind its sign. -/
def fixed (places : Nat) (x : Binary64) : List Char :=
  if x.isNaN then "NaN".toList
  else if x.isInfinite then x.sign ++ "inf".toList
  else
    let scaled := roundHalfEven (units x.rank * 10 ^ places) unitsInOne
    let fraction := Nat.toDigits 10 (scaled % 10 ^ places)
    x.sign ++ Nat.toDigits 10 (scaled / 10 ^ places) ++ ['.'] ++
      List.replicate (places - fraction.length) '0' ++ fraction

end Binary64

end TimingSweep
