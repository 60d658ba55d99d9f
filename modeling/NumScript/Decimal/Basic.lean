/-
  Exact decimal numbers and the double nearest to one.

  A `Decimal` is a natural number of digits times a power of ten.  `Decimal.nearest` rounds it to
  the nearest double with exact arithmetic, whatever the number of digits.  Only far outside the
  range of doubles is the answer given without computing the power of ten: from `10^401` on
  everything is infinity, and below `2^-1075` everything is zero.
-/
import NumScript.Magnitude

namespace NumScript

/-- The number `digits * 10 ^ exponent`. -/
structure Decimal where
  /-- The digits, read as one natural number. -/
  digits : Nat
  /-- The power of ten by which they are scaled. -/
  exponent : Int
deriving DecidableEq

namespace Decimal

/-- The decimal written with these digits before and after the point, scaled by `10 ^ shift`. -/
def ofDigits (whole fraction : List Char) (shift : Int) : Decimal where
  digits := Nat.ofDigitChars 10 (whole ++ fraction) 0
  exponent := shift - fraction.length

/-- Numerator of a decimal as a fraction over a power of ten. -/
def num (d : Decimal) : Nat :=
  d.digits * Nat.pow 10 d.exponent.toNat

/-- Denominator of a decimal as a fraction: the power of ten that its fraction digits need. -/
def den (d : Decimal) : Nat :=
  Nat.pow 10 (-d.exponent).toNat

/-- The magnitude nearest to a decimal, ties to even.  `10 ^ 401` is above all doubles; and since
    `2^3 < 10`, a number below `2 ^ (log2 digits + 1 + 3 * exponent)` with a negative exponent is
    less than half of the smallest double once that power is below `2^-1075`. -/
def nearest (d : Decimal) : Magnitude :=
  if d.digits = 0 then .zero
  else if 400 < d.exponent then .infinity
  else if d.digits.log2 + 3 * d.exponent < -1076 then .zero
  else .nearest d.num d.den

/-! ## Positional text -/

/-- A digit string without the zeros at its end. -/
def trimZeros (digits : List Char) : List Char :=
  (digits.reverse.dropWhile (· == '0')).reverse

/-- Digits before and after the point.  There is always a digit before it, and the fraction does
    not end in zero. -/
def places (d : Decimal) : List Char × List Char :=
  let all := Nat.toDigits 10 d.digits ++ List.replicate d.exponent.toNat '0'
  let behind := (-d.exponent).toNat
  let padded := List.replicate (behind + 1 - all.length) '0' ++ all
  (padded.take (padded.length - behind), trimZeros (padded.drop (padded.length - behind)))

/-- The decimal in positional notation: no exponent, no zeros at the end of the fraction, and no
    point without a fraction. -/
def toText (d : Decimal) : List Char :=
  match d.places with
  | (whole, []) => whole
  | (whole, fraction) => whole ++ '.' :: fraction

end Decimal

end NumScript
