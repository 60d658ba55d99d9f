/-
  Magnitudes of binary64 numbers.

  A double without its sign is determined by its RANK: the place it takes when all non-negative
  doubles are counted upwards from zero, which is also what its lower 63 bits hold.  Ranks come in
  RUNS of `2^52`.  In the first two runs the doubles are one unit of `2^-1074` apart; from run to
  run after that the distance doubles.  Behind 2047 runs comes infinity, and nothing is above it.

  Everything here is arithmetic on natural numbers: `units` says what a rank is worth in units of
  `2^-1074`, and `nearest` finds the rank nearest to a given fraction, ties to the even rank.  So
  reading and writing decimals (`NumScript.Decimal`) never computes with a rounded value.

  A double has a sign and a magnitude (`ofFloat?`, `toFloat`), with one exception: NaN has neither.
  The main statements are that nothing else lies between doubles and their parts:
  `ofFloat?_toFloat`, `toFloat_of_ofFloat?` and `eq_nan_of_ofFloat?`.
-/

namespace NumScript

namespace Magnitude

/-- The number of ranks in a run, `2^52`. -/
abbrev runLength : Nat := 0x10000000000000

/-- The rank of infinity, `2047 * 2^52`. -/
abbrev lastRank : Nat := 0x7FF0000000000000

/-- What the sign adds to the bits of a double, `2^63`. -/
abbrev signBit : Nat := 0x8000000000000000

end Magnitude

/-- A non-negative double, infinity included and NaN not, by its rank. -/
structure Magnitude where
  /-- How many doubles lie between zero and this one. -/
  rank : Nat
  /-- Infinity is the last. -/
  rank_le : rank ≤ Magnitude.lastRank
deriving DecidableEq

namespace Magnitude

/-- Zero is the first magnitude. -/
def zero : Magnitude where
  rank := 0
  rank_le := Nat.zero_le _

/-- Infinity is the last magnitude. -/
def infinity : Magnitude where
  rank := lastRank
  rank_le := Nat.le_refl _

/-- The magnitude of rank `n`; ranks past the last one stand for infinity. -/
def ofRank (n : Nat) : Magnitude where
  rank := min n lastRank
  rank_le := Nat.min_le_right ..

/-! ## Value of a rank -/

/-- What rank `n` is worth in units of `2^-1074`: a rank of the first run counts units, and one of a
    later run stands so many steps behind the `2^52` steps with which the run begins. -/
def unitsOfRank (n : Nat) : Nat :=
  if n < runLength then n
  else (runLength + n % runLength) * Nat.pow 2 (n / runLength - 1)

/-- The value of a magnitude in units of `2^-1074`. -/
def units (m : Magnitude) : Nat :=
  unitsOfRank m.rank

/-! ## Nearest rank to a fraction -/

/-- The whole number nearest to `num / den`, an exact half going to the even neighbour. -/
def roundHalfEven (num den : Nat) : Nat :=
  if 2 * (num % den) < den ∨ 2 * (num % den) = den ∧ num / den % 2 = 0 then num / den
  else num / den + 1

/-- The magnitude nearest to `num / den`, ties to even.  The steps around the fraction are of
    `2^doublings` units, where `doublings` counts the binary digits that its whole number of units
    has beyond 53; rounding up past the end of a run lands on the first rank of the next. -/
def nearest (num den : Nat) : Magnitude :=
  let scaled := num * Nat.pow 2 1074
  let doublings := (scaled / den).log2 - 52
  ofRank (doublings * runLength + roundHalfEven scaled (den * Nat.pow 2 doublings))

/-! ## Doubles as a sign and a magnitude -/

/-- The bits of a double with this sign and magnitude: the rank and, above it, the sign. -/
def toBits (negative : Bool) (m : Magnitude) : UInt64 :=
  UInt64.ofNat (m.rank + if negative then signBit else 0)

theorem toNat_toBits (negative : Bool) (m : Magnitude) :
    (toBits negative m).toNat = m.rank + if negative then signBit else 0 := by
  have := m.rank_le
  rw [toBits, UInt64.toNat_ofNat']
  simp only [lastRank, signBit] at this ⊢
  split <;> omega

open Float.Model Float.Model.UnpackedFloat in
/-- Bits up to those of infinity are not those of a NaN. -/
theorem valid_of_le {bits : UInt64} (h : bits.toNat % signBit ≤ lastRank) :
    Format.binary64.Valid bits.toBitVec := by
  unfold signBit lastRank at h
  refine ⟨fun allOnes nonzero => ?_⟩
  have exponent := congrArg BitVec.toNat allOnes
  have mantissa : (@unpackMantissa Format.binary64 bits.toBitVec).toNat ≠ 0 :=
    fun zero => nonzero (BitVec.eq_of_toNat_eq zero)
  simp [unpackExponent, unpackMantissa, Nat.shiftRight_eq_div_pow] at exponent mantissa
  omega

theorem toNat_toBits_mod (negative : Bool) (m : Magnitude) :
    (toBits negative m).toNat % signBit = m.rank := by
  have := m.rank_le
  rw [toNat_toBits]
  simp only [lastRank, signBit] at this ⊢
  split <;> omega

/-- The double with this sign and magnitude. -/
def toFloat (negative : Bool) (m : Magnitude) : Float :=
  .ofModel ⟨toBits negative m, valid_of_le (toNat_toBits_mod negative m ▸ m.rank_le)⟩

/-- Sign and magnitude in the bits of a double. -/
def ofBits? (bits : Nat) : Option (Bool × Magnitude) :=
  if h : bits % signBit ≤ lastRank then some (decide (signBit ≤ bits), ⟨bits % signBit, h⟩)
  else none

/-- Sign and magnitude of a double, the sign being `true` below zero and for negative zero.
    Only a NaN has neither. -/
def ofFloat? (x : Float) : Option (Bool × Magnitude) :=
  ofBits? x.toBits.toNat

/-- The double without a magnitude, which is not a number. -/
def nan : Float :=
  .ofBits 0x7FF8000000000000

theorem toBits_toFloat (negative : Bool) (m : Magnitude) :
    (m.toFloat negative).toBits = toBits negative m := rfl

/-- Doubles with the same bits are the same. -/
theorem eq_of_toBits_eq {x y : Float} (h : x.toBits = y.toBits) : x = y := by
  obtain ⟨⟨b, hb⟩⟩ := x
  obtain ⟨⟨c, hc⟩⟩ := y
  have same : b = c := h
  subst same
  rfl

/-- Sign and magnitude are found again in the double that they make. -/
theorem ofFloat?_toFloat (negative : Bool) (m : Magnitude) :
    ofFloat? (m.toFloat negative) = some (negative, m) := by
  have rank := toNat_toBits_mod negative m
  have sign : decide (signBit ≤ (toBits negative m).toNat) = negative := by
    have := m.rank_le
    rw [toNat_toBits]
    simp only [lastRank, signBit] at this ⊢
    cases negative
    · exact decide_eq_false (by simp only [Bool.false_eq_true, ↓reduceIte]; omega)
    · exact decide_eq_true (by simp only [↓reduceIte]; omega)
  rw [ofFloat?, toBits_toFloat, ofBits?, dif_pos (rank ▸ m.rank_le)]
  simp only [sign, rank]

/-- A double that has a sign and a magnitude is the one that they make. -/
theorem toFloat_of_ofFloat? {x : Float} {negative : Bool} {m : Magnitude}
    (h : ofFloat? x = some (negative, m)) : m.toFloat negative = x := by
  rw [ofFloat?, ofBits?] at h
  split at h
  · injection h with h
    injection h with hn hm
    subst hn hm
    apply eq_of_toBits_eq
    rw [toBits_toFloat]
    apply UInt64.toNat_inj.1
    have := x.toBits.toNat_lt
    rw [toNat_toBits]
    simp only [decide_eq_true_eq, signBit]
    split <;> omega
  · exact absurd h (by simp)

open Float.Model Float.Model.UnpackedFloat in
/-- There is only one double without a magnitude. -/
theorem eq_nan_of_ofFloat? {x : Float} (h : ofFloat? x = none) : x = nan := by
  have large : lastRank < x.toBits.toNat % signBit := by
    rw [ofFloat?, ofBits?] at h
    split at h
    · exact absurd h (by simp)
    · exact Nat.lt_of_not_le ‹_›
  have bits : x.toBits.toNat = x.toModel.toBits.toNat := rfl
  rw [bits] at large
  unfold lastRank signBit at large
  have packed := x.toModel.valid.eq_packedNaN
    (by
      apply BitVec.eq_of_toNat_eq
      simp [unpackExponent, Nat.shiftRight_eq_div_pow]
      omega)
    (by
      intro zero
      have mantissa := congrArg BitVec.toNat zero
      simp [unpackMantissa, Nat.shiftRight_eq_div_pow] at mantissa
      omega)
  exact eq_of_toBits_eq (congrArg UInt64.ofBitVec packed)

end Magnitude

end NumScript
