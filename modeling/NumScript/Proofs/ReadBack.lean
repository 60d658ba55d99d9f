/-
  Numbers are read back as they were written.

  What a number is rounded to depends on its value alone: the two shortcuts in `Decimal.nearest`
  only save work (`Decimal.nearest_eq`), and a fraction may be expanded by any factor
  (`Magnitude.ofUnits_congr`).  So it does not matter that zeros are added to the digits of a
  decimal, or taken off, when it is written (`Decimal.nearest_places`).

  The decimal that is written reads back as the double that it stands for.  Every hit does, because
  that is what makes it a hit, and the search for one begins with the exact value, of which nothing
  is rounded away (`Decimal.nearest_exact`).  Hence the text of a finite number without sign spells
  a literal with the same value (`Lexicon.kind?_write`), and the text of any number, with sign,
  infinite or none at all, is read as this number (`Numeral.read?_write`).
-/
import Mathlib.Data.Nat.Prime.Basic
import Mathlib.Tactic.Ring
import NumScript.Proofs.Lexicon

namespace NumScript

/-! ## Rounding depends on the value -/

namespace Magnitude

/-- The magnitude nearest to this fraction of units. -/
def ofUnits (num den : Nat) : Magnitude :=
  ofRank (((num / den).log2 - 52) * runLength +
    roundHalfEven num (den * 2 ^ ((num / den).log2 - 52)))

/-- A fraction may be expanded before it is rounded. -/
theorem roundHalfEven_mul {c : Nat} (pos : 0 < c) (num den : Nat) :
    roundHalfEven (num * c) (den * c) = roundHalfEven num den := by
  have below : 2 * (num % den * c) < den * c ↔ 2 * (num % den) < den := by
    rw [← Nat.mul_assoc, Nat.mul_lt_mul_right pos]
  have half : 2 * (num % den * c) = den * c ↔ 2 * (num % den) = den := by
    rw [← Nat.mul_assoc, Nat.mul_left_inj (Nat.ne_of_gt pos)]
  unfold roundHalfEven
  rw [Nat.mul_mod_mul_right, Nat.mul_div_mul_right _ _ pos]
  simp only [below, half]

/-- A whole number is not rounded. -/
theorem roundHalfEven_one (n : Nat) : roundHalfEven n 1 = n := by
  unfold roundHalfEven
  rw [Nat.mod_one, Nat.div_one, if_pos (.inl Nat.one_pos)]

/-- A fraction may be expanded. -/
theorem ofUnits_mul {c : Nat} (pos : 0 < c) (num den : Nat) :
    ofUnits (num * c) (den * c) = ofUnits num den := by
  unfold ofUnits
  rw [Nat.mul_div_mul_right _ _ pos, Nat.mul_right_comm den c, roundHalfEven_mul pos]

/-- Fractions of the same value are rounded to the same magnitude. -/
theorem ofUnits_congr {num den num' den' : Nat} (pos : 0 < den) (pos' : 0 < den')
    (same : num * den' = num' * den) : ofUnits num den = ofUnits num' den' := by
  rw [← ofUnits_mul pos' num den, ← ofUnits_mul pos num' den', same, Nat.mul_comm den]

/-- A whole number of units is rounded to a multiple of the step at its place. -/
theorem ofUnits_one (n : Nat) : ofUnits n 1 =
    ofRank ((n.log2 - 52) * runLength + roundHalfEven n (2 ^ (n.log2 - 52))) := by
  rw [ofUnits, Nat.div_one, Nat.one_mul]

/-! ## Magnitudes are nearest to themselves -/

/-- The rank of a magnitude says which one it is. -/
theorem ofRank_rank (m : Magnitude) : ofRank m.rank = m := by
  obtain ⟨rank, le⟩ := m
  simp only [ofRank, Nat.min_eq_left le]

/-- All ranks from the last one on are infinite. -/
theorem ofRank_of_le {n : Nat} (h : lastRank ≤ n) : ofRank n = infinity := by
  simp only [ofRank, Nat.min_eq_right h, infinity]

/-- Steps of `2^doublings` units, at least `2^52` and less than `2^53` of them, take 52 and
    `doublings` binary digits more than the first. -/
theorem log2_steps {steps : Nat} (low : runLength ≤ steps) (high : steps < 2 * runLength)
    (doublings : Nat) : (steps * 2 ^ doublings).log2 = 52 + doublings := by
  have nonzero : steps * 2 ^ doublings ≠ 0 :=
    Nat.ne_of_gt (Nat.mul_pos (by omega) (Nat.two_pow_pos doublings))
  have lower : 52 + doublings ≤ (steps * 2 ^ doublings).log2 := by
    rw [Nat.le_log2 nonzero, Nat.pow_add]
    exact Nat.mul_le_mul_right _ low
  have upper : (steps * 2 ^ doublings).log2 < 53 + doublings := by
    rw [Nat.log2_lt nonzero, Nat.pow_add]
    exact Nat.mul_lt_mul_of_pos_right high (Nat.two_pow_pos doublings)
  omega

/-- A magnitude is the one nearest to its value. -/
theorem ofUnits_units (m : Magnitude) : ofUnits m.units 1 = m := by
  rw [ofUnits_one]
  unfold units unitsOfRank
  split
  · rename_i low
    have small : m.rank.log2 - 52 = 0 := by
      by_cases zero : m.rank = 0
      · rw [zero]
        rfl
      · have := (Nat.log2_lt zero).mpr (show m.rank < 2 ^ 52 from low)
        omega
    rw [small, Nat.zero_mul, Nat.zero_add, Nat.pow_zero, roundHalfEven_one, ofRank_rank]
  · rename_i high
    have within : m.rank % runLength < runLength := Nat.mod_lt _ (by decide)
    have split := Nat.div_add_mod m.rank runLength
    generalize m.rank % runLength = place at within split ⊢
    obtain ⟨doublings, run⟩ : ∃ doublings, m.rank / runLength = doublings + 1 :=
      Nat.exists_eq_add_one_of_ne_zero fun none => by
        rw [none] at split
        omega
    rw [run] at split ⊢
    have bits := log2_steps (Nat.le_add_right runLength place)
      (show runLength + place < 2 * runLength by omega) doublings
    have whole := roundHalfEven_mul (Nat.two_pow_pos doublings) (runLength + place) 1
    rw [Nat.one_mul, roundHalfEven_one] at whole
    rw [Nat.add_sub_cancel, Nat.pow_eq, bits, Nat.add_sub_cancel_left, whole]
    -- the steps before the run, and those in it
    have rank : doublings * runLength + (runLength + place) = m.rank := by
      unfold runLength at split ⊢
      omega
    rw [rank, ofRank_rank]

/-! ## Far outside the range of doubles -/

/-- Less than half a unit is rounded to zero. -/
theorem ofUnits_of_small {num den : Nat} (h : 2 * num < den) : ofUnits num den = zero := by
  have quotient : num / den = 0 := Nat.div_eq_of_lt (by omega)
  have rest : num % den = num := Nat.mod_eq_of_lt (by omega)
  unfold ofUnits
  rw [quotient]
  show ofRank (0 * runLength + roundHalfEven num (den * 2 ^ 0)) = zero
  unfold roundHalfEven
  rw [Nat.pow_zero, Nat.mul_one, rest, if_pos (.inl h), quotient]
  rfl

/-- What has 2100 binary digits or more is beyond all finite doubles. -/
theorem ofUnits_of_large {num : Nat} (h : 2100 ≤ num.log2) : ofUnits num 1 = infinity := by
  have far : lastRank ≤ (num.log2 - 52) * runLength := by
    unfold lastRank runLength
    omega
  rw [ofUnits_one]
  exact ofRank_of_le (Nat.le_trans far (Nat.le_add_right _ _))

end Magnitude

/-! ## Decimals -/

namespace Decimal

theorem den_pos (d : Decimal) : 0 < d.den := Nat.pow_pos (by decide)

/-- A power of ten is at least that power of eight. -/
theorem two_pow_le_ten_pow (n : Nat) : 2 ^ (3 * n) ≤ 10 ^ n := by
  rw [Nat.pow_mul]
  exact Nat.pow_le_pow_left (by decide) n

/-- Each power of ten adds at least three binary digits. -/
theorem le_log2_num {d : Decimal} (some : d.digits ≠ 0) (e : Nat) :
    3 * d.exponent.toNat + e ≤ (d.num * Nat.pow 2 e).log2 := by
  have high : 2 ^ (3 * d.exponent.toNat) ≤ d.num :=
    Nat.le_trans (two_pow_le_ten_pow _) (Nat.le_mul_of_pos_left _ (Nat.pos_of_ne_zero some))
  have scaled : 2 ^ (3 * d.exponent.toNat + e) ≤ d.num * 2 ^ e := by
    rw [Nat.pow_add]
    exact Nat.mul_le_mul_right _ high
  exact (Nat.le_log2 (Nat.ne_of_gt (Nat.lt_of_lt_of_le (Nat.two_pow_pos _) scaled))).mpr scaled

/-- Places behind the point outweigh digits and units. -/
theorem scaled_lt {digits n e : Nat} (h : digits.log2 + e + 2 ≤ 3 * n) :
    2 * (digits * Nat.pow 2 e) < Nat.pow 10 n := by
  have below : digits < 2 ^ (digits.log2 + 1) := Nat.lt_log2_self
  calc 2 * (digits * 2 ^ e)
      = digits * 2 ^ (e + 1) := by ring
    _ < 2 ^ (digits.log2 + 1) * 2 ^ (e + 1) :=
        Nat.mul_lt_mul_of_pos_right below (Nat.two_pow_pos _)
    _ = 2 ^ (digits.log2 + e + 2) := by rw [← Nat.pow_add]; congr 1; omega
    _ ≤ 2 ^ (3 * n) := Nat.pow_le_pow_right (by decide) h
    _ ≤ 10 ^ n := two_pow_le_ten_pow n

theorem num_of_le {d : Decimal} (h : d.exponent ≤ 0) : d.num = d.digits := by
  rw [num, Int.toNat_of_nonpos h]
  exact Nat.mul_one _

theorem den_of_le {d : Decimal} (h : 0 ≤ d.exponent) : d.den = 1 := by
  rw [den, Int.toNat_of_nonpos (Int.neg_nonpos_of_nonneg h), Nat.pow_eq, Nat.pow_zero]

/-- A decimal with a power of ten that is large enough is beyond all doubles. -/
theorem ofUnits_num {d : Decimal} (some : d.digits ≠ 0) (e : Nat)
    (far : 2100 ≤ 3 * d.exponent.toNat + e) :
    Magnitude.ofUnits (d.num * Nat.pow 2 e) 1 = .infinity :=
  Magnitude.ofUnits_of_large (Nat.le_trans far (le_log2_num some e))

/-- The shortcuts only save work.  The number of binary places is given a name so that its power of
    two is not computed. -/
theorem nearest_eq (d : Decimal) {places : Nat} (h : places = 1074) :
    d.nearest = .ofUnits (d.num * Nat.pow 2 places) d.den := by
  unfold nearest
  split
  · rename_i none
    have nothing : d.num = 0 := by rw [num, none, Nat.zero_mul]
    simp only [nothing, Nat.zero_mul]
    exact (Magnitude.ofUnits_of_small d.den_pos).symm
  rename_i some
  split
  · rename_i large
    have far : 2100 ≤ 3 * d.exponent.toNat + places := by omega
    rw [den_of_le (by omega), ofUnits_num some places far]
  split
  · rename_i small
    have below : d.digits.log2 + places + 2 ≤ 3 * (-d.exponent).toNat := by omega
    rw [num_of_le (by omega)]
    exact (Magnitude.ofUnits_of_small (scaled_lt below)).symm
  · unfold Magnitude.nearest
    rw [← h]
    rfl

/-- Decimals of the same value are rounded to the same magnitude. -/
theorem nearest_congr {d d' : Decimal} (same : d.num * d'.den = d'.num * d.den) :
    d.nearest = d'.nearest := by
  rw [nearest_eq d rfl, nearest_eq d' rfl]
  refine Magnitude.ofUnits_congr d.den_pos d'.den_pos ?_
  rw [Nat.mul_right_comm, same, Nat.mul_right_comm]

/-! ## Shortest decimals -/

/-- Units over a power of two, reduced, are tenths with as many places. -/
theorem reduced_mul {units k e : Nat} (le : k ≤ e) (divides : 2 ^ k ∣ units) :
    units / Nat.pow 2 k * Nat.pow 5 (e - k) * Nat.pow 2 e = units * Nat.pow 10 (e - k) := by
  have all : 2 ^ e = 2 ^ k * 2 ^ (e - k) := by rw [← Nat.pow_add, Nat.add_sub_cancel' le]
  calc units / 2 ^ k * 5 ^ (e - k) * 2 ^ e
      = units / 2 ^ k * 2 ^ k * (5 ^ (e - k) * 2 ^ (e - k)) := by rw [all]; ring
    _ = units * 10 ^ (e - k) := by rw [Nat.div_mul_cancel divides, ← Nat.mul_pow]

/-- The common divisor with a power of two is a power of two itself. -/
theorem exists_gcd_two_pow (n e : Nat) :
    ∃ k ≤ e, n.gcd (Nat.pow 2 e) = Nat.pow 2 k ∧ (n.gcd (Nat.pow 2 e)).log2 = k ∧
      Nat.pow 2 k ∣ n := by
  obtain ⟨k, le, common⟩ := (Nat.dvd_prime_pow Nat.prime_two).mp (Nat.gcd_dvd_right n (2 ^ e))
  have divides := Nat.gcd_dvd_left n (2 ^ e)
  rw [common] at divides
  exact ⟨k, le, common, (congrArg Nat.log2 common).trans Nat.log2_two_pow, divides⟩

theorem exact_eq (m : Magnitude) {places : Nat} (h : places = 1074) :
    exact m =
      ⟨m.units / m.units.gcd (Nat.pow 2 places) *
          Nat.pow 5 (places - (m.units.gcd (Nat.pow 2 places)).log2),
        (m.units.gcd (Nat.pow 2 places)).log2 - 1074⟩ := by
  unfold exact
  rw [← h]

/-- The exact value of a magnitude is rounded to it. -/
theorem nearest_exact (m : Magnitude) : (exact m).nearest = m := by
  obtain ⟨places, binary⟩ : ∃ places, places = 1074 := ⟨1074, rfl⟩
  obtain ⟨k, le, common, log, divides⟩ := exists_gcd_two_pow m.units places
  have reduced := exact_eq m binary
  rw [log, common] at reduced
  have den : (exact m).den = Nat.pow 10 (places - k) := by
    rw [reduced, Decimal.den]
    congr 1
    dsimp only
    omega
  have num : (exact m).num = m.units / Nat.pow 2 k * Nat.pow 5 (places - k) := by
    rw [reduced, num_of_le]
    dsimp only
    omega
  rw [nearest_eq (exact m) binary, num, den]
  have pos : 0 < Nat.pow 10 (places - k) := Nat.pow_pos (by decide)
  refine Eq.trans (Magnitude.ofUnits_congr pos Nat.one_pos ?_) m.ofUnits_units
  rw [Nat.mul_one]
  exact reduced_mul le divides

/-- A hit stands for the magnitude, since this is what is asked of it. -/
theorem nearest_of_hit? {m : Magnitude} {d d' : Decimal} {c : Nat} (h : hit? m d c = some d') :
    d'.nearest = m := by
  unfold hit? at h
  split at h
  · split at h
    · rename_i both
      exact Option.some.inj h ▸ both.2
    · rename_i down _
      exact Option.some.inj h ▸ down
  · split at h
    · rename_i up
      exact Option.some.inj h ▸ up
    · cases h

/-- To drop digits leaves a decimal that stands for the magnitude. -/
theorem nearest_shorten {m : Magnitude} {d : Decimal} (h : d.nearest = m) (c : Nat) :
    (shorten m d c).nearest = m := by
  induction c with
  | zero => exact h
  | succ c ih =>
    rw [shorten]
    cases hit : hit? m d (c + 1) with
    | none => exact ih
    | some d' => exact nearest_of_hit? hit

/-- The shortest decimal of a magnitude reads back as the magnitude. -/
theorem nearest_shortest (m : Magnitude) : (shortest m).nearest = m :=
  nearest_shorten (nearest_exact m) _

/-! ## Positional text -/

/-- Only zeros are taken off. -/
theorem exists_trimZeros (digits : List Char) :
    ∃ n, trimZeros digits ++ List.replicate n '0' = digits := by
  have zeros : ∀ c ∈ digits.reverse.takeWhile (· == '0'), c = '0' := by
    intro c mem
    exact eq_of_beq (List.all_eq_true.mp List.all_takeWhile c mem)
  refine ⟨(digits.reverse.takeWhile (· == '0')).length, ?_⟩
  rw [trimZeros, ← List.reverse_replicate, ← List.eq_replicate_of_mem zeros, ← List.reverse_append,
    List.takeWhile_append_dropWhile, List.reverse_reverse]

/-- All digits of a decimal, with the zeros that positional notation needs. -/
def padded (d : Decimal) : List Char :=
  let all := Nat.toDigits 10 d.digits ++ List.replicate d.exponent.toNat '0'
  List.replicate ((-d.exponent).toNat + 1 - all.length) '0' ++ all

theorem isDigit_of_mem_padded (d : Decimal) : ∀ c ∈ d.padded, c.isDigit = true := by
  have zero (n : Nat) : ∀ c ∈ List.replicate n '0', c.isDigit = true := by
    intro c mem
    rw [List.eq_of_mem_replicate mem]
    rfl
  unfold padded
  simp only [List.forall_mem_append]
  exact ⟨zero _, fun c => Nat.isDigit_of_mem_toDigits (by decide) (by decide), zero _⟩

theorem length_padded (d : Decimal) : (-d.exponent).toNat < d.padded.length := by
  unfold padded
  simp only [List.length_append, List.length_replicate]
  omega

/-- Read as a number, the padded digits are those of the decimal, with the zeros of its power of
    ten. -/
theorem ofDigitChars_padded (d : Decimal) : Nat.ofDigitChars 10 d.padded 0 = d.num := by
  unfold padded num
  simp only [Nat.ofDigitChars_append, Nat.ofDigitChars_replicate_zero, Nat.mul_zero,
    Nat.ofDigitChars_ten_toDigits]
  exact Nat.mul_comm _ _

theorem places_eq (d : Decimal) :
    d.places = (d.padded.take (d.padded.length - (-d.exponent).toNat),
      trimZeros (d.padded.drop (d.padded.length - (-d.exponent).toNat))) := rfl

/-- The two sides of the point are the padded digits, less zeros at the end. -/
theorem exists_places (d : Decimal) :
    ∃ n, d.places.1 ++ d.places.2 ++ List.replicate n '0' = d.padded ∧
      d.places.2.length + n = (-d.exponent).toNat := by
  have long := d.length_padded
  obtain ⟨n, trimmed⟩ := exists_trimZeros (d.padded.drop (d.padded.length - (-d.exponent).toNat))
  rw [places_eq]
  refine ⟨n, ?_, ?_⟩
  · rw [List.append_assoc, trimmed, List.take_append_drop]
  · have length := congrArg List.length trimmed
    rw [List.length_append, List.length_replicate, List.length_drop] at length
    dsimp only
    omega

/-- There is a digit in front of the point. -/
theorem places_ne_nil (d : Decimal) : d.places.1 ≠ [] := by
  have long := d.length_padded
  rw [places_eq]
  intro none
  have length := congrArg List.length none
  rw [List.length_take, List.length_nil] at length
  omega

/-- On both sides of the point stand digits only. -/
theorem isDigit_of_mem_places (d : Decimal) :
    (∀ c ∈ d.places.1, c.isDigit = true) ∧ ∀ c ∈ d.places.2, c.isDigit = true := by
  obtain ⟨n, all, _⟩ := d.exists_places
  have digits := d.isDigit_of_mem_padded
  rw [← all, List.forall_mem_append, List.forall_mem_append] at digits
  exact digits.1

/-- The digits that are written have the value of the decimal. -/
theorem nearest_places (d : Decimal) : (ofDigits d.places.1 d.places.2 0).nearest = d.nearest := by
  obtain ⟨n, all, length⟩ := d.exists_places
  have value := d.ofDigitChars_padded
  rw [← all, Nat.ofDigitChars_append, Nat.ofDigitChars_replicate_zero] at value
  have noZeros : ((0 : Int) - d.places.2.length).toNat = 0 := by omega
  have behind : (-((0 : Int) - d.places.2.length)).toNat = d.places.2.length := by omega
  refine nearest_congr ?_
  rw [← value]
  unfold ofDigits num den
  dsimp only
  rw [noZeros, behind, ← length]
  show _ * 10 ^ 0 * 10 ^ (_ + n) = _
  rw [Nat.pow_add]
  show _ = 10 ^ n * _ * 10 ^ _
  ring

/-- A decimal is written like a literal with its digits. -/
theorem toText_eq (d : Decimal) :
    d.toText = (Source.Piece.number d.places.1 d.places.2).text := by
  unfold toText
  obtain ⟨whole, fraction⟩ := d.places
  cases fraction <;> rfl

end Decimal

/-! ## Magnitudes -/

namespace Numeral

/-- A finite magnitude is written like a literal with the digits of its shortest decimal. -/
theorem writeMagnitude_of_ne {m : Magnitude} (finite : m ≠ .infinity) :
    writeMagnitude m = (Source.Piece.number (Decimal.shortest m).places.1
      (Decimal.shortest m).places.2).text := by
  rw [writeMagnitude, if_neg finite, Decimal.toText_eq]

/-- The text of a magnitude, behind a sign or without one, is read as this magnitude. -/
theorem unsigned?_writeMagnitude (negative : Bool) (m : Magnitude) :
    unsigned? negative (writeMagnitude m) = some (m.toFloat negative) := by
  by_cases finite : m = .infinity
  · rw [finite]
    rfl
  · have digits := (Decimal.shortest m).isDigit_of_mem_places
    rw [writeMagnitude_of_ne finite,
      Lexicon.unsigned?_text (Decimal.shortest m).places_ne_nil digits.1 digits.2,
      Decimal.nearest_places, Decimal.nearest_shortest]

/-- The text of a magnitude begins with no sign. -/
theorem splitSign_writeMagnitude (m : Magnitude) :
    splitSign (writeMagnitude m) = (false, writeMagnitude m) := by
  by_cases finite : m = .infinity
  · rw [finite]
    rfl
  · have digits := (Decimal.shortest m).isDigit_of_mem_places
    obtain ⟨c, rest, text, digit⟩ := Lexicon.exists_text (Decimal.shortest m).places.2
      (Decimal.shortest m).places_ne_nil digits.1
    rw [writeMagnitude_of_ne finite, text, Lexicon.splitSign_of_isDigit digit]

end Numeral

/-! ## Numbers as lexemes -/

namespace Lexicon

/-- The text of a finite number without sign spells a literal with its value. -/
theorem kind?_write {m : Magnitude} (finite : m ≠ .infinity) :
    kind? (Numeral.write (m.toFloat false)) = some (.number (m.toFloat false)) := by
  have written : Numeral.write (m.toFloat false) = String.ofList (Source.Piece.number
      (Decimal.shortest m).places.1 (Decimal.shortest m).places.2).text := by
    rw [Numeral.write, Magnitude.ofFloat?_toFloat, ← Numeral.writeMagnitude_of_ne finite]
  have digits := (Decimal.shortest m).isDigit_of_mem_places
  rw [written, kind?_number (Decimal.shortest m).places_ne_nil digits.1 digits.2, Numeral.ofDigits,
    Decimal.nearest_places, Decimal.nearest_shortest]

end Lexicon

/-! ## All numbers -/

namespace Numeral

/-- Every number is read back as it was written: a zero with its sign, the infinite ones, and what
    is not a number as not a number. -/
theorem read?_write (x : Float) : read? (write x) = some x := by
  cases parts : Magnitude.ofFloat? x with
  | none =>
    rw [write, parts, Magnitude.eq_nan_of_ofFloat? parts]
    rfl
  | some signed =>
    obtain ⟨negative, m⟩ := signed
    rw [write, parts, ← Magnitude.toFloat_of_ofFloat? parts]
    cases negative with
    | true =>
      show read? (String.ofList ('-' :: writeMagnitude m)) = _
      rw [read?, String.toList_ofList]
      exact unsigned?_writeMagnitude true m
    | false =>
      show read? (String.ofList (writeMagnitude m)) = _
      rw [read?, String.toList_ofList, splitSign_writeMagnitude]
      exact unsigned?_writeMagnitude false m

end Numeral

end NumScript
