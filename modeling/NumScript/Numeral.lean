/-
  Numbers as text.

  A double is written in positional notation with the fewest digits that read back as the same
  double; the three values without digits are `inf`, `-inf` and `NaN`.  Reading accepts more than
  is ever written: an optional sign, then digits with an optional point and an optional exponent,
  or one of the words for the values without digits in any case of letters.  What is read is
  rounded correctly, so a number too large becomes infinite and one too small becomes zero.
-/
import NumScript.Decimal.Shortest

namespace NumScript.Numeral

/-! ## Writing -/

/-- A magnitude in digits, or `inf`. -/
def writeMagnitude (m : Magnitude) : List Char :=
  if m = .infinity then "inf".toList else (Decimal.shortest m).toText

/-- The text of a number.  Negative zero keeps its sign and a NaN has none. -/
def write (x : Float) : String :=
  match Magnitude.ofFloat? x with
  | none => "NaN"
  | some (true, m) => String.ofList ('-' :: writeMagnitude m)
  | some (false, m) => String.ofList (writeMagnitude m)

/-! ## Reading -/

/-- The sign of a text, `true` for minus, and the text without it. -/
def splitSign : List Char → Bool × List Char
  | '-' :: rest => (true, rest)
  | '+' :: rest => (false, rest)
  | text => (false, text)

/-- The power of ten behind the digits: nothing at all, or the letter `e` in either case, an
    optional sign and at least one digit. -/
def exponent? : List Char → Option Int
  | [] => some 0
  | e :: rest =>
    let (negative, digits) := splitSign rest
    if (e = 'e' ∨ e = 'E') ∧ digits ≠ [] ∧ digits.all Char.isDigit then
      let size := Nat.ofDigitChars 10 digits 0
      some (if negative then -size else size)
    else none

/-- The digits behind an optional point, and what follows them. -/
def splitFraction : List Char → List Char × List Char
  | '.' :: rest => rest.span Char.isDigit
  | text => ([], text)

/-- A decimal without sign: digits with an optional point among them or at either end, at least one
    digit in all, and an optional exponent. -/
def decimal? (text : List Char) : Option Decimal :=
  let (whole, rest) := text.span Char.isDigit
  let (fraction, rest) := splitFraction rest
  if whole = [] ∧ fraction = [] then none
  else (exponent? rest).map (Decimal.ofDigits whole fraction)

/-- The number with this sign and this unsigned text. -/
def unsigned? (negative : Bool) (text : List Char) : Option Float :=
  let word := text.map Char.toLower
  if word = "nan".toList then some Magnitude.nan
  else if word = "inf".toList ∨ word = "infinity".toList then
    some (Magnitude.infinity.toFloat negative)
  else (decimal? text).map fun d => d.nearest.toFloat negative

/-- The number that a text spells. -/
def read? (text : String) : Option Float :=
  let (negative, rest) := splitSign text.toList
  unsigned? negative rest

/-- The value of a literal with these digits before and after the point. -/
def ofDigits (whole fraction : List Char) : Float :=
  (Decimal.ofDigits whole fraction 0).nearest.toFloat false

end NumScript.Numeral
