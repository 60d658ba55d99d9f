/-
  The shortest decimal that reads back as a given double.

  Every double is a decimal, though often a long one.  Dropping its last `c` digits leaves two
  neighbours on a coarser decimal grid, one below and one above; a neighbour is a HIT when rounding
  it to a double gives the value again.  The coarsest grid with a hit decides the number of digits,
  since a decimal with fewer digits that reads back would need a neighbour that does.  Of two hits
  the nearer one is taken, and of two equally near ones the upper.
-/
import NumScript.Decimal.Basic

namespace NumScript.Decimal

/-- The value of a magnitude as a decimal, exactly.  A fraction over `2^t` is one over `10^t` with
    `5^t` times the numerator; `t` is what is left of 1074 after reducing. -/
def exact (m : Magnitude) : Decimal :=
  let common := m.units.gcd (Nat.pow 2 1074)
  { digits := m.units / common * Nat.pow 5 (1074 - common.log2)
    exponent := common.log2 - 1074 }

/-- A decimal with its last `c` digits dropped. -/
def roundDown (d : Decimal) (c : Nat) : Decimal where
  digits := d.digits / Nat.pow 10 c
  exponent := d.exponent + c

/-- The next decimal above `d.roundDown c` on the same grid. -/
def roundUp (d : Decimal) (c : Nat) : Decimal where
  digits := d.digits / Nat.pow 10 c + 1
  exponent := d.exponent + c

/-- The neighbour of `d`, `c` digits shorter, that reads back as `m`: if both do, the nearer one,
    and the upper one if they are equally near. -/
def hit? (m : Magnitude) (d : Decimal) (c : Nat) : Option Decimal :=
  if (d.roundDown c).nearest = m then
    if Nat.pow 10 c ≤ 2 * (d.digits % Nat.pow 10 c) ∧ (d.roundUp c).nearest = m then
      some (d.roundUp c)
    else some (d.roundDown c)
  else if (d.roundUp c).nearest = m then some (d.roundUp c)
  else none

/-- The hit with the most digits dropped, but at most `c` of them, or else `d` itself. -/
def shorten (m : Magnitude) (d : Decimal) : Nat → Decimal
  | 0 => d
  | c + 1 => (hit? m d (c + 1)).getD (shorten m d c)

/-- The decimal with the fewest digits that reads back as `m`, and of those the nearest. -/
def shortest (m : Magnitude) : Decimal :=
  shorten m (exact m) ((Nat.toDigits 10 (exact m).digits).length - 1)

end NumScript.Decimal
