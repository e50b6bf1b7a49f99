/-!
# Double-precision numbers

The finite numbers of 64-bit binary floating point, held exactly: a sign and a
magnitude `mantissa · 2 ^ exponent`. Every operation works out its result as a
ratio of natural numbers and rounds it once, to the nearest number of the format
and of two equally near ones to the one with the even mantissa.
-/

namespace FileLore

/-- A nonnegative number of the format, `mantissa · 2 ^ exponent`. The mantissa has at most 53 bits,
and exactly 53 unless the exponent is the least one. -/
structure Magnitude where
  mantissa : Nat
  exponent : Int
  deriving DecidableEq, Repr

/-- A finite number of the format. Zero has a sign as well. -/
structure Binary64 where
  negative : Bool
  magnitude : Magnitude
  deriving DecidableEq, Repr

namespace Magnitude

/-- The number of bits of a mantissa. -/
def precision : Nat := 53

/-- The exponent of the smallest numbers. -/
def leastExponent : Int := -1074

/-- The exponent of the largest numbers. -/
def greatestExponent : Int := 971

/-- Nothing. -/
def zero : Magnitude := ⟨0, leastExponent⟩

/-- The ratio, as numerator and denominator, that the magnitude stands for. -/
def ratio (x : Magnitude) : Nat × Nat :=
  (x.mantissa * Nat.pow 2 x.exponent.toNat, Nat.pow 2 (-x.exponent).toNat)

/-- The ratio of two natural numbers to the nearest whole number, a half to the even one. -/
def nearestWhole (numerator denominator : Nat) : Nat :=
  let whole := numerator / denominator
  let double := 2 * (numerator % denominator)
  if double < denominator then whole
  else if denominator < double then whole + 1
  else whole + whole % 2

/-- The ratio divided by `2 ^ exponent`, to the nearest whole number. -/
def mantissaAt (exponent : Int) (numerator denominator : Nat) : Nat :=
  nearestWhole (numerator * Nat.pow 2 (-exponent).toNat)
    (denominator * Nat.pow 2 exponent.toNat)

/-- The ratio divided by `2 ^ exponent`, rounded down. -/
def floorAt (exponent : Int) (numerator denominator : Nat) : Nat :=
  (numerator * Nat.pow 2 (-exponent).toNat) / (denominator * Nat.pow 2 exponent.toNat)

/-- The exponent at which a positive ratio has a mantissa of full length, or the least one. A guess
from the lengths of the two numbers is at most one too small. -/
def exponentOf (numerator denominator : Nat) : Int :=
  let guess : Int := Int.ofNat numerator.log2 - Int.ofNat denominator.log2 - Int.ofNat precision
  let exponent := max guess leastExponent
  if floorAt exponent numerator denominator < Nat.pow 2 precision then exponent else exponent + 1

/-- The number of the format nearest to a ratio; none if that lies beyond the largest one. -/
def ofRatio? (numerator denominator : Nat) : Option Magnitude :=
  if numerator = 0 then some zero
  else
    let exponent := exponentOf numerator denominator
    let mantissa := mantissaAt exponent numerator denominator
    let rounded : Magnitude :=
      if mantissa < Nat.pow 2 precision then ⟨mantissa, exponent⟩
      else ⟨mantissa / 2, exponent + 1⟩
    if rounded.exponent ≤ greatestExponent then some rounded else none

/-- The product, rounded; none if it is too large. -/
def mul? (x y : Magnitude) : Option Magnitude :=
  ofRatio? (x.ratio.1 * y.ratio.1) (x.ratio.2 * y.ratio.2)

/-- The quotient by a positive number, rounded; none if it is too large. -/
def div? (x y : Magnitude) : Option Magnitude :=
  ofRatio? (x.ratio.1 * y.ratio.2) (x.ratio.2 * y.ratio.1)

end Magnitude

namespace Binary64

/-- Whether the number is greater than zero. -/
def isPositive (x : Binary64) : Bool :=
  !x.negative && x.magnitude.mantissa != 0

end Binary64

end FileLore
