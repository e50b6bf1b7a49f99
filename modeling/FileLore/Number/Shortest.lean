import FileLore.Number.Binary64
import FileLore.Text.Decimal

/-!
# The shortest decimal for a double-precision number

A number of the format is written with the fewest decimal digits that read back
to it, and of several such decimals with the one nearest to it. The reals that
read back to a number form an interval about it, reaching half way to its
neighbours; the ends belong to it when the mantissa is even. For one digit, two
digits and so on, up to seventeen, the two decimals next to the number on the
grid with so many digits are tried: if any point of a grid lies in the interval,
so does one of these.
-/

namespace FileLore

open Text

/-- A decimal `0.d₁d₂… · 10 ^ point`, the digits given as one number without trailing zeros, so
`point` digits stand before the decimal point. -/
structure ShortDecimal where
  digits : Nat
  point : Int
  deriving DecidableEq, Repr

namespace Magnitude

/-- The number times four over a common denominator, with the ends of the interval of reals that
round to it: low end, number, high end, denominator. The low end is nearer at a power of two, where
the numbers below lie twice as close. -/
def interval (x : Magnitude) : Nat × Nat × Nat × Nat :=
  let up := Nat.pow 2 x.exponent.toNat
  let down := Nat.pow 2 (-x.exponent).toNat
  let below := if x.mantissa = Nat.pow 2 (precision - 1) && leastExponent < x.exponent then 1 else 2
  ((4 * x.mantissa - below) * up, 4 * x.mantissa * up, (4 * x.mantissa + 2) * up, 4 * down)

/-- The number of digits that `n` has before the decimal point. -/
def digitCount (n : Nat) : Nat :=
  if n = 0 then 0 else (natText n).length

/-- The power of ten just above a positive ratio, found from `guess` by at most `fuel` steps
down. -/
def tenAbove (numerator denominator : Nat) : Nat → Int → Int
  | 0, power => power
  | fuel + 1, power =>
    if numerator * Nat.pow 10 (1 - power).toNat < denominator * Nat.pow 10 (power - 1).toNat then
      tenAbove numerator denominator fuel (power - 1)
    else power

/-- How many digits a positive ratio has before its decimal point; for a ratio below one tenth,
minus the zeros that come first after the point. -/
def pointOf (numerator denominator : Nat) : Int :=
  let guess : Int := Int.ofNat (digitCount numerator) - Int.ofNat (digitCount denominator) + 1
  tenAbove numerator denominator 2 guess

/-- The decimal without the zeros its digits end in; `fuel` bounds how many are dropped. -/
def dropZeros : Nat → Nat → Nat
  | 0, digits => digits
  | fuel + 1, digits =>
    if digits % 10 = 0 && digits != 0 then dropZeros fuel (digits / 10) else digits

/-- The decimal with `count` digits that reads back to `x` and is nearest to it, as the number of
steps on the grid of such decimals. -/
def onGrid? (x : Magnitude) (point : Int) (count : Nat) : Option Nat :=
  let (low, value, high, denominator) := x.interval
  let step : Int := point - Int.ofNat count
  let up := Nat.pow 10 step.toNat * denominator
  let down := Nat.pow 10 (-step).toNat
  let closed := x.mantissa % 2 = 0
  let inside (n : Nat) : Bool :=
    if closed then low * down ≤ n * up && n * up ≤ high * down
    else low * down < n * up && n * up < high * down
  let below := value * down / up
  let above := below + 1
  match inside below, inside above with
  | true, true =>
    -- Both neighbours read back: the nearer one counts, and of two equally near ones the even.
    let toBelow := value * down - below * up
    let toAbove := above * up - value * down
    if toBelow < toAbove || (toBelow == toAbove && below % 2 == 0) then some below else some above
  | true, false => some below
  | false, true => some above
  | false, false => none

/-- The first grid, from `count` digits on, with a decimal that reads back. -/
def firstGrid (x : Magnitude) (point : Int) : Nat → Nat → ShortDecimal
  | 0, count => ⟨(x.onGrid? point count).getD 0, point⟩
  | fuel + 1, count =>
    match x.onGrid? point count with
    | some n =>
      -- Rounding up may have carried into one digit more than the grid has.
      let point := if Nat.pow 10 count ≤ n then point + 1 else point
      ⟨dropZeros 20 n, point⟩
    | none => firstGrid x point fuel (count + 1)

/-- The shortest decimal for a positive number. Seventeen digits always suffice. -/
def shortest (x : Magnitude) : ShortDecimal :=
  let (numerator, denominator) := x.ratio
  firstGrid x (pointOf numerator denominator) 17 1

end Magnitude

/-- Where a decimal is written with its point in place: with at most `most` digits before the point,
and with fewer than `leading` zeros right after it. -/
structure PointStyle where
  most : Int
  leading : Int

/-- The decimal with the point in place, always with a digit on either side of it. -/
def ShortDecimal.positional (x : ShortDecimal) : List Char :=
  let digits := natText x.digits
  if x.point ≤ 0 then
    ['0', '.'] ++ List.replicate (-x.point).toNat '0' ++ digits
  else
    let whole := x.point.toNat
    if digits.length ≤ whole then
      digits ++ List.replicate (whole - digits.length) '0' ++ ['.', '0']
    else digits.take whole ++ '.' :: digits.drop whole

/-- The decimal with one digit before the point and a signed power of ten after it. -/
def ShortDecimal.scientific (x : ShortDecimal) : List Char :=
  let power := x.point - 1
  let shownPower := (if power < 0 then ['-'] else ['+']) ++ natText power.natAbs
  match natText x.digits with
  | [] => 'e' :: shownPower
  | [digit] => digit :: 'e' :: shownPower
  | digit :: more => digit :: '.' :: more ++ 'e' :: shownPower

/-- The decimal in the notation that the style calls for. -/
def ShortDecimal.text (style : PointStyle) (x : ShortDecimal) : List Char :=
  if -style.leading < x.point && x.point ≤ style.most then x.positional else x.scientific

/-- The number in decimal; zero has one zero on either side of the point. -/
def Binary64.text (style : PointStyle) (x : Binary64) : List Char :=
  let shown :=
    if x.magnitude.mantissa = 0 then ['0', '.', '0'] else x.magnitude.shortest.text style
  if x.negative then '-' :: shown else shown

end FileLore
