/-!
# Shortest decimals

A double stands for all real numbers that round to it. The shortest decimal of a positive finite
double is the number of that interval with the fewest significant digits, and the one nearest to the
double if there are several; of two that are equally near, the one whose last digit is even.

Every comparison is made exactly, on natural numbers.
-/

namespace LastLayer

/-- The decimal number `digits * 10 ^ exponent`. -/
structure Decimal where
  /-- The significant digits, read as a number. -/
  digits : Nat
  /-- The place value of the last digit. -/
  exponent : Int
deriving DecidableEq

namespace Decimal

/-- The numbers that round to a double, as multiples of a fraction. The bounds are counted in units
of a quarter of the distance to the next greater double. -/
structure Interval where
  /-- The lower bound. -/
  lower : Nat
  /-- The double itself. -/
  value : Nat
  /-- The upper bound. -/
  upper : Nat
  /-- The unit is two to this power. -/
  exponent : Int
  /-- Whether the bounds themselves belong to the interval. -/
  closed : Bool

namespace Interval

/-- The numbers that round to a positive finite double. The distance to the next smaller double is
halved at a power of two; a bound lies half way between two doubles and rounds to the one with the
even significand. -/
def ofFloat (x : Float) : Interval :=
  let bits := x.toBits.toNat
  let fraction := bits % (1 <<< 52)
  let scale := (bits >>> 52) % (1 <<< 11)
  let significand := if scale = 0 then fraction else (1 <<< 52) + fraction
  let below := if fraction = 0 ∧ 1 < scale then 1 else 2
  { lower := 4 * significand - below
    value := 4 * significand
    upper := 4 * significand + 2
    exponent := (max scale 1 : Nat) - 1077
    closed := significand % 2 = 0 }

/-- The multiple of a power of ten that lies in an interval and is nearest to its value. -/
def nearestMultiple? (interval : Interval) (power : Int) : Option Decimal :=
  let numerator := Nat.pow 10 (-power).toNat <<< interval.exponent.toNat
  let denominator := Nat.pow 10 power.toNat <<< (-interval.exponent).toNat
  let value := interval.value * numerator
  let contains (digits : Nat) : Bool :=
    let point := digits * denominator
    if interval.closed then
      interval.lower * numerator ≤ point ∧ point ≤ interval.upper * numerator
    else
      interval.lower * numerator < point ∧ point < interval.upper * numerator
  let low := value / denominator
  let high := low + 1
  let remainder := value % denominator
  let nearer :=
    if 2 * remainder < denominator then low
    else if denominator < 2 * remainder then high
    else if low % 2 = 0 then low else high
  if contains low && contains high then some ⟨nearer, power⟩
  else if contains low then some ⟨low, power⟩
  else if contains high then some ⟨high, power⟩
  else none

end Interval

/-- The powers of ten that can be the place value of the last digit of a double's shortest decimal,
greatest first. -/
def powers : List Int :=
  (List.range 650).map fun (step : Nat) => (308 : Int) - step

/-- The shortest decimal of a positive finite double: the one on the coarsest grid of multiples of a
power of ten that reaches into the double's interval. -/
def shortest (x : Float) : Decimal :=
  (powers.findSome? (Interval.ofFloat x).nearestMultiple?).getD ⟨0, 0⟩

end Decimal

end LastLayer
