/-!
# The shortest decimal of a double

A double stands for every real number that rounds to it. Of the decimals among those numbers the
shortest is the one with the fewest digits; of several with equally many, the nearest to the
double; of two equally near, the larger. The search is exact: numbers are fractions of naturals.
-/
namespace Fluent

/-- The decimal `coefficient * 10 ^ exponent`. -/
structure Decimal where
  coefficient : Nat
  exponent : Int
deriving DecidableEq, Repr

namespace Decimal

/-- The real numbers that round to one positive double. The double and the two ends of the
interval are numerators over one denominator. -/
structure Interval where
  low : Nat
  value : Nat
  high : Nat
  denominator : Nat
  /-- The ends themselves round to the double. -/
  closed : Bool

/-- The interval of the positive double whose bits, without the sign, are these. Ends are half-way
to the neighbours; below a power of two the lower neighbour is nearer by half. Half-way numbers
round to the even significand. -/
def Interval.ofBits (bits : Nat) : Interval :=
  let fraction := bits % (1 <<< 52)
  let level := bits >>> 52
  let significand := if level = 0 then fraction else fraction + (1 <<< 52)
  let below := if fraction = 0 ∧ 1 < level then 1 else 2
  -- the numerators count quarters of the unit in the last place
  let up := level - 1077
  let down := 1077 - max level 1
  { low := (4 * significand - below) <<< up
    value := (4 * significand) <<< up
    high := (4 * significand + 2) <<< up
    denominator := 1 <<< down
    closed := significand % 2 = 0 }

/-- The interval with every number multiplied by `10 ^ power`. -/
def Interval.scale (i : Interval) (power : Int) : Interval :=
  let up := Nat.pow 10 power.toNat
  let down := Nat.pow 10 (-power).toNat
  { i with
    low := i.low * up
    value := i.value * up
    high := i.high * up
    denominator := i.denominator * down }

/-- The natural number `n` lies in the interval. -/
def Interval.contains (i : Interval) (n : Nat) : Bool :=
  if i.closed then i.low ≤ n * i.denominator && n * i.denominator ≤ i.high
  else i.low < n * i.denominator && n * i.denominator < i.high

/-- The natural number of the interval that is nearest to its double, if there is one: of the two
numbers around the double, those in the interval, and then the nearer. -/
def Interval.nearest? (i : Interval) : Option Nat :=
  let floor := i.value / i.denominator
  let beyond := i.value % i.denominator
  match i.contains floor, i.contains (floor + 1) with
  | true, true => some (if 2 * beyond < i.denominator then floor else floor + 1)
  | true, false => some floor
  | false, true => some (floor + 1)
  | false, false => none

/-- How many decimal digits a natural number has. -/
def digitCount (n : Nat) : Nat :=
  (Nat.toDigits 10 n).length

/-- The exponent `k` with `10 ^ (k - 1) ≤ value < 10 ^ k`. -/
def Interval.magnitude (i : Interval) : Int :=
  if i.denominator ≤ i.value then digitCount (i.value / i.denominator)
  else 1 - digitCount (i.denominator / i.value)

/-- The decimal without zeros at the end of its coefficient. -/
def trim : Nat → Decimal → Decimal
  | 0, d => d
  | fuel + 1, d =>
    if d.coefficient % 10 = 0 then trim fuel ⟨d.coefficient / 10, d.exponent + 1⟩ else d

/-- The shortest decimal of the positive double whose bits, without the sign, are these. Seventeen
digits always tell two doubles apart, so a search up to seventeen digits finds it. -/
def shortest (bits : Nat) : Decimal :=
  let interval := Interval.ofBits bits
  let magnitude := interval.magnitude
  let found := (List.range 17).findSome? fun (places : Nat) =>
    let power : Int := (places : Int) + 1 - magnitude
    (interval.scale power).nearest?.map fun n => (⟨n, -power⟩ : Decimal)
  (found.getD ⟨0, 0⟩).trim 17

end Decimal

end Fluent
