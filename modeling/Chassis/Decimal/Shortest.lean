/-!
# The shortest decimal that reads back

A binary floating point number stands for an interval of reals: those that round to it. `shortest`
finds the decimal with the fewest digits in that interval, and of several the one nearest to the
number. All of it is exact arithmetic on natural numbers.

A grid of decimals has a point in the interval exactly when one of the two neighbours of the number
on that grid lies in it, so it is enough to test those two, from the coarsest grid on.
-/

set_option autoImplicit false

namespace Chassis.Decimal

/-- A finite positive binary number `significand * 2 ^ exponent`. `closeBelow` marks a power of two,
whose neighbour below is at half the distance of its neighbour above. -/
structure Binary where
  significand : Nat
  exponent : Int
  closeBelow : Bool
deriving DecidableEq, Repr

/-- A decimal number `digits * 10 ^ exponent`. -/
structure Digits where
  digits : Nat
  exponent : Int
deriving DecidableEq, Repr

/-- What the bits of a floating point number say, its sign aside. -/
inductive Magnitude
  | nan
  | infinite
  | zero
  | finite (b : Binary)
deriving DecidableEq, Repr

/-- The sign bit and the magnitude of a 64-bit pattern. -/
def classify (bits : Nat) : Bool × Magnitude :=
  let negative := bits / 0x8000000000000000 % 2 == 1
  let exponent : Nat := bits / 0x10000000000000 % 0x800
  let fraction : Nat := bits % 0x10000000000000
  let magnitude :=
    if exponent = 2047 then if fraction = 0 then .infinite else .nan
    else if exponent = 0 then
      if fraction = 0 then .zero else .finite ⟨fraction, -1074, false⟩
    else
      .finite
        ⟨fraction + 0x10000000000000, (exponent : Int) - 1075, fraction == 0 && exponent != 1⟩
  (negative, magnitude)

/-- `base ^ e` as a fraction, for an exponent of either sign. -/
def powerFraction (base : Nat) (e : Int) : Nat × Nat :=
  match e with
  | .ofNat n => (Nat.pow base n, 1)
  | .negSucc n => (1, Nat.pow base (n + 1))

/-- Compares `x * 10 ^ k` with `y * 2 ^ q`. -/
def compareScaled (x : Nat) (k : Int) (y : Nat) (q : Int) : Ordering :=
  let (a, b) := powerFraction 10 k
  let (c, d) := powerFraction 2 q
  compare (x * a * d) (y * c * b)

/-- The largest `e` with `10 ^ e` at most the number. -/
def Binary.decimalExponent (b : Binary) : Int :=
  let guess := ((Nat.log2 b.significand : Int) + b.exponent) * 30103 / 100000
  if compareScaled 1 (guess + 1) b.significand b.exponent != .gt then guess + 1
  else if compareScaled 1 guess b.significand b.exponent == .gt then guess - 1
  else guess

/-- The decimal rounds to the number: it lies between the midpoints to its neighbours, which belong
to the number exactly when its significand is even. -/
def Binary.holds (b : Binary) (d : Digits) : Bool :=
  let low := 4 * b.significand - (if b.closeBelow then 1 else 2)
  let high := 4 * b.significand + 2
  let below := compareScaled d.digits d.exponent low (b.exponent - 2)
  let above := compareScaled d.digits d.exponent high (b.exponent - 2)
  if b.significand % 2 = 0 then below != .lt && above != .gt else below == .gt && above == .lt

/-- The largest multiple of `10 ^ k` at most the number, in units of `10 ^ k`. -/
def Binary.floorOn (b : Binary) (k : Int) : Nat :=
  let (a, c) := powerFraction 10 k
  let (d, e) := powerFraction 2 b.exponent
  b.significand * d * c / (e * a)

/-- The lower of two neighbours on a grid is at most as far from the number as the upper one; of
two at the same distance the even one counts as nearer. -/
def Binary.lowerIsNearer (b : Binary) (n : Nat) (k : Int) : Bool :=
  -- twice the number against the sum of the neighbours
  match compareScaled (2 * n + 1) k (2 * b.significand) b.exponent with
  | .gt => true
  | .lt => false
  | .eq => n % 2 == 0

/-- The point of the grid `10 ^ k` that reads back as the number, if there is one. -/
def Binary.onGrid? (b : Binary) (k : Int) : Option Digits :=
  let n := b.floorOn k
  let low : Digits := ⟨n, k⟩
  let high : Digits := ⟨n + 1, k⟩
  match n != 0 && b.holds low, b.holds high with
  | true, true => some (if b.lowerIsNearer n k then low else high)
  | true, false => some low
  | false, true => some high
  | false, false => none

/-- Tries finer and finer grids, starting with `k`. -/
def Binary.search (b : Binary) : Nat → Int → Digits
  | 0, k => ⟨b.floorOn k, k⟩
  | fuel + 1, k =>
    match b.onGrid? k with
    | some d => d
    | none => b.search fuel (k - 1)

/-- Drops trailing zeros. The fuel bounds their number. -/
def Digits.trimZeros : Nat → Digits → Digits
  | 0, d => d
  | fuel + 1, d =>
    if d.digits % 10 = 0 && d.digits != 0 then trimZeros fuel ⟨d.digits / 10, d.exponent + 1⟩ else d

/-- The decimal with the fewest digits that reads back as the number; seventeen always do. -/
def Binary.shortest (b : Binary) : Digits :=
  Digits.trimZeros 17 (b.search 17 b.decimalExponent)

end Chassis.Decimal
