/-!
# Doubles as exact numbers

A 64-bit double is kept as its bits, which can be compared and decided, and is read as the exact
number `± m · 2 ^ q`.  Nothing here computes in floating point: a product or a quotient of doubles
is the exact fraction, rounded to the nearest double by a division of natural numbers, with ties
going to the even neighbour.

A decimal is scaled by powers of ten that are themselves doubles, and is rounded after each of
these steps.  The outcome is not always the double nearest to the decimal.

* `Binary` and `Binary.ofBits` — the number that finite bits stand for.
* `rounded`, `product`, `quotient` — one rounding.
* `scale?` — **the double that a decimal is read as**, or nothing when it is too large.
-/

namespace AvroTypes.Decimal

/-- A finite double: `mantissa · 2 ^ exponent`, with a sign that zero has too. -/
structure Binary where
  /-- Whether the sign is a minus. -/
  negative : Bool
  /-- The integer that is scaled. -/
  mantissa : Nat
  /-- The power of two it is scaled by. -/
  exponent : Int
  deriving DecidableEq, Repr

/-- The least exponent of a double; only there may the mantissa be below `2 ^ 52`. -/
def leastExponent : Int := -1074

/-- The number that bits stand for.  Bits of an infinity or of no number are read as if the scale
went on, which no caller relies on. -/
def Binary.ofBits (bits : UInt64) : Binary :=
  let scale := bits.toNat / Nat.pow 2 52 % Nat.pow 2 11
  let fraction := bits.toNat % Nat.pow 2 52
  { negative := bits.toNat / Nat.pow 2 63 = 1
    mantissa := if scale = 0 then fraction else Nat.pow 2 52 + fraction
    exponent := leastExponent + (scale - 1 : Nat) }

/-- The fraction `n · base ^ e`, as numerator and denominator. -/
def scaled (n base : Nat) : Int → Nat × Nat
  | .ofNat e => (n * Nat.pow base e, 1)
  | .negSucc e => (n, Nat.pow base (e + 1))

/-- A quotient rounded to the nearest integer; a tie goes to the even one. -/
def roundDiv (num den : Nat) : Nat :=
  let low := num / den
  let twice := 2 * (num % den)
  if twice < den then low
  else if den < twice then low + 1
  else low + low % 2

/-- The exponent at which a positive fraction has a mantissa of 53 bits, or the least one. -/
def exponentOf (num den : Nat) : Int :=
  let size : Int := num.log2 - den.log2
  let below := scaled den 2 size
  let size := if num * below.2 < below.1 then size - 1 else size
  max (size - 52) leastExponent

/-- The bits, without a sign, of the double nearest to a positive fraction.  A mantissa rounded up
to `2 ^ 53` carries into the exponent, which the sum below does by itself. -/
def magnitudeOf (num den : Nat) : Nat :=
  let exponent := exponentOf num den
  let divisor := scaled den 2 exponent
  (exponent - leastExponent).toNat * Nat.pow 2 52 + roundDiv (num * divisor.2) divisor.1

/-- The magnitude from which on bits no longer stand for a finite number. -/
def infinityBits : Nat := 0x7FF0000000000000

/-- The magnitude of the double nearest to a fraction. -/
def rounded (num den : Nat) : Nat := if num = 0 then 0 else magnitudeOf num den

/-- The number that a magnitude below the infinite ones stands for. -/
def Binary.ofMagnitude (magnitude : Nat) : Binary := .ofBits (.ofNat magnitude)

/-- The magnitude of a product of two doubles, rounded. -/
def product (x y : Binary) : Nat :=
  let fraction := scaled (x.mantissa * y.mantissa) 2 (x.exponent + y.exponent)
  rounded fraction.1 fraction.2

/-- The magnitude of a quotient of two doubles, rounded. -/
def quotient (x y : Binary) : Nat :=
  let fraction := scaled x.mantissa 2 (x.exponent - y.exponent)
  rounded fraction.1 (fraction.2 * y.mantissa)

/-- The greatest power of ten that is not beyond every double. -/
def greatestPower : Nat := 308

/-- The double nearest to a power of ten up to the greatest one. -/
def powerOfTen (n : Nat) : Binary := .ofMagnitude (rounded (Nat.pow 10 n) 1)

/-- A magnitude divided by the greatest power of ten a number of times, rounded each time.  Nothing
more happens once it is zero. -/
def divideDown : Nat → Nat → Nat
  | 0, magnitude => magnitude
  | times + 1, magnitude =>
    if magnitude = 0 then 0
    else divideDown times (quotient (.ofMagnitude magnitude) (powerOfTen greatestPower))

/-- The magnitude that `digits · 10 ^ exponent` is read as.  The digits are rounded first, and then
multiplied or divided by one power of ten; where the exponent goes below the powers of ten, the
greatest of them is divided out before. -/
def magnitudeRead (digits : Nat) (exponent : Int) : Nat :=
  let start := rounded digits 1
  match exponent with
  | .ofNat power =>
    if start = 0 then 0
    else if greatestPower < power then infinityBits
    else product (.ofMagnitude start) (powerOfTen power)
  | .negSucc below =>
    let reduced := divideDown (below / greatestPower) start
    quotient (.ofMagnitude reduced) (powerOfTen (below % greatestPower + 1))

/-- **The double that `± digits · 10 ^ exponent` is read as**, or nothing if it is too large. -/
def scale? (negative : Bool) (digits : Nat) (exponent : Int) : Option UInt64 :=
  let magnitude := magnitudeRead digits exponent
  if magnitude < infinityBits then
    some (.ofNat ((if negative then Nat.pow 2 63 else 0) + magnitude))
  else none

end AvroTypes.Decimal
