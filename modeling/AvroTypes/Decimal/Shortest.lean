import AvroTypes.Decimal.Double

/-!
# The shortest decimal that reads back

Among the decimals that round to a given double, the one with the fewest digits is chosen, and
among those the nearest.  For one digit, two digits, and so on up to seventeen the two decimals
around the double on the grid with that many digits are tested against the interval of numbers
that round to it; the first grid with a hit is the right one, since a grid with a point in the
interval has one of the double's two neighbours in it.

* `Numeral` — digits and an exponent.
* `Reach` — the interval, exactly.
* `shortest` — the choice.
* `Style`, `Numeral.write` — how a format lays the digits out.
-/

namespace AvroTypes.Decimal

/-- The number `digits · 10 ^ exponent`. -/
structure Numeral where
  /-- The digits, as one number. -/
  digits : Nat
  /-- The power of ten they are scaled by. -/
  exponent : Int
  deriving DecidableEq, Repr

/-- The numbers that round to one double: those from `low / unit` to `high / unit`, with the two
ends only if the mantissa is even. -/
structure Reach where
  /-- The lower end, in units. -/
  low : Nat
  /-- The double itself, in units. -/
  value : Nat
  /-- The upper end, in units. -/
  high : Nat
  /-- How many units make one. -/
  unit : Nat
  /-- Whether the ends belong to it. -/
  closed : Bool

/-- The reach of a positive double.  Its lower neighbour is at half the usual distance when the
mantissa is the least one and the exponent can still go down. -/
def Reach.of (double : Binary) : Reach :=
  let middle := 4 * double.mantissa
  let gap := if double.mantissa = Nat.pow 2 52 ∧ leastExponent < double.exponent then 1 else 2
  let units (n : Nat) := (scaled n 2 (double.exponent - 2)).1
  { low := units (middle - gap)
    value := units middle
    high := units (middle + 2)
    unit := (scaled 1 2 (double.exponent - 2)).2
    closed := double.mantissa % 2 = 0 }

/-- A decimal lies in the reach. -/
def Reach.contains (reach : Reach) (numeral : Numeral) : Bool :=
  let fraction := scaled numeral.digits 10 numeral.exponent
  let left := reach.low * fraction.2
  let here := fraction.1 * reach.unit
  let right := reach.high * fraction.2
  if reach.closed then left ≤ here && here ≤ right else left < here && here < right

/-- The number of decimal digits of a number. -/
def digitCount (n : Nat) : Nat := (Nat.toDigits 10 n).length

/-- The exponent of the first decimal digit of a positive fraction. -/
def leadingExponent (num den : Nat) : Int :=
  let size : Int := digitCount num - digitCount den
  let power := scaled den 10 size
  if num * power.2 < power.1 then size - 1 else size

/-- The hit on the grid `10 ^ exponent`, if there is one: of the two neighbours the nearer that
lies in the reach, and of two equally near ones the even one. -/
def Reach.hit? (reach : Reach) (exponent : Int) : Option Numeral :=
  let fraction := scaled reach.value 10 (-exponent)
  let den := fraction.2 * reach.unit
  let below : Numeral := ⟨fraction.1 / den, exponent⟩
  let above : Numeral := ⟨fraction.1 / den + 1, exponent⟩
  let near : Numeral := ⟨roundDiv fraction.1 den, exponent⟩
  [near, below, above].find? reach.contains

/-- **The shortest decimal that reads back** as a positive double. -/
def shortest (double : Binary) : Numeral :=
  let reach := Reach.of double
  let leading := leadingExponent reach.value reach.unit
  let grids := (List.range 17).map fun (count : Nat) => leading - (count : Int)
  (grids.findSome? reach.hit?).getD ⟨double.mantissa, 0⟩

/-- How a format writes decimals: which exponents of the first digit are written positionally.  A
positional text always has a fraction; the others are written with a signed exponent of no fixed
width and with a fraction only if there is more than one digit. -/
structure Style where
  /-- The least exponent of the first digit that is written positionally. -/
  least : Int
  /-- The greatest one. -/
  greatest : Int

/-- The digits of a number without the zeros at its end. -/
def significantDigits (n : Nat) : List Char :=
  ((Nat.toDigits 10 n).reverse.dropWhile (· = '0')).reverse

/-- The digits with a point after the first `places` of them, filled up with zeros where either
side of the point has none. -/
def withPoint (digits : List Char) (places : Nat) : List Char :=
  let whole := digits.take places ++ List.replicate (places - digits.length) '0'
  let fraction := digits.drop places
  whole ++ '.' :: (if fraction.isEmpty then ['0'] else fraction)

/-- The digits with a point after the first, unless it is alone. -/
def withFirstApart : List Char → List Char
  | first :: second :: rest => first :: '.' :: second :: rest
  | digits => digits

/-- A positive decimal as a format writes it. -/
def Numeral.write (format : Style) (numeral : Numeral) : List Char :=
  let digits := significantDigits numeral.digits
  let leading := numeral.exponent + digitCount numeral.digits - 1
  if format.least ≤ leading ∧ leading ≤ format.greatest then
    match leading with
    | .ofNat places => withPoint digits (places + 1)
    | .negSucc zeros => '0' :: '.' :: List.replicate zeros '0' ++ digits
  else
    let sign := if leading < 0 then '-' else '+'
    withFirstApart digits ++ 'e' :: sign :: Nat.toDigits 10 leading.natAbs

end AvroTypes.Decimal
