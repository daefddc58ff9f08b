/-!
# Shortest decimals

The decimal text of a 32-bit float: the fewest digits that are closer to the float than to any other,
and of those the nearest to its value. Numbers from one ten-thousandth up to ten quadrillions are
written with a point, all others with a power of ten.
-/

namespace StyledScene.Decimal

/-! ## Exact scaling -/

/-- The number `coefficient * base ^ exponent` as a fraction of naturals. -/
structure Scaled where
  numerator : Nat
  denominator : Nat

/-- The fraction for a coefficient times a power of two. -/
def Scaled.binary (coefficient : Nat) (exponent : Int) : Scaled :=
  ⟨coefficient <<< exponent.toNat, 1 <<< (-exponent).toNat⟩

/-- The fraction for a coefficient times a power of ten. -/
def Scaled.decimal (coefficient : Nat) (exponent : Int) : Scaled :=
  ⟨coefficient * Nat.pow 10 exponent.toNat, Nat.pow 10 (-exponent).toNat⟩

/-- Whether the first fraction is below the second. -/
def Scaled.below (a b : Scaled) : Bool :=
  decide (a.numerator * b.denominator < b.numerator * a.denominator)

/-! ## The interval of a float -/

/-- A positive float `mantissa * 2 ^ exponent`. Its lower neighbour is half as far away as its upper
one when `atPower` holds, that is, at a power of two. -/
structure Magnitude where
  mantissa : Nat
  exponent : Int
  atPower : Bool

namespace Magnitude

/-- The value of the float. -/
def value (x : Magnitude) : Scaled := .binary x.mantissa x.exponent

/-- Half way to the neighbour below. -/
def lower (x : Magnitude) : Scaled :=
  .binary (4 * x.mantissa - if x.atPower then 1 else 2) (x.exponent - 2)

/-- Half way to the neighbour above. -/
def upper (x : Magnitude) : Scaled := .binary (4 * x.mantissa + 2) (x.exponent - 2)

/-- Whether a decimal rounds to the float; the ends of the interval do when the mantissa is even. -/
def rounds (x : Magnitude) (d : Scaled) : Bool :=
  if x.mantissa % 2 = 0 then !d.below x.lower && !x.upper.below d
  else x.lower.below d && d.below x.upper

/-- The multiple of `10 ^ place` nearest to the value among the two around it that round to the
float; of two equally near ones, the upper. -/
def onGrid? (x : Magnitude) (place : Int) : Option Nat :=
  let v := x.value
  let unit := Scaled.decimal 1 place
  let low := (v.numerator * unit.denominator) / (v.denominator * unit.numerator)
  let lowFits := low != 0 && x.rounds (.decimal low place)
  let highFits := x.rounds (.decimal (low + 1) place)
  -- the middle between the two multiples, on a grid ten times as fine
  let nearerLow := v.below (.decimal (10 * low + 5) (place - 1))
  if lowFits && (nearerLow || !highFits) then some low
  else if highFits then some (low + 1)
  else none

/-- Digits and place of the shortest decimal, found on the coarsest grid that has one. A float lies
below `10 ^ 39` and its interval is wider than `10 ^ -60`, so the search always ends. -/
def shortest (x : Magnitude) : Nat × Int :=
  ((List.range 100).findSome? fun (i : Nat) =>
    let place : Int := 39 - (i : Int)
    (x.onGrid? place).map fun digits => (digits, place)).getD (0, 0)

end Magnitude

/-! ## Texts -/

/-- Zeros, as many as given. -/
def zeros (n : Nat) : List Char := List.replicate n '0'

/-- Writes digits with their point: `point` is the number of digits before it, which may lie outside
the digits on either side. A whole number keeps one zero after the point. -/
def positional (digits : List Char) (point : Int) : List Char :=
  if point ≤ 0 then ['0', '.'] ++ zeros (-point).toNat ++ digits
  else if digits.length ≤ point.toNat then
    digits ++ zeros (point.toNat - digits.length) ++ ['.', '0']
  else digits.take point.toNat ++ ['.'] ++ digits.drop point.toNat

/-- Writes digits as one digit, a point, the others, and a power of ten. -/
def scientific (digits : List Char) (point : Int) : List Char :=
  digits.take 1 ++ (if digits.length ≤ 1 then [] else ['.'] ++ digits.drop 1) ++ ['e'] ++
    (toString (point - 1)).toList

/-- The text of a magnitude: with a point from one ten-thousandth up to sixteen digits before it. -/
def Magnitude.toChars (x : Magnitude) : List Char :=
  let (number, place) := x.shortest
  let digits := Nat.toDigits 10 number
  let point := place + digits.length
  if -3 ≤ point ∧ point ≤ 16 then positional digits point else scientific digits point

/-- The magnitude that the low 31 bits of a float encode; zero has none. -/
def Magnitude.ofBits? (bits : Nat) : Option Magnitude :=
  let fraction : Nat := bits % (1 <<< 23)
  let biased : Nat := bits >>> 23 % (1 <<< 8)
  if biased = 0 then
    -- the smallest floats have no implied leading bit
    if fraction = 0 then none else some ⟨fraction, -149, false⟩
  else some ⟨(1 <<< 23) + fraction, (biased : Int) - 150, fraction == 0 && biased != 1⟩

/-- The text of a float. -/
def ofFloat (x : Float32) : String :=
  if x.isNaN then "NaN" else
  let bits := x.toBits.toNat
  let magnitude :=
    if x.isInf then ['i', 'n', 'f'] else
    match Magnitude.ofBits? bits with
    | some m => m.toChars
    | none => ['0', '.', '0']
  String.ofList ((if 1 <<< 31 ≤ bits then ['-'] else []) ++ magnitude)

end StyledScene.Decimal
