import ElementCatalog.Decimal.Binary64

/-!
# Shortest decimals — the fewest digits that read back as the same double

A decimal reads back as a double exactly if it lies in the interval of numbers that round to it;
the ends belong to the interval iff the mantissa is even. For 1, 2, … 17 digits the two neighbours
of the value on that decimal grid are tested; the first grid with a hit wins, and of two hits the
nearer one, with a tie going to the even digit.
-/

namespace ElementCatalog.Decimal

/-- The decimal digits of a number, most significant first. -/
def digitsOf (n : Nat) : List Char :=
  (Nat.repr n).toList

/-- A ratio of natural numbers, as numerator and denominator. -/
structure Ratio where
  num : Nat
  den : Nat
deriving Repr

/-- `n · 2 ^ two · 10 ^ ten` as a ratio. -/
def Ratio.scaled (n : Nat) (two ten : Int) : Ratio :=
  { num := n * Nat.pow 2 two.toNat * Nat.pow 10 ten.toNat
    den := Nat.pow 2 (-two).toNat * Nat.pow 10 (-ten).toNat }

/-- The grid point nearest to a double that still reads back as it, on the grid of the multiples of
    `10 ^ place`. -/
def nearestOnGrid? (mantissa : Nat) (exponent : Int) (place : Int) : Option Nat :=
  -- In units of a quarter of the last binary place the interval has whole ends.
  let lowGap := if mantissa = Nat.pow 2 52 ∧ exponent > -1074 then 1 else 2
  let value := Ratio.scaled (4 * mantissa) (exponent - 2) (-place)
  let low := (Ratio.scaled (4 * mantissa - lowGap) (exponent - 2) (-place)).num
  let high := (Ratio.scaled (4 * mantissa + 2) (exponent - 2) (-place)).num
  let inside (point : Nat) : Bool :=
    let p := point * value.den
    if mantissa % 2 = 0 then low ≤ p && p ≤ high else low < p && p < high
  let below := value.num / value.den
  let above := below + 1
  let toBelow := value.num - below * value.den
  let toAbove := above * value.den - value.num
  match 0 < below && inside below, inside above with
  | true, true =>
    if toBelow < toAbove then some below
    else if toAbove < toBelow then some above
    else if below % 2 = 0 then some below else some above
  | true, false => some below
  | false, true => some above
  | false, false => none

/-- Try the grids from coarse to fine. -/
def shortestFrom (mantissa : Nat) (exponent : Int) : (grids : Nat) → (place : Int) → Nat × Int
  | 0, place => (((Ratio.scaled mantissa exponent (-place)).num /
      (Ratio.scaled mantissa exponent (-place)).den), place)
  | grids + 1, place =>
    match nearestOnGrid? mantissa exponent place with
    | some point => (point, place)
    | none => shortestFrom mantissa exponent grids (place - 1)

/-- Move trailing zeros of a decimal into its exponent; `fuel` bounds their number. -/
def dropZeros : (fuel : Nat) → Nat × Int → Nat × Int
  | 0, decimal => decimal
  | fuel + 1, (n, place) =>
    if n ≠ 0 ∧ n % 10 = 0 then dropZeros fuel (n / 10, place + 1) else (n, place)

/-- The shortest decimal of `mantissa · 2 ^ exponent`: `(n, place)` stands for `n · 10 ^ place`, and
    `n` does not end in a zero unless it is zero. -/
def shortest (mantissa : Nat) (exponent : Int) : Nat × Int :=
  if mantissa = 0 then (0, 0)
  else
    -- Shifted far to the left every double has its leading digit before the point.
    let shifted := Ratio.scaled mantissa exponent 400
    let lead : Int := (digitsOf (shifted.num / shifted.den)).length - 401
    dropZeros 400 (shortestFrom mantissa exponent 17 lead)

end ElementCatalog.Decimal
