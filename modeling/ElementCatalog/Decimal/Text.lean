import ElementCatalog.Decimal.Shortest

/-!
# Decimal notation — writing doubles with a point and without an exponent

Both notations write the shortest digits that read back. They differ in where they leave the
positional form, in the mark for whole numbers and in the names of the values that are no numbers.
-/

namespace ElementCatalog.Decimal

/-- `n · 10 ^ place` written with a point; whole numbers end in `whole`. -/
def positional (n : Nat) (place : Int) (whole : String) : String :=
  let digits := digitsOf n
  if 0 ≤ place then
    String.ofList (digits ++ List.replicate place.toNat '0') ++ whole
  else
    let fraction := (-place).toNat
    let padded := List.replicate (fraction + 1 - digits.length) '0' ++ digits
    let split := padded.length - fraction
    String.ofList (padded.take split) ++ "." ++ String.ofList (padded.drop split)

/-- Plain notation: never an exponent, no mark on whole numbers, a sign also on zero. -/
def plain (x : Float) : String :=
  match Binary.ofFloat x with
  | .nan => "NaN"
  | .infinite negative => if negative then "-inf" else "inf"
  | .finite negative mantissa exponent =>
    let (n, place) := shortest mantissa exponent
    (if negative then "-" else "") ++ positional n place ""

/-- Interchange notation of a finite double, as JSON texts use it: positional while the exponent of
    the leading digit is between -5 and 15, and then whole numbers end in `.0`; else one digit, the
    others after the point, and the exponent with its sign. -/
def interchange (negative : Bool) (mantissa : Nat) (exponent : Int) : String :=
  let (n, place) := shortest mantissa exponent
  let digits := digitsOf n
  let lead : Int := place + digits.length - 1
  let body :=
    if n = 0 ∨ (-5 ≤ lead ∧ lead ≤ 15) then positional n place ".0"
    else
      let mark := if lead < 0 then "e-" else "e+"
      let tail := if digits.length ≤ 1 then "" else "." ++ String.ofList (digits.drop 1)
      String.ofList (digits.take 1) ++ tail ++ mark ++ Nat.repr lead.natAbs
  (if negative then "-" else "") ++ body

end ElementCatalog.Decimal
