/-!
# Binary floating point — what a double stands for

A double is read off its bits: a sign, and for finite values a natural number times a power of two.
Every question about its value is answered on these two numbers with exact arithmetic.
-/

namespace ElementCatalog.Decimal

/-- What a double stands for. A finite one is `mantissa · 2 ^ exponent`, up to the sign. -/
inductive Binary where
  | nan
  | infinite (negative : Bool)
  | finite (negative : Bool) (mantissa : Nat) (exponent : Int)
deriving DecidableEq, Repr

/-- Read a double off its bits. -/
def Binary.ofFloat (x : Float) : Binary :=
  let bits := x.toBits.toNat
  let negative := bits / Nat.pow 2 63 == 1
  let field : Nat := bits / Nat.pow 2 52 % Nat.pow 2 11
  let fraction : Nat := bits % Nat.pow 2 52
  if field == 2047 then (if fraction == 0 then .infinite negative else .nan)
  else if field == 0 then .finite negative fraction (-1074)
  else .finite negative (Nat.pow 2 52 + fraction) ((field : Int) - 1075)

/-- The natural number that `mantissa · 2 ^ exponent` is, if it is one. -/
def wholeValue? (mantissa : Nat) (exponent : Int) : Option Nat :=
  if 0 ≤ exponent then some (mantissa * Nat.pow 2 exponent.toNat)
  else
    let divisor := Nat.pow 2 (-exponent).toNat
    if mantissa % divisor = 0 then some (mantissa / divisor) else none

/-- The integer that a double is, if it is one below nine quadrillion in absolute value. From there
    on not every integer is a double. Negative zero counts as zero. -/
def smallInteger? (x : Float) : Option Int :=
  match Binary.ofFloat x with
  | .finite negative mantissa exponent =>
    match wholeValue? mantissa exponent with
    | some n => if n < 9000000000000000 then some (if negative then -(n : Int) else n) else none
    | none => none
  | _ => none

/-- A double is neither infinite nor undefined. -/
def isFinite (x : Float) : Bool :=
  match Binary.ofFloat x with
  | .finite .. => true
  | _ => false

end ElementCatalog.Decimal
