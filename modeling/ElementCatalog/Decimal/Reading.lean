import ElementCatalog.Text.CharClass

/-!
# Reading decimals — the double nearest to a decimal

A decimal is a digit string and a power of ten. Powers beyond the range of doubles are settled
before any arithmetic, so that no huge number is built.
-/

namespace ElementCatalog.Decimal

/-- The number that a string of decimal digits stands for. -/
def naturalOf (digits : List Char) : Nat :=
  digits.foldl (fun n c => 10 * n + (c.toNat - '0'.toNat)) 0

/-- The digit that a hexadecimal digit stands for. -/
def hexDigit? (c : Char) : Option Nat :=
  if '0' ≤ c && c ≤ '9' then some (c.toNat - '0'.toNat)
  else if 'a' ≤ c && c ≤ 'f' then some (c.toNat - 'a'.toNat + 10)
  else if 'A' ≤ c && c ≤ 'F' then some (c.toNat - 'A'.toNat + 10)
  else none

/-- Positive infinity. -/
def infinity : Float :=
  1.0 / 0.0

/-- The double nearest to `mantissa · 10 ^ exponent`. -/
def nearest (mantissa : Nat) (exponent : Int) : Float :=
  let lead : Int := (Nat.repr mantissa).length + exponent
  if mantissa = 0 ∨ lead < -400 then 0.0
  else if 400 < lead then infinity
  else if 0 ≤ exponent then Float.ofScientific mantissa false exponent.toNat
  else Float.ofScientific mantissa true (-exponent).toNat

/-- Read an optional sign. -/
def takeSign : List Char → Bool × List Char
  | '-' :: rest => (true, rest)
  | '+' :: rest => (false, rest)
  | text => (false, text)

/-- Read digits, an optional fraction and an optional exponent that make up the whole text. At least
    one digit stands before or after the point, and at least one in an exponent. -/
def unsigned? (text : List Char) : Option Float :=
  let whole := text.takeWhile Text.isDigit
  let afterWhole := text.dropWhile Text.isDigit
  let (fraction, afterFraction) :=
    match afterWhole with
    | '.' :: rest => (rest.takeWhile Text.isDigit, rest.dropWhile Text.isDigit)
    | rest => ([], rest)
  if whole.isEmpty && fraction.isEmpty then none
  else
    let mantissa := naturalOf (whole ++ fraction)
    let scale : Int := -(fraction.length : Int)
    match afterFraction with
    | [] => some (nearest mantissa scale)
    | e :: rest =>
      if e == 'e' || e == 'E' then
        let (negative, digits) := takeSign rest
        if digits.isEmpty || !digits.all Text.isDigit then none
        else
          let power : Int := naturalOf digits
          some (nearest mantissa (scale + if negative then -power else power))
      else none

/-- Read a signed decimal, or the name of a value that is no number, in any letter case. -/
def parse? (text : String) : Option Float :=
  let (negative, body) := takeSign text.toList
  let name := body.map Char.toLower
  let size :=
    if name = "inf".toList ∨ name = "infinity".toList then some infinity
    else if name = "nan".toList then some (0.0 / 0.0)
    else unsigned? body
  size.map fun x => if negative then -x else x

end ElementCatalog.Decimal
