import ElementCatalog.Decimal.Binary64
import ElementCatalog.Decimal.Reading
import ElementCatalog.Json.Value

/-!
# Reading JSON — from text to values

A reader takes the rest of a text and returns what it read with the rest after it. It fails for one
of three reasons: the text ends too early, it is not JSON, or it is JSON of another shape than the
one asked for. The first fault from the left decides.
-/

namespace ElementCatalog.Json

/-- Why a text cannot be read. -/
inductive Fault where
  | endOfText
  | malformed
  | wrongShape
deriving DecidableEq, Repr

/-- Drop the blanks that JSON allows between tokens. -/
def skipBlanks (text : List Char) : List Char :=
  text.dropWhile fun c => c == ' ' || c == '\n' || c == '\t' || c == '\r'

/-- Read the rest of a word such as `null` after its first letter. -/
def word : (expected text : List Char) → Except Fault (List Char)
  | [], text => .ok text
  | _ :: _, [] => .error .endOfText
  | e :: expected, c :: text => if e = c then word expected text else .error .malformed

/-! ## Strings -/

/-- Read the four digits of a numbered escape. A text with fewer than four bytes left ends too
    early, whatever those bytes are. -/
def fourDigits (text : List Char) : Except Fault (Nat × List Char) :=
  if (text.foldl (fun n c => n + c.utf8Size) 0) < 4 then .error .endOfText
  else
    match text with
    | a :: b :: c :: d :: rest =>
      match Decimal.hexDigit? a, Decimal.hexDigit? b, Decimal.hexDigit? c, Decimal.hexDigit? d with
      | some a, some b, some c, some d => .ok (((a * 16 + b) * 16 + c) * 16 + d, rest)
      | _, _, _, _ => .error .malformed
    | _ => .error .malformed

/-- Read a numbered escape after its `u`. A high surrogate needs the escape of a low one after it,
    and a low one cannot stand alone. -/
def numberedEscape (text : List Char) : Except Fault (Char × List Char) := do
  let (first, rest) ← fourDigits text
  if 0xDC00 ≤ first ∧ first ≤ 0xDFFF then .error .malformed
  else if 0xD800 ≤ first ∧ first ≤ 0xDBFF then
    match rest with
    | [] => .error .endOfText
    | '\\' :: [] => .error .endOfText
    | '\\' :: 'u' :: rest =>
      let (second, rest) ← fourDigits rest
      if 0xDC00 ≤ second ∧ second ≤ 0xDFFF then
        .ok (Char.ofNat ((first - 0xD800) * 0x400 + (second - 0xDC00) + 0x10000), rest)
      else .error .malformed
    | _ => .error .malformed
  else .ok (Char.ofNat first, rest)

/-- The character that a one-letter escape stands for. -/
def simpleEscape? (c : Char) : Option Char :=
  if c == 'b' then some (Char.ofNat 8)
  else if c == 'f' then some (Char.ofNat 12)
  else if c == 'n' then some '\n'
  else if c == 'r' then some '\r'
  else if c == 't' then some '\t'
  else if c == '/' || c == '\\' || c.toNat == 0x22 then some c
  else none

/-- Read the characters of a string up to its closing quote; `fuel` bounds their number. -/
def stringBody : (fuel : Nat) → (text : List Char) → Except Fault ((List Char) × List Char)
  | 0, _ => .error .endOfText
  | fuel + 1, text =>
    match text with
    | [] => .error .endOfText
    | '\\' :: rest =>
      match rest with
      | [] => .error .endOfText
      | 'u' :: rest => do
        let (c, rest) ← numberedEscape rest
        let (cs, rest) ← stringBody fuel rest
        .ok (c :: cs, rest)
      | e :: rest =>
        match simpleEscape? e with
        | none => .error .malformed
        | some c => do
          let (cs, rest) ← stringBody fuel rest
          .ok (c :: cs, rest)
    | c :: rest =>
      if c.toNat == 0x22 then .ok ([], rest)
      else if c.toNat < 32 then .error .malformed
      else do
        let (cs, rest) ← stringBody fuel rest
        .ok (c :: cs, rest)

/-- Read a string after its opening quote. -/
def stringRest (text : List Char) : Except Fault (String × List Char) := do
  let (cs, rest) ← stringBody (text.length + 1) text
  .ok (String.ofList cs, rest)

/-! ## Numbers -/

/-- The largest number of 64 bits. -/
def maxWord : Nat := Nat.pow 2 64 - 1

/-- Scale a whole number by a power of ten in one rounding step for every 308 places. Numbers
    beyond the range of doubles are no values. -/
def scale : (fuel : Nat) → (f : Float) → (exponent : Int) → Except Fault Float
  | 0, f, _ => .ok f
  | fuel + 1, f, exponent =>
    if exponent.natAbs ≤ 308 then
      if 0 ≤ exponent then
        let g := f * Float.ofScientific 1 false exponent.natAbs
        if Decimal.isFinite g then .ok g else .error .malformed
      else .ok (f / Float.ofScientific 1 false exponent.natAbs)
    else if f == 0.0 then .ok f
    else if 0 ≤ exponent then .error .malformed
    else scale fuel (f / Float.ofScientific 1 false 308) (exponent + 308)

/-- The double that a decimal stands for. -/
def scaled (negative : Bool) (significand : Nat) (exponent : Int) : Except Fault Json := do
  let f ← scale 4 (Float.ofScientific significand false 0) exponent
  .ok (.float (if negative then -f else f))

/-- Read an exponent after its letter. -/
def exponentRest (negative : Bool) (significand : Nat) (before : Int) (text : List Char) :
    Except Fault (Json × List Char) := do
  let (down, text) :=
    match text with
    | '+' :: rest => (false, rest)
    | '-' :: rest => (true, rest)
    | rest => (false, rest)
  match text with
  | [] => .error .endOfText
  | c :: _ =>
    if !Text.isDigit c then .error .malformed
    else
      let digits := text.takeWhile Text.isDigit
      let rest := text.dropWhile Text.isDigit
      let power := Decimal.naturalOf digits
      if power ≥ Nat.pow 2 31 then
        if significand ≠ 0 ∧ !down then .error .malformed
        else .ok (.float (if negative then -0.0 else 0.0), rest)
      else
        let value ← scaled negative significand (if down then before - power else before + power)
        .ok (value, rest)

/-- Continue a number after its digits, whole and fractional. -/
def numberEnd (negative : Bool) (significand : Nat) (exponent : Int) (text : List Char) :
    Except Fault (Json × List Char) :=
  match text with
  | c :: rest =>
    if c == 'e' || c == 'E' then exponentRest negative significand exponent rest
    else (scaled negative significand exponent).map fun value => (value, text)
  | [] => (scaled negative significand exponent).map fun value => (value, text)

/-- The digits that still fit 64 bits after a significand, and the number of the others. -/
def fitting (significand : Nat) : List Char → Nat × Nat × Nat
  | [] => (significand, 0, 0)
  | d :: digits =>
    let next := 10 * significand + (d.toNat - '0'.toNat)
    if next ≤ maxWord then
      let (s, taken, left) := fitting next digits
      (s, taken + 1, left)
    else (significand, 0, digits.length + 1)

/-- Read a fraction after its point. Digits that no longer fit 64 bits are dropped. -/
def fractionRest (negative : Bool) (significand : Nat) (exponent : Int) (text : List Char) :
    Except Fault (Json × List Char) :=
  let digits := text.takeWhile Text.isDigit
  let rest := text.dropWhile Text.isDigit
  if digits.isEmpty then
    if rest.isEmpty then .error .endOfText else .error .malformed
  else
    let (s, taken, _) := fitting significand digits
    numberEnd negative s (exponent - taken) rest

/-- Read a number after its sign. -/
def numberRest (negative : Bool) (text : List Char) : Except Fault (Json × List Char) :=
  match text with
  | [] => .error .endOfText
  | '0' :: rest =>
    match rest with
    | c :: more =>
      if Text.isDigit c then .error .malformed
      else if c == '.' then fractionRest negative 0 0 more
      else if c == 'e' || c == 'E' then exponentRest negative 0 0 more
      else .ok (if negative then .float (-0.0) else .int 0, rest)
    | [] => .ok (if negative then .float (-0.0) else .int 0, [])
  | d :: _ =>
    if !Text.isDigit d then .error .malformed
    else
      let digits := text.takeWhile Text.isDigit
      let rest := text.dropWhile Text.isDigit
      let (s, _, dropped) := fitting 0 digits
      match rest with
      | '.' :: more => fractionRest negative s dropped more
      | _ =>
        if dropped > 0 || rest.head? == some 'e' || rest.head? == some 'E' then
          numberEnd negative s dropped rest
        else if !negative then .ok (.int s, rest)
        else if s ≤ Nat.pow 2 63 then .ok (.int (-(s : Int)), rest)
        else .ok (.float (-(Float.ofScientific s false 0)), rest)

/-! ## Lists and objects -/

/-- Read the items of a list after its bracket; `fuel` bounds their number. -/
def items (item : List Char → Except Fault (α × List Char)) : (fuel : Nat) → (first : Bool) →
    (text : List Char) → Except Fault ((List α) × List Char)
  | 0, _, _ => .error .endOfText
  | fuel + 1, first, text =>
    let more (text : List Char) : Except Fault ((List α) × List Char) := do
      let (x, rest) ← item text
      let (xs, rest) ← items item fuel false rest
      .ok (x :: xs, rest)
    match skipBlanks text with
    | [] => .error .endOfText
    | ']' :: rest => .ok ([], rest)
    | c :: rest =>
      if first then more (c :: rest)
      else if c != ',' then .error .malformed
      else
        match skipBlanks rest with
        | [] => .error .endOfText
        | ']' :: _ => .error .malformed
        | next => more next

/-- Read the fields of an object after its brace, folding each name and the text after it into a
    state; `fuel` bounds their number. -/
def fields (field : σ → String → List Char → Except Fault (σ × List Char)) : (fuel : Nat) →
    (first : Bool) → (state : σ) → (text : List Char) → Except Fault (σ × List Char)
  | 0, _, _, _ => .error .endOfText
  | fuel + 1, first, state, text =>
    let more (text : List Char) : Except Fault (σ × List Char) := do
      match text with
      | [] => .error .endOfText
      | c :: rest =>
        if c.toNat != 0x22 then .error .malformed
        else
          let (name, rest) ← stringRest rest
          let (state, rest) ← field state name rest
          fields field fuel false state rest
    match skipBlanks text with
    | [] => .error .endOfText
    | '}' :: rest => .ok (state, rest)
    | c :: rest =>
      if first then more (c :: rest)
      else if c != ',' then .error .malformed
      else more (skipBlanks rest)

/-- Read the colon after a name. -/
def colon (text : List Char) : Except Fault (List Char) :=
  match skipBlanks text with
  | [] => .error .endOfText
  | ':' :: rest => .ok rest
  | _ => .error .malformed

/-- Write a field: a name keeps its first place and takes the last value. -/
def setField (fields : List (String × Json)) (name : String) (value : Json) :
    List (String × Json) :=
  match fields with
  | [] => [(name, value)]
  | (n, v) :: rest => if n = name then (n, value) :: rest else (n, v) :: setField rest name value

/-! ## Values -/

/-- Read a value whose lists and objects nest less than `depth` levels. -/
def valueWithin : (depth : Nat) → (text : List Char) → Except Fault (Json × List Char)
  | depth, text =>
    match skipBlanks text with
    | [] => .error .endOfText
    | 'n' :: rest => (word "ull".toList rest).map fun rest => (.null, rest)
    | 't' :: rest => (word "rue".toList rest).map fun rest => (.bool true, rest)
    | 'f' :: rest => (word "alse".toList rest).map fun rest => (.bool false, rest)
    | '-' :: rest => numberRest true rest
    | '[' :: rest =>
      match depth with
      | 0 => .error .malformed
      | depth + 1 => do
        let (values, rest) ← items (valueWithin depth) (rest.length + 1) true rest
        .ok (.array values, rest)
    | '{' :: rest =>
      match depth with
      | 0 => .error .malformed
      | depth + 1 => do
        let field (state : List (String × Json)) (name : String) (text : List Char) :
            Except Fault ((List (String × Json)) × List Char) := do
          let (value, rest) ← valueWithin depth (← colon text)
          .ok (setField state name value, rest)
        let (values, rest) ← fields field (rest.length + 1) true [] rest
        .ok (.object values, rest)
    | c :: rest =>
      if c.toNat == 0x22 then (stringRest rest).map fun (s, rest) => (.string s, rest)
      else if Text.isDigit c then numberRest false (c :: rest)
      else .error .malformed

/-- The greatest number of levels that lists and objects may nest. -/
def maxDepth : Nat := 127

/-- Nothing but blanks is left. -/
def finished (text : List Char) : Except Fault Unit :=
  if (skipBlanks text).isEmpty then .ok () else .error .malformed

/-- Read a whole text as one value. -/
def parse (text : List Char) : Except Fault Json := do
  let (value, rest) ← valueWithin maxDepth text
  finished rest
  .ok value

end ElementCatalog.Json
