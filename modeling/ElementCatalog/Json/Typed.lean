import ElementCatalog.Json.Reader

/-!
# Typed reading of JSON — values of a known shape

Readers for texts, flags, lists of texts and records. Whatever has another shape is a fault of its
own kind, but only after its own text has been found to be well formed up to that point. Values
under unknown names are passed over; their syntax is checked and nothing else.
-/

namespace ElementCatalog.Json

/-! ## Passing over values -/

/-- Pass over the characters of a string up to its closing quote; `fuel` bounds their number. -/
def skipStringBody : (fuel : Nat) → (text : List Char) → Except Fault (List Char)
  | 0, _ => .error .endOfText
  | fuel + 1, text =>
    match text with
    | [] => .error .endOfText
    | '\\' :: rest =>
      match rest with
      | [] => .error .endOfText
      | 'u' :: rest => do
        let (_, rest) ← fourDigits rest
        skipStringBody fuel rest
      | e :: rest =>
        if (simpleEscape? e).isSome then skipStringBody fuel rest else .error .malformed
    | c :: rest =>
      if c.toNat == 0x22 then .ok rest
      else if c.toNat < 32 then .error .malformed
      else skipStringBody fuel rest

/-- Pass over a string after its opening quote. -/
def skipString (text : List Char) : Except Fault (List Char) :=
  skipStringBody (text.length + 1) text

/-- Pass over an exponent after its letter. -/
def skipExponent (text : List Char) : Except Fault (List Char) :=
  let digits :=
    match text with
    | '+' :: rest => rest
    | '-' :: rest => rest
    | rest => rest
  if (digits.takeWhile Text.isDigit).isEmpty then .error .malformed
  else .ok (digits.dropWhile Text.isDigit)

/-- Pass over the fraction and exponent of a number, if it has them. -/
def skipNumberEnd (text : List Char) : Except Fault (List Char) :=
  let exponent (text : List Char) : Except Fault (List Char) :=
    match text with
    | 'e' :: rest => skipExponent rest
    | 'E' :: rest => skipExponent rest
    | rest => .ok rest
  match text with
  | '.' :: rest =>
    if (rest.takeWhile Text.isDigit).isEmpty then .error .malformed
    else exponent (rest.dropWhile Text.isDigit)
  | rest => exponent rest

/-- Pass over a number after its sign. Its size does not matter. -/
def skipNumber (text : List Char) : Except Fault (List Char) :=
  match text with
  | '0' :: rest =>
    if (rest.takeWhile Text.isDigit).isEmpty then skipNumberEnd rest else .error .malformed
  | rest =>
    if (rest.takeWhile Text.isDigit).isEmpty then .error .malformed
    else skipNumberEnd (rest.dropWhile Text.isDigit)

mutual

/-- Pass over a value of any shape; `fuel` bounds the number of its parts. -/
def skipValueWithin : (fuel : Nat) → (text : List Char) → Except Fault (List Char)
  | 0, _ => .error .endOfText
  | fuel + 1, text =>
    match skipBlanks text with
    | [] => .error .endOfText
    | 'n' :: rest => word "ull".toList rest
    | 't' :: rest => word "rue".toList rest
    | 'f' :: rest => word "alse".toList rest
    | '-' :: rest => skipNumber rest
    | '[' :: rest =>
      match skipBlanks rest with
      | ']' :: rest => .ok rest
      | rest => skipItems fuel rest
    | '{' :: rest =>
      match skipBlanks rest with
      | '}' :: rest => .ok rest
      | rest => skipFields fuel rest
    | c :: rest =>
      if c.toNat == 0x22 then skipString rest
      else if Text.isDigit c then skipNumber (c :: rest)
      else .error .malformed

/-- Pass over the items of a list, from the start of one of them. -/
def skipItems : (fuel : Nat) → (text : List Char) → Except Fault (List Char)
  | 0, _ => .error .endOfText
  | fuel + 1, text => do
    let rest ← skipValueWithin fuel text
    match skipBlanks rest with
    | [] => .error .endOfText
    | ']' :: rest => .ok rest
    | ',' :: rest => skipItems fuel rest
    | _ => .error .malformed

/-- Pass over the fields of an object, from the start of one of them. -/
def skipFields : (fuel : Nat) → (text : List Char) → Except Fault (List Char)
  | 0, _ => .error .endOfText
  | fuel + 1, text =>
    match skipBlanks text with
    | [] => .error .endOfText
    | c :: rest =>
      if c.toNat != 0x22 then .error .malformed
      else do
        let rest ← skipString rest
        let rest ← skipValueWithin fuel (← colon rest)
        match skipBlanks rest with
        | [] => .error .endOfText
        | '}' :: rest => .ok rest
        | ',' :: rest => skipFields fuel rest
        | _ => .error .malformed

end

/-- Pass over a value of any shape. -/
def skipValue (text : List Char) : Except Fault (List Char) :=
  skipValueWithin (2 * text.length + 2) text

/-! ## Shapes -/

/-- The fault of a value that has another shape than the one asked for. A scalar is read first, and
    what is wrong with its text comes before its shape. -/
def otherShape (text : List Char) : Fault :=
  let after {α : Type} (reading : Except Fault α) : Fault :=
    match reading with
    | .ok _ => .wrongShape
    | .error fault => fault
  match text with
  | 'n' :: rest => after (word "ull".toList rest)
  | 't' :: rest => after (word "rue".toList rest)
  | 'f' :: rest => after (word "alse".toList rest)
  | '-' :: rest => after (numberRest true rest)
  | '[' :: _ => .wrongShape
  | '{' :: _ => .wrongShape
  | c :: rest =>
    if c.toNat == 0x22 then after (stringRest rest)
    else if Text.isDigit c then after (numberRest false (c :: rest))
    else .malformed
  | [] => .endOfText

/-- Read a text. -/
def readString (text : List Char) : Except Fault (String × List Char) :=
  match skipBlanks text with
  | [] => .error .endOfText
  | c :: rest => if c.toNat == 0x22 then stringRest rest else .error (otherShape (c :: rest))

/-- Read a flag. -/
def readBool (text : List Char) : Except Fault (Bool × List Char) :=
  match skipBlanks text with
  | [] => .error .endOfText
  | 't' :: rest => (word "rue".toList rest).map fun rest => (true, rest)
  | 'f' :: rest => (word "alse".toList rest).map fun rest => (false, rest)
  | other => .error (otherShape other)

/-- Read a text or `null`. -/
def readOptionalString (text : List Char) : Except Fault ((Option String) × List Char) :=
  match skipBlanks text with
  | 'n' :: rest => (word "ull".toList rest).map fun rest => (none, rest)
  | other => (readString other).map fun (s, rest) => (some s, rest)

/-- Read a list of texts. -/
def readStrings (text : List Char) : Except Fault ((List String) × List Char) :=
  match skipBlanks text with
  | [] => .error .endOfText
  | '[' :: rest => items readString (rest.length + 1) true rest
  | other => .error (otherShape other)

/-! ## Records -/

/-- A field of a record under construction: its name and how it is read into the record. -/
structure RecordField (σ : Type) where
  name : String
  read : σ → List Char → Except Fault (σ × List Char)

/-- Read the fields of a record that is written as a list, in order. Fields at the end may be left
    out. -/
def positionalFields : (shape : List (RecordField σ)) → (first : Bool) → (state : σ) →
    (text : List Char) → Except Fault (σ × List Char)
  | [], _, state, text =>
    match skipBlanks text with
    | [] => .error .endOfText
    | ']' :: rest => .ok (state, rest)
    | _ => .error .malformed
  | field :: shape, first, state, text =>
    let more (text : List Char) : Except Fault (σ × List Char) := do
      let (state, rest) ← field.read state text
      positionalFields shape false state rest
    match skipBlanks text with
    | [] => .error .endOfText
    | ']' :: rest => .ok (state, rest)
    | c :: rest =>
      if first then more (c :: rest)
      else if c != ',' then .error .malformed
      else
        match skipBlanks rest with
        | [] => .error .endOfText
        | ']' :: _ => .error .malformed
        | next => more next

/-- Read one named field. A name of the record may come once; the values of other names are passed
    over. -/
def namedField (shape : List (RecordField σ)) (state : σ × List String) (name : String)
    (text : List Char) : Except Fault ((σ × List String) × List Char) :=
  match shape.find? fun field => field.name == name with
  | some field =>
    if state.2.contains name then .error .wrongShape
    else do
      let (record, rest) ← field.read state.1 (← colon text)
      .ok ((record, name :: state.2), rest)
  | none => do
    let rest ← skipValue (← colon text)
    .ok (state, rest)

/-- Read a record, written with names or as a list. Fields that are left out keep the value they
    have in `start`. -/
def readRecord (shape : List (RecordField σ)) (start : σ) (text : List Char) :
    Except Fault (σ × List Char) :=
  match skipBlanks text with
  | [] => .error .endOfText
  | '[' :: rest => positionalFields shape true start rest
  | '{' :: rest =>
    (fields (namedField shape) (rest.length + 1) true (start, []) rest).map
      fun ((record, _), rest) => (record, rest)
  | other => .error (otherShape other)

end ElementCatalog.Json
