import ElementCatalog.Decimal.Reading
import ElementCatalog.Source.TypeTree

/-!
# Tokens — the words, signs and literals of a source

One token is scanned from the front of a text, together with the number of characters it takes. A
slash and a closing angle bracket are always signs of their own here; where a regular expression, a
shift or a comparison may stand, the reader of expressions looks again.
-/

namespace ElementCatalog.Source

/-- A token. -/
inductive Token where
  /-- A name or a reserved word. -/
  | word (name : String)
  | privateName (name : String)
  | sign (text : String)
  | string (value : StringLiteral)
  | number (value : Float)
  | bigint
  | regex
  /-- The quote that opens a template. -/
  | template
  | finish
  /-- A text that starts no token. No rule of the grammar takes it. -/
  | invalid
deriving Repr, Inhabited

/-- The reserved words, which cannot name a variable. -/
def reservedWords : List String :=
  [ "await", "break", "case", "catch", "class", "const", "continue", "debugger", "default",
    "delete", "do", "else", "export", "extends", "false", "finally", "for", "function", "if",
    "import", "in", "instanceof", "let", "new", "null", "return", "super", "switch", "this",
    "throw", "true", "try", "typeof", "var", "void", "while", "with", "yield" ]

/-- Characters that end a line. -/
def isLineEnd (c : Char) : Bool :=
  c == '\n' || c == '\r' || c.toNat == 0x2028 || c.toNat == 0x2029

/-- Blanks between tokens that do not end a line. -/
def isSpace (c : Char) : Bool :=
  (Text.isBlank c && !isLineEnd c) || c.toNat == 0x200B || c.toNat == 0xFEFF

/-- A place after some more characters of the text that stands there. Lines are counted by line
    feeds and carriage returns; one after the other in this order ends one line. -/
def Position.past (p : Position) : Nat → List Char → Position
  | 0, _ => p
  | _ + 1, [] => p
  | n + 1, c :: rest =>
    let ends := c == '\n' || (c == '\r' && rest.head? != some '\n')
    Position.past ⟨p.offset + 1, if ends then p.line + 1 else p.line⟩ n rest

/-! ## Strings -/

/-- A code unit of a surrogate pair's first half. -/
def isHighSurrogate (n : Nat) : Bool :=
  0xD800 ≤ n && n ≤ 0xDBFF

/-- A code unit of a surrogate pair's second half. -/
def isLowSurrogate (n : Nat) : Bool :=
  0xDC00 ≤ n && n ≤ 0xDFFF

/-- The literal that code points and code units of surrogates spell. Two halves of a pair make one
    character. -/
def StringLiteral.ofCodes (codes : List Nat) : StringLiteral :=
  let (chars, wellFormed) := spell codes
  ⟨String.ofList chars, wellFormed⟩
where
  /-- The characters, and whether no half of a pair stands alone. -/
  spell : List Nat → List Char × Bool
    | [] => ([], true)
    | [n] =>
      if isHighSurrogate n || isLowSurrogate n then ([Char.ofNat 0xFFFD], false)
      else ([Char.ofNat n], true)
    | n :: m :: rest =>
      if isHighSurrogate n && isLowSurrogate m then
        let (cs, ok) := spell rest
        (Char.ofNat ((n - 0xD800) * 0x400 + (m - 0xDC00) + 0x10000) :: cs, ok)
      else
        let (cs, ok) := spell (m :: rest)
        if isHighSurrogate n || isLowSurrogate n then (Char.ofNat 0xFFFD :: cs, false)
        else (Char.ofNat n :: cs, ok)

/-- The number that hexadecimal digits spell, if there is at least one and all are digits. -/
def hexNumber? (digits : List Char) : Option Nat :=
  if digits.isEmpty then none
  else digits.foldlM (fun n c => (Decimal.hexDigit? c).map (16 * n + ·)) 0

/-- The escape after a backslash: the code points it stands for, if it is a proper one, and the
    number of characters it takes. -/
def escape (text : List Char) : Option (List Nat) × Nat :=
  match text with
  | [] => (none, 0)
  | 'n' :: _ => (some [10], 1)
  | 't' :: _ => (some [9], 1)
  | 'r' :: _ => (some [13], 1)
  | 'b' :: _ => (some [8], 1)
  | 'v' :: _ => (some [11], 1)
  | 'f' :: _ => (some [12], 1)
  | '\r' :: '\n' :: _ => (some [], 2)
  | 'x' :: rest =>
    let digits := rest.take 2
    if digits.length = 2 then ((hexNumber? digits).map ([·]), 3) else (none, 1)
  | 'u' :: '{' :: rest =>
    let digits := rest.takeWhile (· != '}')
    match hexNumber? digits with
    | some n => if n ≤ 0x10FFFF then (some [n], digits.length + 3) else (none, 1)
    | none => (none, 1)
  | 'u' :: rest =>
    let digits := rest.take 4
    if digits.length = 4 then ((hexNumber? digits).map ([·]), 5) else (none, 1)
  | c :: rest =>
    if isLineEnd c then (some [], 1)
    else if '0' ≤ c && c ≤ '7' then
      let octal := (c :: rest).takeWhile fun d => '0' ≤ d && d ≤ '7'
      let digits := octal.take (if c ≤ '3' then 3 else 2)
      (some [digits.foldl (fun n d => 8 * n + (d.toNat - '0'.toNat)) 0], digits.length)
    else (some [c.toNat], 1)

/-- Scan a string after its opening quote: its codes and the number of characters, with the closing
    quote. A string that is not closed ends with its line. `covered` counts the characters ahead that
    belong to an escape. -/
def scanString (quote : Char) : (covered : Nat) → List Char → Option (List Nat × Nat)
  | _, [] => some ([], 0)
  | covered + 1, _ :: rest =>
    (scanString quote covered rest).map fun (codes, n) => (codes, n + 1)
  | 0, c :: rest =>
    if c == quote then some ([], 1)
    else if c == '\\' then
      match escape rest with
      | (some codes, covered) =>
        (scanString quote covered rest).map fun (more, n) => (codes ++ more, n + 1)
      | (none, _) => none
    else if c == '\n' || c == '\r' then some ([], 0)
    else (scanString quote 0 rest).map fun (more, n) => (c.toNat :: more, n + 1)

/-- The quote around a template. -/
def isBackquote (c : Char) : Bool :=
  c.toNat == 0x60

/-- How a text piece of a template ends. -/
inductive PieceEnd where
  | quote
  | substitution
deriving DecidableEq, Repr

/-- The escape after a backslash in a template, where no digits stand for a character but a single
    zero. -/
def templateEscape (text : List Char) : Option (List Nat) × Nat :=
  match text with
  | '0' :: d :: _ => if '0' ≤ d && d ≤ '7' then (none, 1) else escape text
  | c :: _ => if '1' ≤ c && c ≤ '7' then (none, 1) else escape text
  | [] => (none, 0)

/-- Scan a text piece of a template: its codes, if all its escapes are proper ones, how it ends, and
    the number of characters, with the mark that ends it. A line end counts as one line feed. -/
def scanPiece : (covered : Nat) → List Char → Option (Option (List Nat) × PieceEnd × Nat)
  | _, [] => none
  | covered + 1, _ :: rest =>
    (scanPiece covered rest).map fun (codes, ending, n) => (codes, ending, n + 1)
  | 0, '$' :: '{' :: _ => some (some [], .substitution, 2)
  | 0, '\r' :: '\n' :: rest =>
    (scanPiece 0 ('\n' :: rest)).map fun (codes, ending, n) => (codes, ending, n + 1)
  | 0, c :: rest =>
    if isBackquote c then some (some [], .quote, 1)
    else if c == '\\' then
      let (codes, covered) := templateEscape rest
      (scanPiece covered rest).map
        fun (more, ending, n) => (codes.bind fun cs => more.map (cs ++ ·), ending, n + 1)
    else
      let code := if c == '\r' then 10 else c.toNat
      (scanPiece 0 rest).map fun (codes, ending, n) => (codes.map (code :: ·), ending, n + 1)

/-! ## Numbers -/

/-- Digits of a literal with the separators between them taken out, and the number of characters. -/
def digitRun (isDigit : Char → Bool) (text : List Char) : List Char × Nat :=
  let run := text.takeWhile fun c => isDigit c || c == '_'
  (run.filter (· != '_'), run.length)

/-- A digit of a base up to sixteen. -/
def isDigitOf (base : Nat) (c : Char) : Bool :=
  match Decimal.hexDigit? c with
  | some n => n < base
  | none => false

/-- The number that digits of a base spell, rounded after every digit. -/
def valueIn (base : Nat) (digits : List Char) : Float :=
  digits.foldl (fun x c => x * Float.ofNat base + Float.ofNat ((Decimal.hexDigit? c).getD 0)) 0.0

/-- Scan a number. Digits after a zero are octal if they can be, and such a number is never big. -/
def scanNumber (text : List Char) : Option (Token × Nat) :=
  let based (base : Nat) (rest : List Char) : Option (Token × Nat) :=
    let (digits, n) := digitRun (isDigitOf base) rest
    if digits.isEmpty then none
    else if (rest.drop n).head? == some 'n' then some (.bigint, n + 3)
    else some (.number (valueIn base digits), n + 2)
  match text with
  | '0' :: 'x' :: rest => based 16 rest
  | '0' :: 'X' :: rest => based 16 rest
  | '0' :: 'o' :: rest => based 8 rest
  | '0' :: 'O' :: rest => based 8 rest
  | '0' :: 'b' :: rest => based 2 rest
  | '0' :: 'B' :: rest => based 2 rest
  | _ =>
    let (whole, n) := digitRun Text.isDigit text
    let afterWhole := text.drop n
    let zeroFirst := whole.length > 1 && whole.head? == some '0'
    if zeroFirst && whole.all (isDigitOf 8) then some (.number (valueIn 8 whole), n)
    else if afterWhole.head? == some 'n' && !whole.isEmpty && !zeroFirst then some (.bigint, n + 1)
    else
      let (fraction, m) :=
        match afterWhole with
        | '.' :: rest => let (digits, k) := digitRun Text.isDigit rest; (digits, k + 1)
        | _ => ([], 0)
      let afterFraction := afterWhole.drop m
      let (power, k) := exponentOf afterFraction
      let mantissa := Decimal.naturalOf (whole ++ fraction)
      if whole.isEmpty && fraction.isEmpty then none
      else some (.number (Decimal.nearest mantissa (power - fraction.length)), n + m + k)
where
  /-- The exponent of a number and the number of characters it takes. -/
  exponentOf (text : List Char) : Int × Nat :=
    match text with
    | e :: rest =>
      if e == 'e' || e == 'E' then
        let (negative, digits) := Decimal.takeSign rest
        let signs := rest.length - digits.length
        let (run, n) := digitRun Text.isDigit digits
        if run.isEmpty then (0, 0)
        else
          let power : Int := Decimal.naturalOf run
          (if negative then -power else power, n + signs + 1)
      else (0, 0)
    | [] => (0, 0)

/-! ## Words and signs -/

/-- The character that an escape in a word stands for, and the number of characters after the
    backslash. Two escapes may spell the halves of a pair. -/
def wordEscape? (text : List Char) : Option (Char × Nat) :=
  match text with
  | 'u' :: _ =>
    match escape text with
    | (some [code], n) =>
      if isHighSurrogate code then
        match text.drop n with
        | '\\' :: second =>
          match second, escape second with
          | 'u' :: _, (some [low], m) =>
            if isLowSurrogate low then
              some (Char.ofNat ((code - 0xD800) * 0x400 + (low - 0xDC00) + 0x10000), n + 1 + m)
            else none
          | _, _ => none
        | _ => none
      else some (Char.ofNat code, n)
    | _ => none
  | _ => none

/-- Scan a word: its name, whether an escape occurs in it, and the number of characters. `covered`
    counts the characters ahead that belong to an escape. -/
def scanWord : (covered : Nat) → (first : Bool) → List Char → Option (List Char × Bool × Nat)
  | _, _, [] => some ([], false, 0)
  | covered + 1, first, _ :: rest =>
    (scanWord covered first rest).map fun (cs, escaped, n) => (cs, escaped, n + 1)
  | 0, first, c :: rest =>
    let belongs (c : Char) : Bool :=
      if first then Text.isIdentifierStart c else Text.isIdentifierPart c
    if c == '\\' then
      match wordEscape? rest with
      | some (d, covered) =>
        if belongs d then
          (scanWord covered false rest).map fun (cs, _, n) => (d :: cs, true, n + 1)
        else none
      | none => none
    else if belongs c then
      (scanWord 0 false rest).map fun (cs, escaped, n) => (c :: cs, escaped, n + 1)
    else some ([], false, 0)

/-- The signs of more than one character, longer ones first. -/
def longSigns : List String :=
  [ "<<=", "**=", "&&=", "||=", "??=", "===", "!==", "...",
    "=>", "==", "!=", "<=", "<<", "&&", "||", "??", "?.", "++", "--", "+=", "-=", "*=", "**",
    "/=", "%=", "&=", "|=", "^=" ]

/-- The signs of one character. -/
def shortSigns : List Char :=
  ['{', '}', '(', ')', '[', ']', ';', ',', '<', '>', '+', '-', '*', '/', '%', '&', '|', '^', '!',
    '~', '?', ':', '=', '.', '@', '#']

/-- Scan a sign. An optional access is not followed by a digit. -/
def scanSign (text : List Char) : Option (Token × Nat) :=
  let follows (sign : String) : Bool :=
    sign.toList.isPrefixOf text &&
      !(sign == "?." && ((text.drop 2).head?.map Text.isDigit).getD false)
  match longSigns.find? follows with
  | some sign => some (.sign sign, sign.length)
  | none =>
    match text with
    | c :: _ => if shortSigns.contains c then some (.sign (String.ofList [c]), 1) else none
    | [] => none

/-- The text of a regular expression after its first slash: the number of characters up to the slash
    that ends it and the flags. It cannot run over a line end. -/
def scanRegex : (inClass : Bool) → (escaped : Bool) → List Char → Option Nat
  | _, _, [] => none
  | inClass, escaped, c :: rest =>
    if c == '\n' || c == '\r' then none
    else if escaped then (scanRegex inClass false rest).map (· + 1)
    else if c == '\\' then (scanRegex inClass true rest).map (· + 1)
    else if c == '[' then (scanRegex true false rest).map (· + 1)
    else if c == ']' then (scanRegex false false rest).map (· + 1)
    else if c == '/' && !inClass then some (1 + (rest.takeWhile Text.isIdentifierPart).length)
    else (scanRegex inClass false rest).map (· + 1)

/-- Scan one token from the front of a text that does not start with a blank or a comment: the token
    and the number of characters. A reserved word cannot be written with an escape, and a name cannot
    follow a number directly. -/
def scanToken (text : List Char) : Token × Nat :=
  match text with
  | [] => (.finish, 0)
  | c :: rest =>
    if isBackquote c then (.template, 1)
    else if c.toNat == 0x22 || c.toNat == 0x27 then
      match scanString c 0 rest with
      | some (codes, n) => (.string (.ofCodes codes), n + 1)
      | none => (.invalid, 0)
    else if Text.isDigit c || (c == '.' && (rest.head?.map Text.isDigit).getD false) then
      match scanNumber text with
      | some (token, n) =>
        if ((text.drop n).head?.map Text.isIdentifierStart).getD false then (.invalid, 0)
        else (token, n)
      | none => (.invalid, 0)
    else if c == '\\' || Text.isIdentifierStart c then
      match scanWord 0 true text with
      | some (name, escaped, n) =>
        let name := String.ofList name
        if escaped && reservedWords.contains name then (.invalid, 0) else (.word name, n)
      | none => (.invalid, 0)
    else if c == '#' then
      match scanWord 0 true rest with
      | some (name, _, n) =>
        if name.isEmpty then (.invalid, 0) else (.privateName (String.ofList name), n + 1)
      | none => (.invalid, 0)
    else (scanSign text).getD (.invalid, 0)

end ElementCatalog.Source
