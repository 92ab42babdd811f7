import ElementCatalog.Text.Pieces

/-!
# Arguments — from the words of a command line to a command

A command line names one command and gives it arguments: switches that stand alone and settings that
take a value. The words are read from left to right, and the first fault is the one that is
reported. A setting whose value is a word of its own is taken in only when the next argument comes,
so a word that is unknown is reported before a missing or empty value in front of it.
-/

namespace ElementCatalog.CommandLine

/-- An argument that is given by name. -/
inductive Argument where
  | help
  | version
  | verbose
  | compact
  | strict
  | root
  | buildConfig
  | output
deriving DecidableEq, Repr

/-- An argument is a setting: it takes a value. -/
def Argument.isSetting : Argument → Bool
  | .root | .buildConfig | .output => true
  | _ => false

/-- Why a command line is not carried out. Asking for help or for the version is a reason too. -/
inductive UsageFault where
  | unknownArgument
  | unknownCommand
  | invalidValue
  | repeatedArgument
  | surplusValue
  | helpAsked
  | versionAsked
deriving DecidableEq, Repr

/-- The names that a command gives to its arguments. -/
structure Vocabulary where
  long : List (String × Argument)
  short : List (Char × Argument)

/-- The arguments in front of any command. -/
def Vocabulary.top : Vocabulary :=
  ⟨[("help", .help), ("version", .version)], [('h', .help), ('V', .version)]⟩

/-- The arguments of the command that extracts a catalog. -/
def Vocabulary.extract : Vocabulary where
  long :=
    [ ("root", .root), ("build-config", .buildConfig), ("verbose", .verbose),
      ("output", .output), ("compact", .compact), ("strict", .strict), ("help", .help) ]
  short := [('v', .verbose), ('o', .output), ('h', .help)]

/-- The arguments of the command that writes a configuration file. -/
def Vocabulary.init : Vocabulary :=
  ⟨[("help", .help)], [('h', .help)]⟩

/-! ## Words -/

/-- A word of a command line. -/
inductive Word where
  /-- The two dashes after which nothing is a name. -/
  | escape
  | long (name : String) (value : Option String)
  | short (letters : List Char)
  | plain
deriving DecidableEq, Repr

/-- Cut at the first equals sign. -/
def cutAtEquals (text : List Char) : String × Option String :=
  let name := text.takeWhile (· != '=')
  match text.drop name.length with
  | [] => (String.ofList name, none)
  | _ :: value => (String.ofList name, some (String.ofList value))

/-- Read the shape of a word. A single dash is a plain word. -/
def Word.ofText (text : String) : Word :=
  match text.toList with
  | ['-', '-'] => .escape
  | '-' :: '-' :: rest =>
    let (name, value) := cutAtEquals rest
    .long name value
  | '-' :: first :: rest => .short (first :: rest)
  | _ => .plain

/-! ## Reading -/

/-- What has been read so far. -/
structure Reading where
  /-- The arguments that were taken in, each with its value. -/
  given : List (Argument × String) := []
  /-- A setting that is not taken in yet, with its value if that was read. -/
  pending : Option (Argument × Option String) := none
deriving DecidableEq, Repr

namespace Reading

/-- Take in an argument. None may be given twice, and no value may be empty. -/
def accept (r : Reading) (a : Argument) (value : String) : Except UsageFault Reading :=
  if r.given.any (·.1 == a) then .error .repeatedArgument
  else if a.isSetting && value == "" then .error .invalidValue
  else if a = .help then .error .helpAsked
  else if a = .version then .error .versionAsked
  else .ok { r with given := r.given ++ [(a, value)] }

/-- Take in the pending setting. -/
def settle (r : Reading) : Except UsageFault Reading :=
  match r.pending with
  | none => .ok r
  | some (_, none) => .error .invalidValue
  | some (a, some value) => { r with pending := none }.accept a value

/-- Begin an argument, with a value if one is attached to its name. -/
def begin (r : Reading) (a : Argument) (value : Option String) : Except UsageFault Reading := do
  let r ← r.settle
  match a.isSetting, value with
  | true, none => .ok { r with pending := some (a, none) }
  | _, value => r.accept a (value.getD "")

/-- Read the name of an argument with what is attached to it. -/
def readLong (v : Vocabulary) (r : Reading) (name : String) (value : Option String) :
    Except UsageFault Reading :=
  match v.long.lookup name with
  | none => .error .unknownArgument
  | some a => if !a.isSetting && value.isSome then .error .surplusValue else r.begin a value

/-- Read letters that each name an argument. What follows a setting is its value. -/
def readShort (v : Vocabulary) : (letters : List Char) → Reading → Except UsageFault Reading
  | [], r => .ok r
  | letter :: rest, r =>
    match v.short.lookup letter with
    | none => .error .unknownArgument
    | some a =>
      if a.isSetting then
        match rest with
        | [] => r.begin a none
        | '=' :: value => r.begin a (some (String.ofList value))
        | value => r.begin a (some (String.ofList value))
      else (r.begin a none).bind (readShort v rest)

/-- Read a plain word: the value of a setting that still lacks one. -/
def readPlain (r : Reading) (text : String) : Except UsageFault Reading :=
  match r.pending with
  | some (a, none) => .ok { r with pending := some (a, some text) }
  | _ => .error .unknownArgument

/-- Read the words after a command. No command takes a word after the two dashes. -/
def readWords (v : Vocabulary) : List String → Reading → Except UsageFault Reading
  | [], r => r.settle
  | text :: rest, r =>
    match Word.ofText text with
    | .escape => if rest.isEmpty then r.settle else .error .unknownArgument
    | .long name value => (r.readLong v name value).bind (readWords v rest)
    | .short letters => (readShort v letters r).bind (readWords v rest)
    | .plain => (r.readPlain text).bind (readWords v rest)

/-- A switch was given. -/
def has (r : Reading) (a : Argument) : Bool :=
  (r.given.lookup a).isSome

end Reading

/-! ## Commands -/

/-- How a catalog is extracted. -/
structure ExtractOptions where
  root : String := "."
  buildConfig : Option String := none
  verbose : Bool := false
  /-- The file that the catalog is written to; without one it is printed. -/
  output : Option String := none
  compact : Bool := false
  /-- Warnings make the command fail. -/
  strict : Bool := false
deriving DecidableEq, Repr

/-- What a command line asks for. -/
inductive Command where
  | extract (options : ExtractOptions)
  | init
deriving DecidableEq, Repr

/-- The names of the commands. -/
def commandNames : List String :=
  ["extract", "init", "help"]

/-- The options of an extraction as they were given. -/
def ExtractOptions.ofReading (r : Reading) : ExtractOptions where
  root := (r.given.lookup .root).getD "."
  buildConfig := r.given.lookup .buildConfig
  verbose := r.has .verbose
  output := r.given.lookup .output
  compact := r.has .compact
  strict := r.has .strict

/-- What a request for help asks for. Help on a command may be asked for by its name. -/
def helpFault : (words : List String) → UsageFault
  | [] => .helpAsked
  | [name] => if commandNames.contains name then .helpAsked else .unknownCommand
  | _ => .unknownCommand

/-- Read a command line; the empty one asks for nothing. -/
def Command.ofWords : List String → Except UsageFault (Option Command)
  | [] => .ok none
  | "extract" :: words =>
    (Reading.readWords .extract words {}).map fun r => some (.extract (.ofReading r))
  | "init" :: words => (Reading.readWords .init words {}).map fun _ => some .init
  | "help" :: words => .error (helpFault words)
  | word :: words =>
    match Word.ofText word with
    | .escape =>
      match words with
      | [] => .ok none
      | name :: _ =>
        .error (if commandNames.contains name then .unknownArgument else .unknownCommand)
    | .long name value => (Reading.readLong .top {} name value).bind fun _ => ofWords words
    | .short letters => (Reading.readShort .top letters {}).bind fun _ => ofWords words
    | .plain => .error .unknownCommand

end ElementCatalog.CommandLine
