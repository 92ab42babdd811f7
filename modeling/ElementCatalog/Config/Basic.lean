import ElementCatalog.Glob.Pattern
import ElementCatalog.Json.Value
import ElementCatalog.Text.LetterCase
import ElementCatalog.Text.Pieces

/-!
# Configuration — what to scan and which names to recognize

A configuration says which files are scanned and by which names registrations, properties and events
are recognized. Everything has a default, so the empty configuration is a complete one.
-/

namespace ElementCatalog

/-- The names by which components, properties and events are recognized. -/
structure Conventions where
  registrationFunctions : List String := ["define"]
  wrapperFactories : List String :=
    ["createCustomElement", "r2wc", "reactToWebComponent", "defineCustomElement"]
  elementDecorators : List String := ["customElement", "Component"]
  propertyDecorators : List String := ["property", "Prop", "Input"]
  propertyFactories : List String := ["input", "model"]
  reservedShapeMembers : List String := ["children", "key", "ref"]
  eventCallbackPrefix : String := "on"
  dispatchMethods : List String := ["dispatchEvent"]
deriving DecidableEq, Repr

namespace Conventions

/-- A bare function that registers an element. -/
def isRegistrationFunction (c : Conventions) (name : String) : Bool :=
  c.registrationFunctions.contains name

/-- A call that wraps an implementation into an element. -/
def isWrapperFactory (c : Conventions) (name : String) : Bool :=
  c.wrapperFactories.contains name

/-- A class decorator that carries a tag name. -/
def isElementDecorator (c : Conventions) (name : String) : Bool :=
  c.elementDecorators.contains name

/-- A field decorator that marks a property. -/
def isPropertyDecorator (c : Conventions) (name : String) : Bool :=
  c.propertyDecorators.contains name

/-- A call that declares a reactive property. -/
def isPropertyFactory (c : Conventions) (name : String) : Bool :=
  c.propertyFactories.contains name

/-- A shape member that is never a property. -/
def isReservedMember (c : Conventions) (name : String) : Bool :=
  c.reservedShapeMembers.contains name

/-- A method that dispatches an event. -/
def isDispatchMethod (c : Conventions) (name : String) : Bool :=
  c.dispatchMethods.contains name

/-- The event part of a callback's name: what follows the callback mark, if it starts with a capital
    letter. -/
def eventPart? (c : Conventions) (name : String) : Option String :=
  match Text.stripStart? c.eventCallbackPrefix.toList name.toList with
  | some (first :: rest) =>
    if Text.isUppercase first then some (String.ofList (first :: rest)) else none
  | _ => none

end Conventions

/-- What to scan and which names to recognize. -/
structure Config where
  includes : List String := []
  ignores : List String := ["**/node_modules/**", "**/dist/**", "**/build/**"]
  ignoreTestFiles : Bool := true
  buildConfig : Option String := none
  conventions : Conventions := {}
deriving DecidableEq, Repr

/-- Why a configuration is refused. -/
inductive ConfigFault where
  | badIgnore (pattern : String)
  | badInclude (pattern : String)
  | emptyCallbackMark
deriving DecidableEq, Repr

/-- The text of a fault. -/
def ConfigFault.message : ConfigFault → String
  | .badIgnore pattern => "Invalid glob pattern in 'ignores': \"" ++ pattern ++ "\""
  | .badInclude pattern => "Invalid glob pattern in 'includes': \"" ++ pattern ++ "\""
  | .emptyCallbackMark => "'conventions.eventCallbackPrefix' must not be empty"

namespace Config

/-- The first fault of a configuration. All ignore patterns must be glob patterns; an include
    pattern without wildcards is a location and always fine. -/
def fault? (config : Config) : Option ConfigFault :=
  match config.ignores.find? fun p => (Glob.Pattern.ofText? p).isNone with
  | some p => some (.badIgnore p)
  | none =>
    match config.includes.find? fun p =>
        Glob.hasWildcard p && (Glob.Pattern.ofText? p).isNone with
    | some p => some (.badInclude p)
    | none => if config.conventions.eventCallbackPrefix = "" then some .emptyCallbackMark else none

end Config

end ElementCatalog
