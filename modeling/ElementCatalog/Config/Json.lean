import ElementCatalog.Config.Basic
import ElementCatalog.Json.Printer
import ElementCatalog.Json.Typed

/-!
# Configurations as JSON — reading and writing configuration files

A configuration is read as a record whose fields may all be left out, and written with every field
but an absent build configuration.
-/

namespace ElementCatalog

open Json (RecordField Fault readStrings readString readBool readOptionalString readRecord)

namespace Conventions

/-- A field that holds a list of names. -/
def namesField (name : String) (write : Conventions → List String → Conventions) :
    RecordField Conventions :=
  ⟨name, fun c text => (readStrings text).map fun (names, rest) => (write c names, rest)⟩

/-- The fields of the conventions, in order. -/
def shape : List (RecordField Conventions) :=
  [ namesField "registrationFunctions" fun c names => { c with registrationFunctions := names },
    namesField "wrapperFactories" fun c names => { c with wrapperFactories := names },
    namesField "elementDecorators" fun c names => { c with elementDecorators := names },
    namesField "propertyDecorators" fun c names => { c with propertyDecorators := names },
    namesField "propertyFactories" fun c names => { c with propertyFactories := names },
    namesField "reservedShapeMembers" fun c names => { c with reservedShapeMembers := names },
    ⟨"eventCallbackPrefix", fun c text =>
      (readString text).map fun (s, rest) => ({ c with eventCallbackPrefix := s }, rest)⟩,
    namesField "dispatchMethods" fun c names => { c with dispatchMethods := names } ]

/-- Read conventions; what is left out keeps its default. -/
def read (text : List Char) : Except Fault (Conventions × List Char) :=
  readRecord shape {} text

/-- Conventions as JSON. -/
def toJson (c : Conventions) : Json :=
  .object
    [ ("registrationFunctions", .strings c.registrationFunctions),
      ("wrapperFactories", .strings c.wrapperFactories),
      ("elementDecorators", .strings c.elementDecorators),
      ("propertyDecorators", .strings c.propertyDecorators),
      ("propertyFactories", .strings c.propertyFactories),
      ("reservedShapeMembers", .strings c.reservedShapeMembers),
      ("eventCallbackPrefix", .string c.eventCallbackPrefix),
      ("dispatchMethods", .strings c.dispatchMethods) ]

end Conventions

namespace Config

/-- The fields of a configuration, in order. -/
def shape : List (RecordField Config) :=
  [ ⟨"includes", fun c text =>
      (readStrings text).map fun (names, rest) => ({ c with includes := names }, rest)⟩,
    ⟨"ignores", fun c text =>
      (readStrings text).map fun (names, rest) => ({ c with ignores := names }, rest)⟩,
    ⟨"ignoreTestFiles", fun c text =>
      (readBool text).map fun (flag, rest) => ({ c with ignoreTestFiles := flag }, rest)⟩,
    ⟨"buildConfig", fun c text =>
      (readOptionalString text).map fun (path, rest) => ({ c with buildConfig := path }, rest)⟩,
    ⟨"conventions", fun c text =>
      (Conventions.read text).map fun (names, rest) => ({ c with conventions := names }, rest)⟩ ]

/-- Read a whole text as a configuration. -/
def parse (text : String) : Except Fault Config := do
  let (config, rest) ← readRecord shape {} text.toList
  Json.finished rest
  .ok config

/-- A configuration as JSON. -/
def toJson (c : Config) : Json :=
  .object
    ([ ("includes", Json.strings c.includes),
       ("ignores", Json.strings c.ignores),
       ("ignoreTestFiles", Json.bool c.ignoreTestFiles) ] ++
      Json.optionalField "buildConfig" (c.buildConfig.map .string) ++
      [("conventions", c.conventions.toJson)])

/-- The text of the default configuration file. -/
def defaultText : String :=
  Json.pretty (toJson {})

end Config

end ElementCatalog
