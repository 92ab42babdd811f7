import ElementCatalog.Schema.Json

/-!
# The catalog — components with their properties and events

This is what an analysis produces: how the project is bundled and, for every element, the properties
that it takes and the events that it emits. It is handed on as JSON.
-/

namespace ElementCatalog

/-- How a property was recognized. -/
inductive PropertySource where
  | decorator
  | factory
  | shape
  | legacy
deriving DecidableEq, Repr

/-- The name of a way to recognize properties. -/
def PropertySource.name : PropertySource → String
  | .decorator => "decorator"
  | .factory => "factory"
  | .shape => "shape"
  | .legacy => "legacy"

/-- How an event was recognized. -/
inductive EventSource where
  | documentation
  | callback
  | dispatch
deriving DecidableEq, Repr

/-- The name of a way to recognize events. -/
def EventSource.name : EventSource → String
  | .documentation => "documentation"
  | .callback => "callback"
  | .dispatch => "dispatch"

/-- A property of a component. -/
structure PropertyDescriptor where
  name : String
  /-- The name that is used outside, in markup. -/
  externalName : String
  schema : Schema
  required : Bool
  source : PropertySource
  description : Option String
  defaultValue : Option Json
  deprecated : Bool

/-- An event of a component. -/
structure EventDescriptor where
  name : String
  /-- The constructor of the event value. -/
  kind : String
  payload : Option Schema
  source : EventSource
  bubbles : Option Bool
  composed : Option Bool
  description : Option String
  deprecated : Bool

/-- An element with its implementation, properties and events. -/
structure Component where
  tagName : String
  /-- The name of the declaration that implements the element. -/
  implementation : String
  modulePath : String
  properties : List PropertyDescriptor
  events : List EventDescriptor

/-- The part that a project plays among modules that are loaded from each other at run time. -/
structure Federation where
  remoteName : String
  libraryType : Option String
  exposes : Option (Dictionary String)
deriving DecidableEq, Repr

/-- How a project is bundled. -/
structure Runtime where
  bundler : String
  federation : Option Federation
deriving DecidableEq, Repr

/-- Nothing is known about the bundling of a project. -/
def Runtime.unknown : Runtime :=
  ⟨"unknown", none⟩

/-- The components of a project. -/
structure Catalog where
  runtime : Runtime
  components : List Component

/-! ## As JSON -/

/-- A property as JSON. -/
def PropertyDescriptor.toJson (p : PropertyDescriptor) : Json :=
  .object
    ([ ("name", .string p.name), ("externalName", .string p.externalName),
       ("schema", p.schema.toJson), ("required", .bool p.required),
       ("sourceKind", .string p.source.name) ] ++
      Json.optionalField "description" (p.description.map .string) ++
      Json.optionalField "default" p.defaultValue ++
      Json.flagField "deprecated" p.deprecated)

/-- An event as JSON. -/
def EventDescriptor.toJson (e : EventDescriptor) : Json :=
  .object
    ([("name", .string e.name), ("type", .string e.kind)] ++
      Json.optionalField "payloadSchema" (e.payload.map Schema.toJson) ++
      [("sourceKind", .string e.source.name)] ++
      Json.optionalField "bubbles" (e.bubbles.map .bool) ++
      Json.optionalField "composed" (e.composed.map .bool) ++
      Json.optionalField "description" (e.description.map .string) ++
      Json.flagField "deprecated" e.deprecated)

/-- A component as JSON. -/
def Component.toJson (c : Component) : Json :=
  .object
    [ ("tagName", .string c.tagName), ("implementationRef", .string c.implementation),
      ("modulePath", .string c.modulePath),
      ("properties", .array (c.properties.map PropertyDescriptor.toJson)),
      ("events", .array (c.events.map EventDescriptor.toJson)) ]

/-- The part among modules as JSON. -/
def Federation.toJson (f : Federation) : Json :=
  .object
    ([("remoteName", .string f.remoteName)] ++
      Json.optionalField "libraryType" (f.libraryType.map .string) ++
      Json.optionalField "exposes" (f.exposes.map fun modules =>
        .object (modules.map fun (name, target) => (name, .string target))))

/-- The bundling of a project as JSON. -/
def Runtime.toJson (r : Runtime) : Json :=
  .object
    ([("bundler", .string r.bundler)] ++
      Json.optionalField "federation" (r.federation.map Federation.toJson))

/-- A catalog as JSON. -/
def Catalog.toJson (c : Catalog) : Json :=
  .object
    [("runtime", c.runtime.toJson), ("components", .array (c.components.map Component.toJson))]

end ElementCatalog
