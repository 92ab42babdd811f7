import ElementCatalog.Component.Model
import ElementCatalog.Component.Surface
import ElementCatalog.Text.KebabCase

/-!
# Properties — what a component takes from outside

A property is declared by a decorated field, by a field that a factory makes, or by a member of the
input shape, and is known by its name; the first declaration of a name counts. A static block of
properties comes last: it fills in descriptions and defaults and adds what was not declared before.
-/

namespace ElementCatalog

open Source (Expr Property ClassDef ClassMember Decorator TypeExpr Position Key Pattern Stmt)

/-- A field or accessor of a class that may declare a property. -/
structure FieldCandidate where
  name : String
  decorators : List Decorator
  value : Option Expr
  type : Option TypeExpr
  optional : Bool
  /-- The places that documentation may stand before. -/
  anchors : List Position

namespace FieldCandidate

/-- The places before which the documentation of a member may stand. -/
def memberAnchors (start : Position) (decorators : List Decorator) (key : Key) : List Position :=
  start :: decorators.map (·.start) ++ [key.start]

/-- The type of the value that a setter takes. -/
def setterType? (value : Source.Function) : Option TypeExpr :=
  match value.params.head?.map Pattern.undecorated with
  | some (.ident _ type) => type.map (·.type)
  | _ => none

/-- A decorator marks a property. -/
def marksProperty (c : Conventions) (d : Decorator) : Bool :=
  match d.name? with
  | some name => c.isPropertyDecorator name
  | none => false

/-- The candidate that a member of a class is. Getters and setters are candidates only if they are
    marked. -/
def ofMember? (c : Conventions) : ClassMember → Option FieldCandidate
  | .field start modifiers decorators key type value =>
    if modifiers.isStatic then none
    else
      key.name?.map fun name =>
        ⟨name, decorators, value, type.map (·.type), modifiers.optional,
          memberAnchors start decorators key⟩
  | .accessor start modifiers decorators key type value =>
    if modifiers.isStatic then none
    else
      key.name?.map fun name =>
        ⟨name, decorators, value, type.map (·.type), false, memberAnchors start decorators key⟩
  | .method start modifiers kind key value =>
    if modifiers.isStatic || kind == .method || !value.decorators.any (marksProperty c) then none
    else
      key.name?.map fun name =>
        ⟨name, value.decorators, none,
          if kind == .setter then setterType? value else value.returnType.map (·.type),
          modifiers.optional, memberAnchors start value.decorators key⟩
  | _ => none

/-- The candidates among the members of a class. -/
def ofClass (c : Conventions) (value : ClassDef) : List FieldCandidate :=
  value.members.filterMap (ofMember? c)

end FieldCandidate

namespace Types

/-- The schema of the values that a constructor makes, where one is given in place of a type. -/
def constructorSchema (e : Expr) : Schema :=
  match e.unwrapped with
  | .ident "String" => .string
  | .ident "Number" => .number
  | .ident "Boolean" => .boolean
  | .ident "Array" => .array .unconstrained
  | .ident "Object" => .anyObject
  | .ident "Date" => .dateTime
  | _ => .unconstrained

end Types

namespace Surface

open ElementCatalog.Types

/-! ## Fields -/

/-- The property that a field declares, given what its declaration says about it. -/
def fieldProperty (s : Surface) (field : FieldCandidate) (schema : Schema) (required : Bool)
    (explicitName : Option String) (value : Option Json) (source : PropertySource) :
    PropertyDescriptor :=
  let docs := s.file.docsAt field.anchors
  { name := field.name
    externalName := (explicitName.or docs.externalName).getD (Text.kebabCase field.name)
    schema := schema
    required := required
    source := source
    description := docs.description
    defaultValue := docs.defaultValue.or value
    deprecated := docs.deprecated }

/-- The arguments of a decorator that count. -/
structure DecoratorArguments where
  name : Option String
  options : Option (List Property)

/-- The name and the options that a decorator is given. The first text is the name, the last object
    the options; without a text the options may name the property. -/
def decoratorArguments (d : Decorator) : DecoratorArguments :=
  match d.value with
  | .call _ _ _ args =>
    let values := args.map Expr.argument
    let options := values.reverse.findSome? Expr.entries?
    let text := values.findSome? Expr.string?
    let named := options.bind fun entries =>
      (Property.string? entries "attribute").or (Property.string? entries "alias")
    ⟨text.or named, options⟩
  | _ => ⟨none, none⟩

/-- The property that a decorated field declares. -/
def decoratedProperty? (w : Workspace) (s : Surface) (field : FieldCandidate) :
    Option PropertyDescriptor :=
  (field.decorators.find? (FieldCandidate.marksProperty w.conventions)).map fun d =>
    let ⟨name, options⟩ := decoratorArguments d
    let option (key : String) : Option Expr :=
      options.bind fun entries => Property.value? entries key
    let schema :=
      match field.type with
      | some type => s.schemaOf w type
      | none =>
        match option "type" with
        | some value => constructorSchema value
        | none => (field.value.bind (inferred? (s.schemaOf w))).getD .unconstrained
    let required := !field.optional && ((option "required").bind Expr.bool?).getD true
    s.fieldProperty field schema required name (field.value.bind defaultValue?) .decorator

/-- Whether a call makes a property, and then whether a required one. -/
def factoryCall? (c : Conventions) (callee : Expr) : Option Bool :=
  match callee.unwrapped with
  | .ident name => if c.isPropertyFactory name then some false else none
  | .member object "required" =>
    match object.unwrapped with
    | .ident name => if c.isPropertyFactory name then some true else none
    | _ => none
  | _ => none

/-- The property that a field made by a factory declares. The default of an optional property is the
    first argument. -/
def factoryProperty? (w : Workspace) (s : Surface) (field : FieldCandidate) :
    Option PropertyDescriptor :=
  match field.value.map Expr.unwrapped with
  | some (.call _ callee typeArgs args) =>
    (factoryCall? w.conventions callee).map fun required =>
      let values := args.map Expr.argument
      let value := if required then none else values.head?
      let options := (if required then values.head? else values[1]?).bind Expr.entries?
      let schema :=
        match typeArgs with
        | arg :: _ => s.schemaOf w arg.type
        | [] => (value.bind (inferred? (s.schemaOf w))).getD .unconstrained
      s.fieldProperty field schema required (options.bind (Property.string? · "alias"))
        (value.bind defaultValue?) .factory
  | _ => none

/-! ## Shape members -/

/-- A member of the input shape is an event and no property: a callback with the mark of one. -/
def isEventMember (c : Conventions) (member : ShapeMember) : Bool :=
  member.callback.isSome && (c.eventPart? member.name).isSome

/-- The property that a member of the input shape declares. -/
def shapeProperty? (w : Workspace) (s : Surface) (member : ShapeMember) :
    Option PropertyDescriptor :=
  if w.conventions.isReservedMember member.name || isEventMember w.conventions member then none
  else
    member.type.map fun type =>
      let docs := member.scope.file.docsAt [member.anchor]
      { name := member.name
        externalName := docs.externalName.getD (Text.kebabCase member.name)
        schema := w.schemaIn member.scope type
        required := !member.optional
        source := .shape
        description := docs.description
        defaultValue := docs.defaultValue.or (Dictionary.find? s.paramDefaults member.name)
        deprecated := docs.deprecated }

/-! ## The static block -/

/-- The entries of a static block of properties that a member of a class holds. -/
def legacyEntries? : ClassMember → Option (List Property)
  | .field _ modifiers _ key _ value =>
    if modifiers.isStatic && key.name? == some "properties" then value.bind Expr.entries? else none
  | .method _ modifiers .getter key value =>
    if modifiers.isStatic && key.name? == some "properties" then
      (value.body.getD []).findSome? fun
        | .returned result => result.bind Expr.entries?
        | _ => none
    else none
  | _ => none

/-- The entries of the static block of properties of a class. -/
def legacyBlock? (value : ClassDef) : Option (List Property) :=
  value.members.findSome? legacyEntries?

/-- Take in one entry of the static block. -/
def addLegacy (s : Surface) (properties : Dictionary PropertyDescriptor) :
    Property → Dictionary PropertyDescriptor
  | .keyValue key value =>
    match key.name? with
    | none => properties
    | some name =>
      let options := value.entries?
      let option (key : String) : Option Expr :=
        options.bind fun entries => Property.value? entries key
      let docs := s.file.docsAt [key.start]
      let defaultValue := docs.defaultValue.or ((option "value").bind defaultValue?)
      match Dictionary.find? properties name with
      | some found =>
        Dictionary.set properties name
          { found with
            description := found.description.or docs.description
            defaultValue := found.defaultValue.or defaultValue }
      | none =>
        let schema :=
          match options with
          | some _ => ((option "type").map constructorSchema).getD .unconstrained
          | none => constructorSchema value
        Dictionary.set properties name
          { name := name
            externalName := (((option "attribute").bind Expr.string?).or docs.externalName).getD
              (Text.kebabCase name)
            schema := schema
            required := false
            source := .legacy
            description := docs.description
            defaultValue := defaultValue
            deprecated := docs.deprecated }
  | _ => properties

/-! ## All properties -/

/-- The properties that fields and shape members declare, in order of declaration. -/
def declaredProperties (w : Workspace) (s : Surface) : List PropertyDescriptor :=
  let fields :=
    match s.implementedBy with
    | some value => FieldCandidate.ofClass w.conventions value
    | none => []
  fields.filterMap (fun field => (decoratedProperty? w s field).or (factoryProperty? w s field)) ++
    s.shape.filterMap (shapeProperty? w s)

/-- Properties under their names; the first of a name counts. -/
def firstByName (properties : List PropertyDescriptor) : Dictionary PropertyDescriptor :=
  properties.foldl (fun found p => Dictionary.setNew found p.name p) []

/-- The properties of a component. -/
def properties (w : Workspace) (s : Surface) : List PropertyDescriptor :=
  let declared := firstByName (declaredProperties w s)
  let all :=
    match s.implementedBy.bind legacyBlock? with
    | some entries => entries.foldl (addLegacy s) declared
    | none => declared
  Dictionary.values all

end Surface

end ElementCatalog
