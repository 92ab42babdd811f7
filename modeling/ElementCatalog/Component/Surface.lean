import ElementCatalog.Component.Inference
import ElementCatalog.Doc.Block
import ElementCatalog.Types.Expansion

/-!
# Surfaces — what an implementation shows of a component

An implementation is reduced to its surface: the class or the body of the function, the members of
its input shape, the defaults of destructured parameters, and its documentation. Properties and
events are read from the surface alone.
-/

namespace ElementCatalog

open Source (Expr Stmt Pattern ClassDef TypeExpr Position)
open ElementCatalog.Types

/-- The documentation before the first of some places that has any. -/
def SourceFile.docsAt (file : SourceFile) (anchors : List Position) : DocBlock :=
  match file.docTextAt? anchors with
  | some text => DocBlock.parse text.toList
  | none => {}

/-- The body of a function component. -/
inductive Body where
  | block (stmts : List Stmt)
  | expr (value : Expr)

/-- What is read of an implementation. -/
structure Surface where
  name : String
  file : SourceFile
  implementedBy : Option ClassDef
  body : Option Body
  /-- The members of the input shape, inherited ones first. -/
  shape : List ShapeMember
  paramDefaults : Dictionary Json
  docs : DocBlock

/-- Why a declaration cannot implement a component. -/
inductive SurfaceFault where
  | noInitializer (name : String)
  | noImplementation (name : String)
  | wrongKind (name kind : String)
deriving DecidableEq, Repr

/-- The text of a fault. -/
def SurfaceFault.message : SurfaceFault → String
  | .noInitializer name => "'" ++ name ++ "' is declared without an initializer"
  | .noImplementation name => "'" ++ name ++ "' is not initialized with a class or a function"
  | .wrongKind name kind => "'" ++ name ++ "' (" ++ kind ++ ") cannot implement a component"

namespace Surface

/-- Calls that wrap a function component and leave its properties alone. -/
def componentWrappers : List String := ["memo", "forwardRef", "observer"]

/-- Types of function components, whose first argument is the type of the properties. -/
def functionComponentTypes : List String := ["FC", "FunctionComponent", "VFC", "SFC"]

/-- Base classes whose first type argument is the type of the properties. -/
def propsBaseClasses : List String := ["Component", "PureComponent"]

/-- The number of wrappers that are looked through. -/
def wrapperDepth : Nat := 8

/-- The surface that shows nothing yet. -/
def bare (name : String) (file : SourceFile) (docs : DocBlock) : Surface :=
  ⟨name, file, none, none, [], [], docs⟩

/-- Add members to the input shape. -/
def addShape (s : Surface) (members : List ShapeMember) : Surface :=
  { s with shape := mergeMembers s.shape members }

/-- The type of the properties that a base class is given. -/
def basePropsType? (value : ClassDef) : Option TypeExpr :=
  match value.superClass.bind Expr.name? with
  | some name => if propsBaseClasses.contains name then value.superArgs.head?.map (·.type) else none
  | none => none

/-- Read a class: the properties of its base class and the interfaces that it implements. -/
def readClass (s : Surface) (w : Workspace) (value : ClassDef) : Surface :=
  let scope := Scope.ofFile s.file
  let base :=
    match basePropsType? value with
    | some type => w.membersIn scope type
    | none => []
  let implemented := value.implemented.map fun parent =>
    match parent.name? with
    | some (.ident name) => w.namedMembersIn scope name (parent.args.map (·.type))
    | _ => []
  implemented.foldl addShape ({ s with implementedBy := some value }.addShape base)

/-- The pattern of a properties parameter with its declared type, looking through a default. -/
def propsParam? : Pattern → Option (Pattern × Option TypeExpr)
  | .ident name type => some (.ident name type, type.map (·.type))
  | .object entries type => some (.object entries type, type.map (·.type))
  | .withDefault target _ => propsParam? target
  | _ => none

/-- Write the default that an entry of an object pattern gives. -/
def addParamDefault (defaults : Dictionary Json) : Pattern → Dictionary Json
  | .shorthand name (some value) =>
    match defaultValue? value with
    | some json => Dictionary.set defaults name json
    | none => defaults
  | .keyed key (.withDefault _ value) =>
    match key.name?, defaultValue? value with
    | some name, some json => Dictionary.set defaults name json
    | _, _ => defaults
  | _ => defaults

/-- Read a function: its body and its first parameter. -/
def readFunction (s : Surface) (w : Workspace) (param : Option Pattern) (body : Option Body) :
    Surface :=
  let s := { s with body := body }
  match param.bind propsParam? with
  | none => s
  | some (pattern, type) =>
    let s :=
      match pattern with
      | .object entries _ => { s with paramDefaults := entries.foldl addParamDefault [] }
      | _ => s
    match type with
    | some type => s.addShape (w.membersIn (.ofFile s.file) type)
    | none => s

/-- Read a function that is declared with its keyword. -/
def readDeclared (s : Surface) (w : Workspace) (value : Source.Function) : Surface :=
  s.readFunction w (value.params.head?.map Pattern.undecorated) (value.body.map .block)

/-- A call looks through to its first argument. -/
def wraps (w : Workspace) (callee : Expr) : Bool :=
  match callee.name? with
  | some name => componentWrappers.contains name || w.conventions.isWrapperFactory name
  | none => false

/-- Read the value of a variable, if it is a class or a function, looking through at most `depth`
    wrappers. -/
def readValue? (w : Workspace) : (depth : Nat) → Surface → Expr → Option Surface
  | 0, s, init => readPlain? s init.unwrapped
  | depth + 1, s, init =>
    match init.unwrapped with
    | .call _ callee _ args =>
      match args with
      | [] => none
      | first :: _ =>
        if wraps w callee then
          match first.argument.unwrapped with
          | .ident name =>
            match w.value? s.file name with
            | some inner =>
              match inner.node with
              | .classNode value => some ({ s with file := inner.file }.readClass w value)
              | .functionNode value => some ({ s with file := inner.file }.readDeclared w value)
              | .variableNode (some init) _ => readValue? w depth { s with file := inner.file } init
              | _ => none
            | none => none
          | other => readValue? w depth s other
        else none
    | value => readPlain? s value
where
  /-- Read a class or a function that stands for itself. -/
  readPlain? (s : Surface) : Expr → Option Surface
    | .classExpr value => some (s.readClass w value)
    | .arrow params body _ => some (s.readFunction w params.head? (some (.block body)))
    | .arrowTo params value _ => some (s.readFunction w params.head? (some (.expr value)))
    | .function value => some (s.readDeclared w value)
    | _ => none

/-- The type of the properties that the type of a function component is given. -/
def functionPropsType? : TypeExpr → Option TypeExpr
  | .reference name args =>
    if functionComponentTypes.contains name.last then args.head? else none
  | _ => none

/-- The surface of a declaration. -/
def ofDeclaration (w : Workspace) (d : Declaration) : Except SurfaceFault Surface :=
  let s := bare d.name d.file (d.file.docsAt d.anchors)
  match d.node with
  | .classNode value => .ok (s.readClass w value)
  | .functionNode value => .ok (s.readDeclared w value)
  | .variableNode none _ => .error (.noInitializer d.name)
  | .variableNode (some init) type =>
    match readValue? w wrapperDepth s init with
    | none => .error (.noImplementation d.name)
    | some s =>
      match type.bind fun use => functionPropsType? use.type with
      | some props => .ok (s.addShape (w.membersIn (.ofFile d.file) props))
      | none => .ok s
  | node => .error (.wrongKind d.name node.kindName)

/-- The surface of a class that stands in a registration. -/
def ofClass (w : Workspace) (name : String) (file : SourceFile) (value : ClassDef) : Surface :=
  (bare name file {}).readClass w value

/-- The schema of a type that is written in the file of the component. -/
def schemaOf (s : Surface) (w : Workspace) (type : TypeExpr) : Schema :=
  w.schemaIn (.ofFile s.file) type

end Surface

end ElementCatalog
