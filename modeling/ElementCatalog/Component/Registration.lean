import ElementCatalog.Config.Basic
import ElementCatalog.Diagnostic
import ElementCatalog.Program.Basic
import ElementCatalog.Source.Literal
import ElementCatalog.Source.Node

/-!
# Registrations — where elements are given their tags

An element is registered by a call that names its tag and its implementation, or by a decorator of
its class. The implementation may be wrapped, directly or through a variable; variables are followed
once the whole file has been read.
-/

namespace ElementCatalog

open Source (Expr Property Node ClassDef Decorator)

/-- What a tag is registered for. -/
inductive RegistrationTarget where
  | named (name : String)
  | inlineClass (value : ClassDef)

/-- A tag with its implementation. -/
structure Registration where
  tagName : String
  target : RegistrationTarget
  /-- The place of the registering file in its program. -/
  fileId : Nat
  line : Nat

/-- What the reading of a file has found so far. -/
structure Findings where
  registrations : List Registration := []
  diagnostics : List Diagnostic := []
  /-- The implementations that variables wrap. -/
  wrapped : Dictionary RegistrationTarget := []

namespace Findings

/-- Take in a registration. -/
def register (found : Findings) (file : SourceFile) (tagName : String)
    (target : RegistrationTarget) (line : Nat) : Findings :=
  { found with registrations := found.registrations ++ [⟨tagName, target, file.id, line⟩] }

/-- Take in a registration that cannot be read. -/
def refuse (found : Findings) (file : SourceFile) (message : String) (line : Nat) : Findings :=
  { found with
    diagnostics := found.diagnostics ++
      [.warningAt .malformedRegistration message file.shownPath line] }

end Findings

namespace Registration

/-- A function wraps the implementation that is its first argument. -/
def isWrapper (c : Conventions) (callee : Expr) : Bool :=
  match callee.name? with
  | some name => c.isWrapperFactory name
  | none => false

/-- A call registers an element: `customElements.define`, also as a member, or a registration
    function with two arguments. -/
def isCall (c : Conventions) (callee : Expr) (args : List Expr) : Bool :=
  match callee.unwrapped with
  | .member owner "define" =>
    match owner.unwrapped with
    | .ident name => name == "customElements"
    | .member _ name => name == "customElements"
    | _ => false
  | .ident name => c.isRegistrationFunction name && args.length == 2
  | _ => false

mutual

/-- The implementation that an expression stands for: a name, a class, or a call that wraps one. -/
def targetOf? (c : Conventions) : Expr → Option RegistrationTarget
  | .asType inner _ => targetOf? c inner
  | .asConst inner => targetOf? c inner
  | .satisfies inner _ => targetOf? c inner
  | .nonNull inner => targetOf? c inner
  | .paren inner => targetOf? c inner
  | .ident name => some (.named name)
  | .classExpr value => some (.inlineClass value)
  | .call _ callee _ args => if isWrapper c callee then firstTarget? c args else none
  | _ => none

/-- The implementation that the first of some arguments stands for. -/
def firstTarget? (c : Conventions) : List Expr → Option RegistrationTarget
  | [] => none
  | .spread inner :: _ => targetOf? c inner
  | first :: _ => targetOf? c first

end

/-- The implementation that a variable wraps if it holds the value of an expression. -/
def wrappedBy? (c : Conventions) (e : Expr) : Option RegistrationTarget :=
  match e.unwrapped with
  | .call start callee typeArgs args => targetOf? c (.call start callee typeArgs args)
  | _ => none

/-! ## Reading nodes -/

/-- Read a call that registers an element. -/
def readCall (c : Conventions) (file : SourceFile) (found : Findings) (line : Nat)
    (args : List Expr) : Findings :=
  match args.head?.filter (!·.isSpread) |>.bind Expr.string? with
  | none => found.refuse file "registration tag name is not a string literal" line
  | some tag =>
    match args[1]?.filter (!·.isSpread) with
    | none =>
      found.refuse file ("registration of '" ++ tag ++ "' has no implementation argument") line
    | some implementation =>
      match targetOf? c implementation with
      | some target => found.register file tag target line
      | none =>
        found.refuse file
          ("implementation of '" ++ tag ++ "' is neither a name nor a class expression") line

/-- Read one decorator of a class. Options without a tag register nothing. -/
def readDecorator (c : Conventions) (file : SourceFile) (name : String) (found : Findings)
    (d : Decorator) : Findings :=
  match d.name?, d.value with
  | some decoratorName, .call _ _ _ (arg :: _) =>
    if !c.isElementDecorator decoratorName then found
    else
      let value := arg.argument
      match value.entries? with
      | some options =>
        match Property.string? options "tag" with
        | some tag => found.register file tag (.named name) d.start.line
        | none => found
      | none =>
        match value.string? with
        | some tag => found.register file tag (.named name) d.start.line
        | none =>
          found.refuse file ("@" ++ decoratorName ++ " tag name is not a string literal")
            d.start.line
  | _, _ => found

/-- Read the decorators of a class that has a name. -/
def readClass (c : Conventions) (file : SourceFile) (found : Findings) (name : String)
    (value : ClassDef) : Findings :=
  value.decorators.foldl (readDecorator c file name) found

/-- Keep the implementation that a variable wraps. -/
def bindVariable (c : Conventions) (found : Findings) (name : String) (value : Expr) : Findings :=
  match wrappedBy? c value with
  | some target => { found with wrapped := Dictionary.set found.wrapped name target }
  | none => found

/-- Read one node of a file. -/
def readNode (c : Conventions) (file : SourceFile) (found : Findings) : Node → Findings
  | .expr (.call start callee _ args) =>
    if isCall c callee args then readCall c file found start.line args else found
  | .declarator ⟨_, .ident name _, some init⟩ => bindVariable c found name init
  | .expr (.assign (.ident name _) value) => bindVariable c found name value
  | .stmt (.classDecl name value) => readClass c file found name value
  | .stmt (.exportClass _ name value) => readClass c file found (name.getD "default") value
  | _ => found

/-! ## Variables -/

/-- Follow a target through the variables that wrap it. A name that is met again ends the way;
    `fuel` bounds the number of variables. -/
def follow (wrapped : Dictionary RegistrationTarget) : (fuel : Nat) → (seen : List String) →
    RegistrationTarget → RegistrationTarget
  | 0, _, target => target
  | _ + 1, _, .inlineClass value => .inlineClass value
  | fuel + 1, seen, .named name =>
    if seen.contains name then .named name
    else
      match Dictionary.find? wrapped name with
      | some target => follow wrapped fuel (name :: seen) target
      | none => .named name

/-- A registration with its target followed through variables. -/
def settled (wrapped : Dictionary RegistrationTarget) (r : Registration) : Registration :=
  { r with target := follow wrapped (wrapped.length + 1) [] r.target }

/-- The registrations of a file, and the registrations that cannot be read. -/
def ofFile (c : Conventions) (file : SourceFile) : List Registration × List Diagnostic :=
  let found := file.module.nodes.foldl (readNode c file) {}
  (found.registrations.map (settled found.wrapped), found.diagnostics)

end Registration

end ElementCatalog
