import ElementCatalog.Source.Literal
import ElementCatalog.Source.Node

/-!
# Optional calls — calls of methods of objects that may be missing

A call of a method has two optional forms, `a?.b(c)` and `a.b?.(c)`.  Rewriting some calls of a
source into these forms changes neither what literals say nor which parts stand below which: the
route is one equation for each reader (`unwrapped_chained`, `name?_chained`, …) and one for the
parts of a node (`children_chained`).
-/

namespace ElementCatalog.Source

/-- Where the mark of an optional call stands: at the access to the method, or at the call. -/
inductive OptionalMark where
  | access
  | call
deriving DecidableEq, Repr

/-- The optional form of a call of a method: `a?.b(c)` or `a.b?.(c)`.  It is one chain, and an
    access to its result is one to the chain as a whole, as in `(a?.b(c)).d`. -/
def OptionalMark.form (object : Expr) (name : String) (typeArgs : List TypeUse) (args : List Expr) :
    OptionalMark → Expr
  | .access => .optionalChain (.optionalChain [object] [] :: args) typeArgs
  | .call => .optionalChain (.member object name :: args) typeArgs

section Chained

-- The mark that a call gets, if it gets one.
variable (mark? : Expr → Option OptionalMark)

mutual

/-- An expression with the marked calls in it in their optional form. -/
def Expr.chained : Expr → Expr
  | .ident name => .ident name
  | .string value => .string value
  | .number value => .number value
  | .bigint => .bigint
  | .boolean value => .boolean value
  | .null => .null
  | .template pieces substitutions => .template pieces (substitutions.map Expr.chained)
  | .array elements => .array (elements.map Expr.chained)
  | .object properties => .object (properties.map Property.chained)
  | .function value => .function value.chained
  | .arrow params body inner => .arrow (params.map Pattern.chained) (body.map Stmt.chained)
      (inner.map Pattern.chained)
  | .arrowTo params value inner => .arrowTo (params.map Pattern.chained) value.chained
      (inner.map Pattern.chained)
  | .classExpr value => .classExpr value.chained
  | .unary operator operand => .unary operator operand.chained
  | .awaited operand => .awaited operand.chained
  | .operation operands => .operation (operands.map Expr.chained)
  | .assign target value => .assign target.chained value.chained
  | .call start (.member object name) typeArgs args =>
    match mark? (.call start (.member object name) typeArgs args) with
    | some mark =>
      mark.form object.chained name (typeArgs.map TypeUse.chained)
        (args.map Expr.chained)
    | none =>
      .call start (.member object.chained name) (typeArgs.map TypeUse.chained)
        (args.map Expr.chained)
  | .call start callee typeArgs args => .call start callee.chained (typeArgs.map TypeUse.chained)
      (args.map Expr.chained)
  | .new callee typeArgs args => .new callee.chained (typeArgs.map TypeUse.chained)
      (args.map Expr.chained)
  | .member object name => .member object.chained name
  | .access operands => .access (operands.map Expr.chained)
  | .instantiated inner typeArgs => .instantiated inner.chained (typeArgs.map TypeUse.chained)
  | .paren inner => .paren inner.chained
  | .nonNull inner => .nonNull inner.chained
  | .asType inner type => .asType inner.chained type.chained
  | .asConst inner => .asConst inner.chained
  | .satisfies inner type => .satisfies inner.chained type.chained
  | .spread inner => .spread inner.chained
  | .hole => .hole
  | .optionalChain operands typeArgs => .optionalChain (operands.map Expr.chained)
      (typeArgs.map TypeUse.chained)
  | .other operands => .other (operands.map Expr.chained)
termination_by x => sizeOf x

/-- An expression that may be missing, with the marked calls in it in their optional form. -/
def Expr.chained? : Option Expr → Option Expr
  | none => none
  | some e => some e.chained
termination_by x => sizeOf x

/-- A type that may be missing, likewise. -/
def TypeUse.chained? : Option TypeUse → Option TypeUse
  | none => none
  | some type => some type.chained
termination_by x => sizeOf x

/-- A body that may be missing, likewise. -/
def Stmt.chained? : Option (List Stmt) → Option (List Stmt)
  | none => none
  | some stmts => some (stmts.map Stmt.chained)
termination_by x => sizeOf x

/-- An entry of an object literal, likewise. -/
def Property.chained : Property → Property
  | .keyValue key value => .keyValue key.chained value.chained
  | .shorthand name => .shorthand name
  | .withDefault name value => .withDefault name value.chained
  | .method key value => .method key.chained value.chained
  | .accessor key params type body => .accessor key.chained (params.map Pattern.chained)
      (TypeUse.chained? type) (body.map Stmt.chained)
  | .spread value => .spread value.chained
termination_by x => sizeOf x

/-- A key, likewise. -/
def Key.chained : Key → Key
  | .computed start value => .computed start value.chained
  | .ident start name => .ident start name
  | .string start value => .string start value
  | .number start value => .number start value
  | .other start => .other start
termination_by x => sizeOf x

/-- A pattern, likewise. -/
def Pattern.chained : Pattern → Pattern
  | .ident name type => .ident name (TypeUse.chained? type)
  | .array elements type => .array (elements.map Pattern.chained) (TypeUse.chained? type)
  | .object entries type => .object (entries.map Pattern.chained) (TypeUse.chained? type)
  | .withDefault target value => .withDefault target.chained value.chained
  | .rest target type => .rest target.chained (TypeUse.chained? type)
  | .expr value => .expr value.chained
  | .hole => .hole
  | .keyed key target => .keyed key.chained target.chained
  | .shorthand name value => .shorthand name (Expr.chained? value)
  | .decorated decorators target => .decorated (decorators.map Decorator.chained) target.chained
termination_by x => sizeOf x

/-- A type where it is used, likewise; in the type itself there are no calls. -/
def TypeUse.chained : TypeUse → TypeUse
  | ⟨type, inner⟩ => ⟨type, inner.map Pattern.chained⟩
termination_by x => sizeOf x

/-- A type parameter, likewise. -/
def TypeParam.chained : TypeParam → TypeParam
  | ⟨name, default, inner⟩ => ⟨name, default, inner.map Pattern.chained⟩
termination_by x => sizeOf x

/-- An inherited value, likewise. -/
def Heritage.chained : Heritage → Heritage
  | ⟨value, args⟩ => ⟨value.chained, args.map TypeUse.chained⟩
termination_by x => sizeOf x

/-- A decorator, likewise. -/
def Decorator.chained : Decorator → Decorator
  | ⟨start, value⟩ => ⟨start, value.chained⟩
termination_by x => sizeOf x

/-- A function, likewise. -/
def Function.chained : Function → Function
  | ⟨start, params, decorators, body, typeParams, returnType⟩ =>
    ⟨start, params.map Pattern.chained, decorators.map Decorator.chained,
      Stmt.chained? body,
      typeParams.map TypeParam.chained, TypeUse.chained? returnType⟩
termination_by x => sizeOf x

/-- A member of a class, likewise. -/
def ClassMember.chained : ClassMember → ClassMember
  | .field start modifiers decorators key type value =>
    .field start modifiers (decorators.map Decorator.chained) key.chained
      (TypeUse.chained? type) (Expr.chained? value)
  | .accessor start modifiers decorators key type value =>
    .accessor start modifiers (decorators.map Decorator.chained) key.chained
      (TypeUse.chained? type) (Expr.chained? value)
  | .method start modifiers kind key value => .method start modifiers kind key.chained value.chained
  | .initializer start params body => .initializer start (params.map Pattern.chained)
      (Stmt.chained? body)
  | .staticBlock start body => .staticBlock start (body.map Stmt.chained)
  | .other start inner => .other start (inner.map Pattern.chained)
termination_by x => sizeOf x

/-- A class, likewise. -/
def ClassDef.chained : ClassDef → ClassDef
  | ⟨start, decorators, params, superClass, superArgs, implemented, members⟩ =>
    ⟨start, decorators.map Decorator.chained, params.map TypeParam.chained,
      Expr.chained? superClass, superArgs.map TypeUse.chained,
      implemented.map Heritage.chained, members.map ClassMember.chained⟩
termination_by x => sizeOf x

/-- A variable, likewise. -/
def Declarator.chained : Declarator → Declarator
  | ⟨start, target, init⟩ => ⟨start, target.chained, Expr.chained? init⟩
termination_by x => sizeOf x

/-- A member of an enumeration, likewise. -/
def EnumMember.chained : EnumMember → EnumMember
  | ⟨name, init⟩ => ⟨name, Expr.chained? init⟩
termination_by x => sizeOf x

/-- The declaration of an interface, likewise. -/
def InterfaceDecl.chained : InterfaceDecl → InterfaceDecl
  | ⟨start, name, params, parents, members, inner⟩ =>
    ⟨start, name, params.map TypeParam.chained, parents.map Heritage.chained,
      members, inner.map Pattern.chained⟩
termination_by x => sizeOf x

/-- The declaration of a type alias, likewise. -/
def AliasDecl.chained : AliasDecl → AliasDecl
  | ⟨start, name, params, type⟩ =>
    ⟨start, name, params.map TypeParam.chained, type.chained⟩
termination_by x => sizeOf x

/-- A statement, likewise. -/
def Stmt.chained : Stmt → Stmt
  | .expr value => .expr value.chained
  | .returned value => .returned (Expr.chained? value)
  | .classDecl name value => .classDecl name value.chained
  | .functionDecl name value => .functionDecl name value.chained
  | .variableDecl start declarators => .variableDecl start (declarators.map Declarator.chained)
  | .resources declarators => .resources (declarators.map Declarator.chained)
  | .interfaceDecl value => .interfaceDecl value.chained
  | .aliasDecl value => .aliasDecl value.chained
  | .enumDecl start name members => .enumDecl start name (members.map EnumMember.chained)
  | .namespaceDecl body => .namespaceDecl (body.map Stmt.chained)
  | .importFrom specifiers source attributes =>
    .importFrom specifiers source (Expr.chained? attributes)
  | .exported start decl => .exported start decl.chained
  | .exportClass start name value => .exportClass start name value.chained
  | .exportFunction start name value => .exportFunction start name value.chained
  | .exportInterface start value => .exportInterface start value.chained
  | .exportValue start value => .exportValue start value.chained
  | .exportNames specifiers source attributes =>
    .exportNames specifiers source (Expr.chained? attributes)
  | .exportAll source attributes => .exportAll source (Expr.chained? attributes)
  | .target value => .target value.chained
  | .other parts => .other (parts.map Stmt.chained)
termination_by x => sizeOf x

end

/-- A part of a source with the marked calls in it in their optional form. -/
def Node.chained : Node → Node
  | .expr value => .expr (value.chained mark?)
  | .property value => .property (value.chained mark?)
  | .key value => .key (value.chained mark?)
  | .pattern value => .pattern (value.chained mark?)
  | .typeUse value => .typeUse (value.chained mark?)
  | .typeParam value => .typeParam (value.chained mark?)
  | .heritage value => .heritage (value.chained mark?)
  | .decorator value => .decorator (value.chained mark?)
  | .function value => .function (value.chained mark?)
  | .classNode value => .classNode (value.chained mark?)
  | .member value => .member (value.chained mark?)
  | .declarator value => .declarator (value.chained mark?)
  | .enumMember value => .enumMember (value.chained mark?)
  | .interfaceDecl value => .interfaceDecl (value.chained mark?)
  | .aliasDecl value => .aliasDecl (value.chained mark?)
  | .stmt value => .stmt (value.chained mark?)

/-- A call is rewritten: it is a call of a method, and it gets a mark. -/
def Expr.isMarked (e : Expr) : Bool :=
  match e with
  | .call _ (.member _ _) _ _ => (mark? e).isSome
  | _ => false

/-! ## Calls -/

/-- A call stays a call exactly if it is not marked; if it is, it becomes a chain that starts with
    the access to the method or with its optional form. -/
theorem Expr.chained_call_cases (start : Position) (callee : Expr) (typeArgs : List TypeUse)
    (args : List Expr) :
    ((Expr.call start callee typeArgs args).isMarked mark? = false ∧
      (Expr.call start callee typeArgs args).chained mark? =
        .call start (callee.chained mark?) (typeArgs.map (TypeUse.chained mark?))
          (args.map (Expr.chained mark?))) ∨
    (Expr.call start callee typeArgs args).isMarked mark? = true ∧
      ∃ first object, (Expr.call start callee typeArgs args).chained mark? =
          .optionalChain (first :: args.map (Expr.chained mark?))
            (typeArgs.map (TypeUse.chained mark?)) ∧
        (∃ name, callee.chained mark? = .member object name) ∧
        (first = callee.chained mark? ∨ first = .optionalChain [object] []) := by
  cases callee with
  | member object name =>
      rw [isMarked, Expr.chained]
      cases mark? (.call start (.member object name) typeArgs args) with
      | none => exact Or.inl ⟨rfl, by rw [Expr.chained]⟩
      | some mark =>
          refine Or.inr ⟨rfl, ?_⟩
          cases mark with
          | access => exact ⟨_, _, rfl, ⟨name, by rw [Expr.chained]⟩, Or.inr rfl⟩
          | call => exact ⟨_, _, rfl, ⟨name, by rw [Expr.chained]⟩, Or.inl (by rw [Expr.chained])⟩
  | _ => exact Or.inl ⟨rfl, by simp only [Expr.chained]⟩

/-! ## Parts that may be missing -/

/-- Rewriting keeps whether an expression is missing. -/
theorem Expr.chained?_eq (e : Option Expr) :
    Expr.chained? mark? e = e.map (Expr.chained mark?) := by
  cases e <;> rw [Expr.chained?] <;> rfl

/-- Rewriting keeps whether a type is missing. -/
theorem TypeUse.chained?_eq (type : Option TypeUse) :
    TypeUse.chained? mark? type = type.map (TypeUse.chained mark?) := by
  cases type <;> rw [TypeUse.chained?] <;> rfl

/-- Rewriting keeps whether a body is missing. -/
theorem Stmt.chained?_eq (body : Option (List Stmt)) :
    Stmt.chained? mark? body = body.map (List.map (Stmt.chained mark?)) := by
  cases body <;> rw [Stmt.chained?] <;> rfl

/-! ## Readings -/

variable {mark?}

/-- What is inside type assertions and parentheses is rewritten in place. -/
theorem Expr.unwrapped_chained (e : Expr) :
    (e.chained mark?).unwrapped = e.unwrapped.chained mark? := by
  match e with
  | .asType inner type | .satisfies inner type =>
      rw [Expr.chained]
      exact unwrapped_chained inner
  | .asConst inner | .nonNull inner | .paren inner =>
      rw [Expr.chained]
      exact unwrapped_chained inner
  | .call start callee typeArgs args =>
      rcases Expr.chained_call_cases mark? start callee typeArgs args with
        ⟨-, h⟩ | ⟨-, first, object, h, -⟩ <;>
      · rw [h]
        exact h.symm
  | .ident _ | .string _ | .number _ | .bigint | .boolean _ | .null | .template _ _ | .array _
  | .object _ | .function _ | .arrow _ _ _ | .arrowTo _ _ _ | .classExpr _ | .unary _ _
  | .awaited _ | .operation _ | .assign _ _ | .new _ _ _ | .member _ _
  | .access _ | .instantiated _ _ | .spread _ | .hole | .optionalChain _ _ | .other _ =>
      simp only [Expr.chained, Expr.unwrapped]

/-- The text of a literal is kept. -/
theorem Expr.string?_chained (e : Expr) : (e.chained mark?).string? = e.string? := by
  rw [string?, string?, unwrapped_chained]
  cases e.unwrapped with
  | call start callee typeArgs args =>
      rcases chained_call_cases mark? start callee typeArgs args with
        ⟨-, h⟩ | ⟨-, first, object, h, -⟩ <;> rw [h]
  | template pieces substitutions =>
      rw [Expr.chained]
      cases substitutions <;> rfl
  | _ => simp only [Expr.chained]

/-- A truth value is kept. -/
theorem Expr.bool?_chained (e : Expr) : (e.chained mark?).bool? = e.bool? := by
  rw [bool?, bool?, unwrapped_chained]
  cases e.unwrapped with
  | call start callee typeArgs args =>
      rcases chained_call_cases mark? start callee typeArgs args with
        ⟨-, h⟩ | ⟨-, first, object, h, -⟩ <;> rw [h]
  | _ => simp only [Expr.chained]

/-- The name of a value is kept. -/
theorem Expr.name?_chained (e : Expr) : (e.chained mark?).name? = e.name? := by
  rw [name?, name?, unwrapped_chained]
  cases e.unwrapped with
  | call start callee typeArgs args =>
      rcases chained_call_cases mark? start callee typeArgs args with
        ⟨-, h⟩ | ⟨-, first, object, h, -⟩ <;> rw [h]
  | _ => simp only [Expr.chained]

/-- The entries of an object literal are rewritten one by one. -/
theorem Expr.entries?_chained (e : Expr) :
    (e.chained mark?).entries? = e.entries?.map (List.map (Property.chained mark?)) := by
  rw [entries?, entries?, unwrapped_chained]
  cases e.unwrapped with
  | call start callee typeArgs args =>
      rcases chained_call_cases mark? start callee typeArgs args with
        ⟨-, h⟩ | ⟨-, first, object, h, -⟩ <;> rw [h] <;> rfl
  | _ => simp only [Expr.chained, Option.map_some, Option.map_none]

/-- The expression of an argument is rewritten in place. -/
theorem Expr.argument_chained (e : Expr) :
    (e.chained mark?).argument = e.argument.chained mark? := by
  cases e with
  | call start callee typeArgs args =>
      rcases chained_call_cases mark? start callee typeArgs args with
        ⟨-, h⟩ | ⟨-, first, object, h, -⟩ <;>
      · rw [h]
        exact h.symm
  | _ => simp only [Expr.chained, Expr.argument]

/-- A key keeps its place. -/
theorem Key.start_chained (k : Key) : (k.chained mark?).start = k.start := by
  cases k <;> simp only [Key.chained, Key.start]

/-- A key keeps its name. -/
theorem Key.name?_chained (k : Key) : (k.chained mark?).name? = k.name? := by
  cases k <;> simp only [Key.chained, Key.name?]

/-- The value of an entry is rewritten in place. -/
theorem Property.value?_chained (properties : List Property) (name : String) :
    value? (properties.map (Property.chained mark?)) name =
      (value? properties name).map (Expr.chained mark?) := by
  induction properties with
  | nil => rfl
  | cons property rest ih =>
      rw [value?] at ih
      rw [value?, value?, List.map_cons, List.findSome?_cons, List.findSome?_cons, ih]
      cases property with
      | keyValue key value =>
          simp only [Property.chained, Key.name?_chained]
          by_cases h : key.name? = some name
          · simp only [h, if_pos, Option.map_some]
          · simp only [h, if_false]
            rfl
      | _ => simp only [Property.chained]; rfl

/-- The truth value of an entry is kept. -/
theorem Property.bool?_chained (properties : List Property) (name : String) :
    bool? (properties.map (Property.chained mark?)) name = bool? properties name := by
  rw [bool?, bool?, value?_chained, Option.bind_map]
  congr 1
  exact funext Expr.bool?_chained

/-- Entries keep their names. -/
theorem Property.has_chained (properties : List Property) (name : String) :
    has (properties.map (Property.chained mark?)) name = has properties name := by
  rw [has, has, List.any_map]
  congr 1
  funext property
  cases property <;> simp only [Property.chained, Key.name?_chained, Function.comp_apply]

/-- A pattern keeps what stands behind its decorators. -/
theorem Pattern.undecorated_chained (p : Pattern) :
    (p.chained mark?).undecorated = p.undecorated.chained mark? := by
  cases p <;> simp only [Pattern.chained, Pattern.undecorated]

/-! ## Parts of a node -/

/-- The parts of an expression are rewritten one by one, unless it is a call. -/
theorem Expr.children_chained (e : Expr)
    (h : ∀ start callee typeArgs args, e ≠ .call start callee typeArgs args) :
    (e.chained mark?).children = e.children.map (Node.chained mark?) := by
  cases e with
  | call => exact absurd rfl (h _ _ _ _)
  | _ => simp [Expr.chained, Expr.children, Node.chained, Function.comp_def]

/-- The parts of an entry of an object literal are rewritten one by one. -/
theorem Property.children_chained (p : Property) :
    (p.chained mark?).children = p.children.map (Node.chained mark?) := by
  cases p with
  | accessor key params type body =>
      rw [Property.chained, TypeUse.chained?_eq]
      cases type <;> simp [Property.children, Node.chained, Function.comp_def]
  | _ => simp [Property.chained, Property.children, Node.chained]

/-- The parts of a key are rewritten one by one. -/
theorem Key.children_chained (k : Key) :
    (k.chained mark?).children = k.children.map (Node.chained mark?) := by
  cases k <;> simp [Key.chained, Key.children, Node.chained]

/-- The parts of a pattern are rewritten one by one. -/
theorem Pattern.children_chained (p : Pattern) :
    (p.chained mark?).children = p.children.map (Node.chained mark?) := by
  cases p with
  | ident _ type | array _ type | object _ type | rest _ type =>
      rw [Pattern.chained, TypeUse.chained?_eq]
      cases type <;> simp [Pattern.children, Node.chained, Function.comp_def]
  | shorthand name value =>
      rw [Pattern.chained, Expr.chained?_eq]
      cases value <;> simp [Pattern.children, Node.chained]
  | _ => simp [Pattern.chained, Pattern.children, Node.chained, Function.comp_def]

/-- The parts of a function are rewritten one by one. -/
theorem Function.children_chained (f : Function) :
    (f.chained mark?).children = f.children.map (Node.chained mark?) := by
  obtain ⟨start, params, decorators, body, typeParams, returnType⟩ := f
  rw [Function.chained, Stmt.chained?_eq, TypeUse.chained?_eq]
  cases body <;> cases returnType <;> simp [Function.children, Node.chained, Function.comp_def]

/-- The parts of a class are rewritten one by one. -/
theorem ClassDef.children_chained (k : ClassDef) :
    (k.chained mark?).children = k.children.map (Node.chained mark?) := by
  obtain ⟨start, decorators, params, superClass, superArgs, implemented, members⟩ := k
  rw [ClassDef.chained, Expr.chained?_eq]
  cases superClass <;> simp [ClassDef.children, Node.chained, Function.comp_def]

/-- The parts of a member of a class are rewritten one by one. -/
theorem ClassMember.children_chained (m : ClassMember) :
    (m.chained mark?).children = m.children.map (Node.chained mark?) := by
  cases m with
  | field _ _ _ _ type value | accessor _ _ _ _ type value =>
      rw [ClassMember.chained, TypeUse.chained?_eq, Expr.chained?_eq]
      cases type <;> cases value <;>
        simp [ClassMember.children, Node.chained, Function.comp_def]
  | initializer _ _ body =>
      rw [ClassMember.chained, Stmt.chained?_eq]
      cases body <;> simp [ClassMember.children, Node.chained, Function.comp_def]
  | _ => simp [ClassMember.chained, ClassMember.children, Node.chained, Function.comp_def]

/-- The parts of an interface are rewritten one by one. -/
theorem InterfaceDecl.children_chained (d : InterfaceDecl) :
    (d.chained mark?).children = d.children.map (Node.chained mark?) := by
  cases d
  simp [InterfaceDecl.chained, InterfaceDecl.children, Node.chained, Function.comp_def]

/-- The parts of a statement are rewritten one by one. -/
theorem Stmt.children_chained (s : Stmt) :
    (s.chained mark?).children = s.children.map (Node.chained mark?) := by
  cases s with
  | returned value =>
      rw [Stmt.chained, Expr.chained?_eq]
      cases value <;> simp [Stmt.children, Node.chained]
  | importFrom _ _ attributes | exportNames _ _ attributes | exportAll _ attributes =>
      rw [Stmt.chained, Expr.chained?_eq]
      cases attributes <;> simp [Stmt.children, Node.chained]
  | _ => simp [Stmt.chained, Stmt.children, Node.chained, Function.comp_def]

/-- The parts of a node are rewritten one by one, unless the node is a call. -/
theorem Node.children_chained (n : Node)
    (h : ∀ start callee typeArgs args, n ≠ .expr (.call start callee typeArgs args)) :
    (n.chained mark?).children = n.children.map (Node.chained mark?) := by
  cases n with
  | expr e => exact e.children_chained fun _ _ _ _ heq => h _ _ _ _ (congrArg Node.expr heq)
  | property p => exact p.children_chained
  | key k => exact k.children_chained
  | pattern p => exact p.children_chained
  | function f => exact f.children_chained
  | classNode k => exact k.children_chained
  | member m => exact m.children_chained
  | interfaceDecl d => exact d.children_chained
  | stmt s => exact s.children_chained
  | declarator d =>
      obtain ⟨start, target, init⟩ := d
      rw [Node.chained, Declarator.chained, Expr.chained?_eq]
      cases init <;> simp [Node.children, Node.chained]
  | enumMember m =>
      obtain ⟨name, init⟩ := m
      rw [Node.chained, EnumMember.chained, Expr.chained?_eq]
      cases init <;> simp [Node.children, Node.chained]
  | typeUse a =>
      cases a
      simp [Node.chained, Node.children, TypeUse.chained, Function.comp_def]
  | typeParam p =>
      cases p
      simp [Node.chained, Node.children, TypeParam.chained, Function.comp_def]
  | heritage a =>
      cases a
      simp [Node.chained, Node.children, Heritage.chained, Function.comp_def]
  | decorator d =>
      cases d
      simp [Node.chained, Node.children, Decorator.chained]
  | aliasDecl d =>
      cases d
      simp [Node.chained, Node.children, AliasDecl.chained, Function.comp_def]

end Chained

end ElementCatalog.Source
