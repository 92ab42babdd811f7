import ElementCatalog.Source.Tree

/-!
# Nodes — every part of a source, outermost first

A node is any part of a module that can hold expressions. Its children stand in the order in which
readers visit them, and the nodes below it are listed in pre-order: a part comes before everything
inside it. Of a type only what it holds beside types is visited.
-/

namespace ElementCatalog.Source

/-- A part of a module. -/
inductive Node where
  | expr (value : Expr)
  | property (value : Property)
  | key (value : Key)
  | pattern (value : Pattern)
  | typeUse (value : TypeUse)
  | typeParam (value : TypeParam)
  | heritage (value : Heritage)
  | decorator (value : Decorator)
  | function (value : Function)
  | classNode (value : ClassDef)
  | member (value : ClassMember)
  | declarator (value : Declarator)
  | enumMember (value : EnumMember)
  | interfaceDecl (value : InterfaceDecl)
  | aliasDecl (value : AliasDecl)
  | stmt (value : Stmt)

/-- The parts of an expression. -/
def Expr.children : Expr → List Node
  | .ident _ => []
  | .string _ => []
  | .number _ => []
  | .bigint => []
  | .boolean _ => []
  | .null => []
  | .template _ substitutions => substitutions.map .expr
  | .array elements => elements.map .expr
  | .object properties => properties.map .property
  | .function value => [.function value]
  | .arrow params body inner => params.map .pattern ++ body.map .stmt ++ inner.map .pattern
  | .arrowTo params value inner => params.map .pattern ++ .expr value :: inner.map .pattern
  | .classExpr value => [.classNode value]
  | .unary _ operand => [.expr operand]
  | .awaited operand => [.expr operand]
  | .operation operands => operands.map .expr
  | .assign target value => [.pattern target, .expr value]
  | .call _ callee typeArgs args => .expr callee :: (args.map .expr ++ typeArgs.map .typeUse)
  | .new callee typeArgs args => .expr callee :: (args.map .expr ++ typeArgs.map .typeUse)
  | .member inner _ => [.expr inner]
  | .access operands => operands.map .expr
  | .instantiated inner typeArgs => .expr inner :: typeArgs.map .typeUse
  | .paren inner => [.expr inner]
  | .nonNull inner => [.expr inner]
  | .asType inner type => [.expr inner, .typeUse type]
  | .asConst inner => [.expr inner]
  | .satisfies inner type => [.expr inner, .typeUse type]
  | .spread inner => [.expr inner]
  | .hole => []
  | .optionalChain operands typeArgs => operands.map .expr ++ typeArgs.map .typeUse
  | .other operands => operands.map .expr

/-- The parts of an entry of an object literal. -/
def Property.children : Property → List Node
  | .keyValue key value => [.key key, .expr value]
  | .shorthand _ => []
  | .withDefault _ value => [.expr value]
  | .method key value => [.key key, .function value]
  | .accessor key params type body =>
    .key key :: (params.map .pattern ++ type.toList.map .typeUse ++ body.map .stmt)
  | .spread value => [.expr value]

/-- The parts of a key. -/
def Key.children : Key → List Node
  | .computed _ value => [.expr value]
  | .ident _ _ => []
  | .string _ _ => []
  | .number _ _ => []
  | .other _ => []

/-- The parts of a pattern. -/
def Pattern.children : Pattern → List Node
  | .ident _ type => type.toList.map .typeUse
  | .array elements type => elements.map .pattern ++ type.toList.map .typeUse
  | .object entries type => entries.map .pattern ++ type.toList.map .typeUse
  | .withDefault target value => [.pattern target, .expr value]
  | .rest target type => .pattern target :: type.toList.map .typeUse
  | .expr value => [.expr value]
  | .hole => []
  | .keyed key target => [.key key, .pattern target]
  | .shorthand _ value => value.toList.map .expr
  | .decorated decorators target => decorators.map .decorator ++ [.pattern target]

/-- The parts of a function. -/
def Function.children : Function → List Node
  | ⟨_, params, decorators, body, typeParams, returnType⟩ =>
    params.map .pattern ++ decorators.map .decorator ++ (body.getD []).map .stmt ++
      typeParams.map .typeParam ++ returnType.toList.map .typeUse

/-- The parts of a class. -/
def ClassDef.children : ClassDef → List Node
  | ⟨_, decorators, params, superClass, superArgs, implemented, members⟩ =>
    decorators.map .decorator ++ members.map .member ++ superClass.toList.map .expr ++
      params.map .typeParam ++ superArgs.map .typeUse ++ implemented.map .heritage

/-- The parts of a member of a class. -/
def ClassMember.children : ClassMember → List Node
  | .field _ _ decorators key type value =>
    .key key :: (value.toList.map .expr ++ type.toList.map .typeUse ++
      decorators.map .decorator)
  | .accessor _ _ decorators key type value =>
    .key key :: (value.toList.map .expr ++ type.toList.map .typeUse ++
      decorators.map .decorator)
  | .method _ _ _ key value => [.key key, .function value]
  | .initializer _ params body => params.map .pattern ++ (body.getD []).map .stmt
  | .staticBlock _ body => body.map .stmt
  | .other _ inner => inner.map .pattern

/-- The parts of an interface. -/
def InterfaceDecl.children : InterfaceDecl → List Node
  | ⟨_, _, params, parents, _, inner⟩ =>
    params.map .typeParam ++ parents.map .heritage ++ inner.map .pattern

/-- The parts of a statement. -/
def Stmt.children : Stmt → List Node
  | .expr value => [.expr value]
  | .returned value => value.toList.map .expr
  | .classDecl _ value => [.classNode value]
  | .functionDecl _ value => [.function value]
  | .variableDecl _ declarators => declarators.map .declarator
  | .resources declarators => declarators.map .declarator
  | .interfaceDecl value => [.interfaceDecl value]
  | .aliasDecl value => [.aliasDecl value]
  | .enumDecl _ _ members => members.map .enumMember
  | .namespaceDecl body => body.map .stmt
  | .importFrom _ _ attributes => attributes.toList.map .expr
  | .exported _ decl => [.stmt decl]
  | .exportClass _ _ value => [.classNode value]
  | .exportFunction _ _ value => [.function value]
  | .exportInterface _ value => [.interfaceDecl value]
  | .exportValue _ value => [.expr value]
  | .exportNames _ _ attributes => attributes.toList.map .expr
  | .exportAll _ attributes => attributes.toList.map .expr
  | .target value => [.pattern value]
  | .other parts => parts.map .stmt

namespace Node

/-- The parts of a node, in the order in which they are visited. -/
def children : Node → List Node
  | .expr value => value.children
  | .property value => value.children
  | .key value => value.children
  | .pattern value => value.children
  | .typeUse ⟨_, inner⟩ => inner.map .pattern
  | .typeParam ⟨_, _, inner⟩ => inner.map .pattern
  | .heritage ⟨value, args⟩ => .expr value :: args.map .typeUse
  | .decorator ⟨_, value⟩ => [.expr value]
  | .function value => value.children
  | .classNode value => value.children
  | .member value => value.children
  | .declarator ⟨_, target, init⟩ => .pattern target :: init.toList.map .expr
  | .enumMember ⟨_, init⟩ => init.toList.map .expr
  | .interfaceDecl value => value.children
  | .aliasDecl ⟨_, _, params, type⟩ => params.map .typeParam ++ [.typeUse type]
  | .stmt value => value.children

/-! ## Sizes -/

/-- All of some nodes are smaller than a bound. -/
def AllSmaller (bound : Nat) (nodes : List Node) : Prop :=
  ∀ n ∈ nodes, sizeOf n < bound

namespace AllSmaller

variable {bound : Nat}

@[simp]
theorem nil : AllSmaller bound [] :=
  List.forall_mem_nil _

@[simp]
theorem cons_iff {n : Node} {rest : List Node} :
    AllSmaller bound (n :: rest) ↔ sizeOf n < bound ∧ AllSmaller bound rest :=
  List.forall_mem_cons

@[simp]
theorem append_iff {before after : List Node} :
    AllSmaller bound (before ++ after) ↔ AllSmaller bound before ∧ AllSmaller bound after :=
  List.forall_mem_append

variable {α : Type} [SizeOf α] {part : α → Node}

/-- Parts of one kind are no larger than a list of them. -/
theorem map (hpart : ∀ a, sizeOf (part a) = 1 + sizeOf a) {parts : List α}
    (h : sizeOf parts < bound) : AllSmaller bound (parts.map part) := by
  intro n hn
  obtain ⟨a, ha, rfl⟩ := List.mem_map.mp hn
  have hsmaller := List.sizeOf_lt_of_mem ha
  rw [hpart]
  omega

/-- A part is no larger than the choice of having one. -/
theorem toList (hpart : ∀ a, sizeOf (part a) = 1 + sizeOf a) {choice : Option α}
    (h : sizeOf choice < bound) : AllSmaller bound (choice.toList.map part) := by
  cases choice with
  | none => exact nil
  | some a =>
      rw [Option.some.sizeOf_spec, ← hpart] at h
      exact List.forall_mem_singleton.mpr h

/-- Statements are no larger than the choice of having a body of them. -/
theorem body {choice : Option (List Stmt)} (h : sizeOf choice < bound) :
    AllSmaller bound ((choice.getD []).map .stmt) := by
  cases choice with
  | none => exact nil
  | some statements =>
      rw [Option.some.sizeOf_spec] at h
      exact map stmt.sizeOf_spec (Nat.lt_of_le_of_lt (Nat.le_add_left _ _) h)

/-- The parts of an expression. -/
theorem expr_children (e : Expr) : AllSmaller (1 + sizeOf e) e.children := by
  cases e <;> simp +arith (disch := omega) [Expr.children, map expr.sizeOf_spec,
    map stmt.sizeOf_spec, map property.sizeOf_spec, map pattern.sizeOf_spec,
    map typeUse.sizeOf_spec]

/-- The parts of a pattern. -/
theorem pattern_children (p : Pattern) : AllSmaller (1 + sizeOf p) p.children := by
  cases p <;> simp +arith (disch := omega) [Pattern.children, map pattern.sizeOf_spec,
    map decorator.sizeOf_spec, toList expr.sizeOf_spec, toList typeUse.sizeOf_spec]

/-- The parts of an entry of an object literal. -/
theorem property_children (p : Property) : AllSmaller (1 + sizeOf p) p.children := by
  cases p <;> simp +arith (disch := omega) [Property.children, map pattern.sizeOf_spec,
    map stmt.sizeOf_spec, toList typeUse.sizeOf_spec]

/-- The parts of a key. -/
theorem key_children (k : Key) : AllSmaller (1 + sizeOf k) k.children := by
  cases k <;> simp +arith [Key.children]

/-- The parts of a function. -/
theorem function_children (f : Function) : AllSmaller (1 + sizeOf f) f.children := by
  cases f
  simp +arith (disch := omega) [Function.children, map pattern.sizeOf_spec,
    map decorator.sizeOf_spec, body, map typeParam.sizeOf_spec, toList typeUse.sizeOf_spec]

/-- The parts of a class. -/
theorem class_children (k : ClassDef) : AllSmaller (1 + sizeOf k) k.children := by
  cases k
  simp +arith (disch := omega) [ClassDef.children, map decorator.sizeOf_spec,
    map member.sizeOf_spec, toList expr.sizeOf_spec, map typeParam.sizeOf_spec,
    map typeUse.sizeOf_spec, map heritage.sizeOf_spec]

/-- The parts of a member of a class. -/
theorem member_children (m : ClassMember) : AllSmaller (1 + sizeOf m) m.children := by
  cases m <;> simp +arith (disch := omega) [ClassMember.children, toList expr.sizeOf_spec,
    toList typeUse.sizeOf_spec, map decorator.sizeOf_spec, map pattern.sizeOf_spec, body,
    map stmt.sizeOf_spec]

/-- The parts of an interface. -/
theorem interface_children (d : InterfaceDecl) : AllSmaller (1 + sizeOf d) d.children := by
  cases d
  simp +arith (disch := omega) [InterfaceDecl.children, map typeParam.sizeOf_spec,
    map heritage.sizeOf_spec, map pattern.sizeOf_spec]

/-- The parts of a statement. -/
theorem stmt_children (s : Stmt) : AllSmaller (1 + sizeOf s) s.children := by
  cases s <;> simp +arith (disch := omega) [Stmt.children, toList expr.sizeOf_spec,
    map declarator.sizeOf_spec, map enumMember.sizeOf_spec, map stmt.sizeOf_spec]

end AllSmaller

/-- Every part of a node is smaller than the node. -/
theorem sizeOf_lt_of_mem (n : Node) : ∀ c ∈ n.children, sizeOf c < sizeOf n := by
  show AllSmaller (sizeOf n) n.children
  cases n with
  | expr e => simpa [children] using AllSmaller.expr_children e
  | property p => simpa [children] using AllSmaller.property_children p
  | key k => simpa [children] using AllSmaller.key_children k
  | pattern p => simpa [children] using AllSmaller.pattern_children p
  | typeUse a =>
    cases a
    simp +arith (disch := omega) [children, AllSmaller.map pattern.sizeOf_spec]
  | typeParam p =>
    cases p
    simp +arith (disch := omega) [children, AllSmaller.map pattern.sizeOf_spec]
  | heritage h =>
    cases h
    simp +arith (disch := omega) [children, AllSmaller.map typeUse.sizeOf_spec]
  | decorator d =>
    cases d
    simp +arith [children]
  | function f => simpa [children] using AllSmaller.function_children f
  | classNode k => simpa [children] using AllSmaller.class_children k
  | member m => simpa [children] using AllSmaller.member_children m
  | declarator d =>
    cases d
    simp +arith (disch := omega) [children, AllSmaller.toList expr.sizeOf_spec]
  | enumMember m =>
    cases m
    simp +arith (disch := omega) [children, AllSmaller.toList expr.sizeOf_spec]
  | interfaceDecl d => simpa [children] using AllSmaller.interface_children d
  | aliasDecl d =>
    cases d
    simp +arith (disch := omega) [children, AllSmaller.map typeParam.sizeOf_spec]
  | stmt s => simpa [children] using AllSmaller.stmt_children s

/-! ## Pre-order -/

/-- A node and all nodes below it, outermost first and in the order of visits. -/
def preorder (n : Node) : List Node :=
  n :: n.children.attach.flatMap fun ⟨c, _⟩ => preorder c
termination_by sizeOf n
decreasing_by exact sizeOf_lt_of_mem n c ‹_›

/-- The nodes below a node are those of its parts, one part after another. -/
theorem preorder_eq (n : Node) : n.preorder = n :: n.children.flatMap preorder := by
  rw [preorder]
  simp

end Node

/-- All nodes of a module. -/
def Module.nodes (m : Module) : List Node :=
  m.items.flatMap fun item => (Node.stmt item).preorder

end ElementCatalog.Source
