import ElementCatalog.Proofs.CatalogAssembly
import ElementCatalog.Proofs.ExportSearch
import Mathlib.Data.Finset.Card

/-!
# Wrapped implementations — wrappers inside a registration and behind a variable

An element is registered as `define(tag, w(e))`, or as `define(tag, W)` after `const W = w(e)`.
Toward: both yield the same component if calls of wrapper factories lead from `w(e)` to a name or a
class; if they lead to anything else, the first form yields nothing, and the second one yields what
the value of the variable shows.  The route:

* what an expression stands for is where calls of wrapper factories lead (`targetOf?_eq_some_iff`);
* the last node that gives a variable a value counts (`find?_bindings`), so a variable that is bound
  once wraps what its value stands for;
* following targets does not depend on the bound, as long as it exceeds the number of variables that
  are left (`follow_succ`), nor on a name that is never met (`follow_congr`);
* a name whose variable wraps no target is looked up as a value, and leads to that variable itself
  (`surfaceOf_variable`).
-/

namespace ElementCatalog

open Source (Expr Node Pattern Position Stmt TypeUse)

namespace Source

/-! ## Nodes -/

/-- The variable that a node gives a value, with this value. -/
def Node.binding? : Node → Option (String × Expr)
  | .declarator ⟨_, .ident name _, some init⟩ => some (name, init)
  | .expr (.assign (.ident name _) value) => some (name, value)
  | _ => none

/-- Under the notes on types there are no more of them. -/
theorem Expr.unwrapped_unwrapped (e : Expr) : e.unwrapped.unwrapped = e.unwrapped := by
  cases e with
  | asType inner type | satisfies inner type => exact unwrapped_unwrapped inner
  | asConst inner | nonNull inner | paren inner => exact unwrapped_unwrapped inner
  | _ => rfl

end Source

namespace Registration

variable {c : Conventions} {file : SourceFile}

/-! ## What an expression stands for -/

/-- Notes on types change nothing. -/
theorem targetOf?_unwrapped (e : Expr) : targetOf? c e.unwrapped = targetOf? c e := by
  cases e with
  | asType inner type | satisfies inner type => exact targetOf?_unwrapped inner
  | asConst inner | nonNull inner | paren inner => exact targetOf?_unwrapped inner
  | _ => rfl

/-- The first argument counts, whether it is spread or not. -/
theorem firstTarget?_cons (first : Expr) (rest : List Expr) :
    firstTarget? c (first :: rest) = targetOf? c first.argument := by
  cases first <;> rfl

/-- A call of a wrapper factory stands for what its first argument stands for. -/
theorem targetOf?_call {e callee : Expr} {start : Position} {typeArgs : List TypeUse}
    {args : List Expr} (h : e.unwrapped = .call start callee typeArgs args) :
    targetOf? c e = if isWrapper c callee then firstTarget? c args else none := by
  rw [← targetOf?_unwrapped, h]
  rfl

/-- What a variable wraps is what its value stands for. -/
theorem targetOf?_of_wrappedBy? {e : Expr} {target : RegistrationTarget}
    (h : wrappedBy? c e = some target) : targetOf? c e = some target := by
  rw [wrappedBy?] at h
  rw [← targetOf?_unwrapped]
  split at h
  · next heq =>
      rw [heq]
      exact h
  · cases h

/-- A variable wraps what the call that is its value stands for. -/
theorem wrappedBy?_call {e callee : Expr} {start : Position} {typeArgs : List TypeUse}
    {args : List Expr} (h : e.unwrapped = .call start callee typeArgs args) :
    wrappedBy? c e = targetOf? c e := by
  rw [wrappedBy?, h, ← targetOf?_unwrapped e, h]

/-- Calls of wrapper factories lead from an expression to a name or a class. -/
inductive StandsFor (c : Conventions) : Expr → RegistrationTarget → Prop where
  | name {e : Expr} {name : String} (h : e.unwrapped = .ident name) :
    StandsFor c e (.named name)
  | inlineClass {e : Expr} {value : Source.ClassDef} (h : e.unwrapped = .classExpr value) :
    StandsFor c e (.inlineClass value)
  | call {e callee first : Expr} {start : Position} {typeArgs : List TypeUse} {rest : List Expr}
    {target : RegistrationTarget} (h : e.unwrapped = .call start callee typeArgs (first :: rest))
    (hcallee : isWrapper c callee = true) (hfirst : StandsFor c first.argument target) :
    StandsFor c e target

/-- Notes on types around an expression change nothing. -/
theorem StandsFor.of_unwrapped_eq {e inner : Expr} {target : RegistrationTarget}
    (h : StandsFor c inner target) (heq : e.unwrapped = inner.unwrapped) :
    StandsFor c e target := by
  cases h with
  | name h => exact .name (heq.trans h)
  | inlineClass h => exact .inlineClass (heq.trans h)
  | call h hcallee hfirst => exact .call (heq.trans h) hcallee hfirst

mutual

/-- What is found for an expression is what calls lead to. -/
theorem standsFor_of_targetOf? {target : RegistrationTarget} : ∀ e : Expr,
    targetOf? c e = some target → StandsFor c e target
  | .asType inner type, h => (standsFor_of_targetOf? inner h).of_unwrapped_eq rfl
  | .satisfies inner type, h => (standsFor_of_targetOf? inner h).of_unwrapped_eq rfl
  | .asConst inner, h => (standsFor_of_targetOf? inner h).of_unwrapped_eq rfl
  | .nonNull inner, h => (standsFor_of_targetOf? inner h).of_unwrapped_eq rfl
  | .paren inner, h => (standsFor_of_targetOf? inner h).of_unwrapped_eq rfl
  | .ident name, h => by
      cases h
      exact .name rfl
  | .classExpr value, h => by
      cases h
      exact .inlineClass rfl
  | .call start callee typeArgs args, h => by
      rw [targetOf?_call rfl] at h
      obtain ⟨hcallee, hargs⟩ := Option.ite_none_right_eq_some.mp h
      obtain ⟨first, rest, rfl, hfirst⟩ := standsFor_of_firstTarget? args hargs
      exact .call rfl hcallee hfirst
  | .string _, h | .number _, h | .bigint, h | .boolean _, h | .null, h
  | .template _ _, h | .array _, h | .object _, h | .function _, h | .arrow _ _ _, h
  | .arrowTo _ _ _, h | .unary _ _, h | .awaited _, h | .operation _, h | .assign _ _, h
  | .new _ _ _, h | .member _ _, h | .access _, h | .instantiated _ _, h | .spread _, h
  | .hole, h | .optionalChain _ _, h | .other _, h => by cases h

/-- What is found for arguments is what calls lead to from the first one. -/
theorem standsFor_of_firstTarget? {target : RegistrationTarget} : ∀ args : List Expr,
    firstTarget? c args = some target →
      ∃ first rest, args = first :: rest ∧ StandsFor c first.argument target
  | [], h => by cases h
  | first :: rest, h => by
      refine ⟨first, rest, rfl, ?_⟩
      rw [firstTarget?_cons] at h
      cases first with
      | spread inner => exact standsFor_of_targetOf? inner h
      | _ => exact standsFor_of_targetOf? _ h

end

/-- An expression stands for what calls of wrapper factories lead to. -/
theorem targetOf?_eq_some_iff {e : Expr} {target : RegistrationTarget} :
    targetOf? c e = some target ↔ StandsFor c e target := by
  refine ⟨standsFor_of_targetOf? e, fun h => ?_⟩
  induction h with
  | name h | inlineClass h =>
      rw [← targetOf?_unwrapped, h]
      rfl
  | call h hcallee _ ih => rw [targetOf?_call h, if_pos hcallee, firstTarget?_cons, ih]

/-! ## The variables of a file -/

/-- What the variables of a file wrap. -/
def bindings (c : Conventions) (file : SourceFile) : Dictionary RegistrationTarget :=
  (file.module.nodes.foldl (readNode c file) {}).wrapped

/-- Reading a call binds no variable. -/
theorem wrapped_readCall (found : Findings) (line : Nat) (args : List Expr) :
    (readCall c file found line args).wrapped = found.wrapped := by
  rw [readCall]
  split
  · rfl
  · split
    · rfl
    · split <;> rfl

/-- Reading a decorator binds no variable. -/
theorem wrapped_readDecorator (name : String) (found : Findings) (d : Source.Decorator) :
    (readDecorator c file name found d).wrapped = found.wrapped := by
  rw [readDecorator]
  split
  · dsimp only
    split
    · rfl
    · split
      · split <;> rfl
      · split <;> rfl
  · rfl

/-- Reading the decorators of a class binds no variable. -/
theorem wrapped_readClass (found : Findings) (name : String) (value : Source.ClassDef) :
    (readClass c file found name value).wrapped = found.wrapped := by
  rw [readClass]
  induction value.decorators generalizing found with
  | nil => rfl
  | cons d rest ih => rw [List.foldl_cons, ih, wrapped_readDecorator]

/-- What a node makes a variable wrap. -/
def wrappedAt? (c : Conventions) (name : String) (node : Node) : Option RegistrationTarget :=
  node.binding?.bind fun (other, value) => if name = other then wrappedBy? c value else none

/-- Binding a variable writes its name and leaves every other name alone. -/
theorem find?_bindVariable (found : Findings) (name : String) (value : Expr) (other : String) :
    Dictionary.find? (bindVariable c found name value).wrapped other =
      (if other = name then wrappedBy? c value else none).or
        (Dictionary.find? found.wrapped other) := by
  rw [bindVariable]
  cases wrappedBy? c value with
  | none => rw [ite_self, Option.none_or]
  | some target =>
      refine (Dictionary.find?_set _ _ _ _).trans ?_
      by_cases h : other = name
      · rw [if_pos h, if_pos h, Option.some_or]
      · rw [if_neg h, if_neg h, Option.none_or]

/-- What a node makes a variable wrap replaces what it wrapped before. -/
theorem find?_readNode (found : Findings) (node : Node) (name : String) :
    Dictionary.find? (readNode c file found node).wrapped name =
      (wrappedAt? c name node).or (Dictionary.find? found.wrapped name) := by
  rw [readNode.eq_def]
  split
  · split
    · rw [wrapped_readCall]
      rfl
    · rfl
  · exact find?_bindVariable found _ _ name
  · exact find?_bindVariable found _ _ name
  · rw [wrapped_readClass]
    rfl
  · rw [wrapped_readClass]
    rfl
  · next hdeclarator hassign _ _ =>
      have hnone : node.binding? = none := by
        unfold Node.binding?
        split
        · exact (hdeclarator _ _ _ _ rfl).elim
        · exact (hassign _ _ _ rfl).elim
        · rfl
      rw [wrappedAt?, hnone]
      rfl

/-- The last node counts that makes a variable wrap something. -/
theorem find?_bindings (c : Conventions) (file : SourceFile) (name : String) :
    Dictionary.find? (bindings c file) name =
      file.module.nodes.reverse.findSome? (wrappedAt? c name) := by
  suffices hfold : ∀ (nodes : List Node) (found : Findings),
      Dictionary.find? (nodes.foldl (readNode c file) found).wrapped name =
        (nodes.reverse.findSome? (wrappedAt? c name)).or (Dictionary.find? found.wrapped name) from
    (hfold _ _).trans (Option.or_none ..)
  intro nodes
  induction nodes with
  | nil => exact fun _ => rfl
  | cons node rest ih =>
      -- Later nodes write over this one, and come before it in the reversed list.
      intro found
      rw [List.foldl_cons, ih, find?_readNode, List.reverse_cons, List.findSome?_append,
        Option.or_assoc]
      simp only [List.findSome?_singleton]

/-- What a variable wraps is what one of its values stands for. -/
theorem exists_value_of_find?_bindings {name : String} {target : RegistrationTarget}
    (h : Dictionary.find? (bindings c file) name = some target) :
    ∃ node ∈ file.module.nodes, ∃ value, node.binding? = some (name, value) ∧
      wrappedBy? c value = some target := by
  rw [find?_bindings] at h
  obtain ⟨node, hnode, htarget⟩ := List.exists_of_findSome?_eq_some h
  obtain ⟨⟨other, value⟩, hbinding, hvalue⟩ := Option.bind_eq_some_iff.mp htarget
  obtain ⟨rfl, hwrapped⟩ := Option.ite_none_right_eq_some.mp hvalue
  exact ⟨node, List.mem_reverse.mp hnode, value, hbinding, hwrapped⟩

/-- A variable with only one value wraps what this value stands for. -/
theorem find?_bindings_of_unique {name : String} {value : Expr} {binder : Node}
    (hmem : binder ∈ file.module.nodes) (hbinder : binder.binding? = some (name, value))
    (honly : ∀ node ∈ file.module.nodes, ∀ other, node.binding? = some (name, other) →
      other = value) :
    Dictionary.find? (bindings c file) name = wrappedBy? c value := by
  cases hfound : Dictionary.find? (bindings c file) name with
  | some target =>
      obtain ⟨node, hnode, other, hother, hwrapped⟩ := exists_value_of_find?_bindings hfound
      rw [← hwrapped, honly node hnode other hother]
  | none =>
      rw [find?_bindings, List.findSome?_eq_none_iff] at hfound
      have hnone := hfound binder (List.mem_reverse.mpr hmem)
      rw [wrappedAt?, hbinder, Option.bind_some] at hnone
      dsimp only at hnone
      rw [if_pos rfl] at hnone
      exact hnone.symm

/-! ## Following targets -/

section Follow

variable {wrapped : Dictionary RegistrationTarget}

/-- The variables that have not been met on the way. -/
def unmet (wrapped : Dictionary RegistrationTarget) (seen : List String) : Finset String :=
  (Dictionary.names wrapped).toFinset \ seen.toFinset

/-- A variable that is followed has not been met, and is met from then on. -/
theorem card_unmet_cons {seen : List String} {name : String} {target : RegistrationTarget}
    (hseen : name ∉ seen) (h : Dictionary.find? wrapped name = some target) :
    (unmet wrapped (name :: seen)).card < (unmet wrapped seen).card := by
  have hmem : name ∈ unmet wrapped seen := by
    rw [unmet, Finset.mem_sdiff, List.mem_toFinset, List.mem_toFinset]
    exact ⟨List.mem_map_of_mem (Dictionary.mem_of_find? h), hseen⟩
  rw [unmet, List.toFinset_cons, Finset.sdiff_insert]
  exact Finset.card_erase_lt_of_mem hmem

/-- More steps than there are variables left change nothing. -/
theorem follow_succ {fuel : Nat} {seen : List String} {target : RegistrationTarget}
    (h : (unmet wrapped seen).card < fuel) :
    follow wrapped (fuel + 1) seen target = follow wrapped fuel seen target := by
  induction fuel generalizing seen target with
  | zero => exact absurd h (Nat.not_lt_zero _)
  | succ fuel ih =>
      cases target with
      | inlineClass value => rfl
      | named name =>
          rw [follow, follow]
          by_cases hseen : seen.contains name = true
          · rw [if_pos hseen, if_pos hseen]
          · rw [if_neg hseen, if_neg hseen]
            cases hfound : Dictionary.find? wrapped name with
            | none => rfl
            | some next =>
                have hless := card_unmet_cons (by simpa using hseen) hfound
                exact ih (by omega)

/-- Whether a name counts as met does not matter if nothing wraps it. -/
theorem follow_congr {name : String}
    (hunread : ∀ other target, Dictionary.find? wrapped other = some target →
      target ≠ .named name) {fuel : Nat} {seen seen' : List String} {target : RegistrationTarget}
    (htarget : target ≠ .named name)
    (hseen : ∀ other, other ≠ name → seen.contains other = seen'.contains other) :
    follow wrapped fuel seen target = follow wrapped fuel seen' target := by
  induction fuel generalizing seen seen' target with
  | zero => rfl
  | succ fuel ih =>
      cases target with
      | inlineClass value => rfl
      | named other =>
          -- The way never comes to the name, and for every other one both lists agree.
          have hother : other ≠ name := fun heq => htarget (heq ▸ rfl)
          rw [follow, follow, hseen other hother]
          cases hfound : Dictionary.find? wrapped other with
          | none => rfl
          | some next =>
              have hnext : ∀ n, n ≠ name →
                  (other :: seen).contains n = (other :: seen').contains n := by
                intro n hn
                rw [List.contains_cons, List.contains_cons, hseen n hn]
              dsimp only
              rw [ih (hunread other next hfound) hnext]

/-- Following a variable that nothing else wraps is following what it wraps. -/
theorem follow_variable {name : String} {target : RegistrationTarget}
    (hname : Dictionary.find? wrapped name = some target)
    (hunread : ∀ other target, Dictionary.find? wrapped other = some target →
      target ≠ .named name) :
    follow wrapped (wrapped.length + 1) [] (.named name) =
      follow wrapped (wrapped.length + 1) [] target := by
  -- The name itself has been met after one step, so fewer variables are left than there are steps.
  have hleft : (unmet wrapped [name]).card < wrapped.length := by
    have hless := card_unmet_cons (List.not_mem_nil (a := name)) hname
    have hall : (unmet wrapped []).card ≤ wrapped.length := by
      rw [unmet, List.toFinset_nil, Finset.sdiff_empty]
      exact (List.toFinset_card_le _).trans_eq (List.length_map _)
    omega
  have htarget : target ≠ .named name := hunread name target hname
  calc follow wrapped (wrapped.length + 1) [] (.named name)
      = follow wrapped wrapped.length [name] target := by
        rw [follow, List.contains_nil, if_neg Bool.false_ne_true, hname]
    _ = follow wrapped (wrapped.length + 1) [name] target := (follow_succ hleft).symm
    _ = follow wrapped (wrapped.length + 1) [] target :=
        follow_congr hunread htarget fun other hother => by simp [hother]

/-- A name that wraps nothing is followed to itself. -/
theorem follow_named {name : String} (h : Dictionary.find? wrapped name = none) :
    follow wrapped (wrapped.length + 1) [] (.named name) = .named name := by
  rw [follow, List.contains_nil, if_neg Bool.false_ne_true, h]

end Follow

end Registration

/-! ## Variables at the top level -/

namespace FileSymbols

/-- An item of a module declares no value under a name. -/
def LeavesAlone (file : SourceFile) (name : String) (item : Stmt) : Prop :=
  ∀ symbols, (add file symbols item).declared? .value name = symbols.declared? .value name

/-- What an item declares as a value stays if no later item declares its name. -/
theorem declared?_ofFile {file : SourceFile} {before after : List Stmt} {item : Stmt}
    {name : String} {d : Declaration} (hitems : file.module.items = before ++ item :: after)
    (hitem : ∀ symbols, (add file symbols item).declared? .value name = some d)
    (hafter : ∀ later ∈ after, LeavesAlone file name later) :
    (ofFile file).declared? .value name = some d := by
  suffices hfold : ∀ symbols : FileSymbols, symbols.declared? .value name = some d →
      (after.foldl (add file) symbols).declared? .value name = some d by
    rw [ofFile, hitems, List.foldl_append, List.foldl_cons]
    exact hfold _ (hitem _)
  clear hitems
  induction after with
  | nil => exact fun _ h => h
  | cons later rest ih =>
      intro symbols h
      obtain ⟨hlater, hrest⟩ := List.forall_mem_cons.mp hafter
      exact ih hrest _ ((hlater symbols).trans h)

end FileSymbols

/-- The statement `const name = value`. -/
def constDecl (start place : Position) (name : String) (value : Expr) : Stmt :=
  .variableDecl start [⟨place, .ident name none, some value⟩]

/-- A file declares a variable with a value at its top level, and nothing else is declared under its
    name, gives it another value, or wraps it. -/
structure SourceFile.BindsOnce (file : SourceFile) (c : Conventions) (start place : Position)
    (name : String) (value : Expr) : Prop where
  declared : ∃ before after,
    file.module.items = before ++ constDecl start place name value :: after ∧
      ∀ item ∈ after, FileSymbols.LeavesAlone file name item
  bound : ∀ node ∈ file.module.nodes, ∀ other, node.binding? = some (name, other) → other = value
  unread : ∀ node ∈ file.module.nodes, ∀ other bound, node.binding? = some (other, bound) →
    ¬Registration.StandsFor c bound (.named name)

section BindsOnce

variable {c : Conventions} {file : SourceFile} {start place : Position} {name : String}
  {value : Expr}

/-- The declaration of the variable. -/
def constDeclaration (file : SourceFile) (start place : Position) (name : String) (value : Expr) :
    Declaration :=
  ⟨name, file, .variableNode (some value) none, [start, place], place⟩

namespace SourceFile.BindsOnce

/-- The name is looked up as the variable. -/
theorem declared? (h : file.BindsOnce c start place name value) :
    (FileSymbols.ofFile file).declared? .value name =
      some (constDeclaration file start place name value) := by
  obtain ⟨before, after, hitems, hafter⟩ := h.declared
  refine FileSymbols.declared?_ofFile hitems (fun symbols => ?_) hafter
  show (symbols.insert (constDeclaration file start place name value)).declared? .value name = _
  rw [FileSymbols.declared?_insert]
  exact if_pos ⟨rfl, rfl⟩

/-- The declaration is one of the nodes of the file. -/
theorem declarator_mem (h : file.BindsOnce c start place name value) :
    Node.declarator ⟨place, .ident name none, some value⟩ ∈ file.module.nodes := by
  obtain ⟨before, after, hitems, -⟩ := h.declared
  rw [Source.Module.nodes, hitems, List.flatMap_append, List.flatMap_cons]
  refine List.mem_append_right _ (List.mem_append_left _ ?_)
  rw [Node.preorder_eq]
  refine List.mem_cons_of_mem _ (List.mem_flatMap.mpr ⟨_, List.mem_cons_self, ?_⟩)
  rw [Node.preorder_eq]
  exact List.mem_cons_self

/-- The variable wraps what its value stands for. -/
theorem find?_bindings (h : file.BindsOnce c start place name value) :
    Dictionary.find? (Registration.bindings c file) name = Registration.wrappedBy? c value :=
  Registration.find?_bindings_of_unique h.declarator_mem rfl h.bound

/-- No variable wraps it. -/
theorem not_wrapped (h : file.BindsOnce c start place name value) (other : String)
    (target : RegistrationTarget)
    (hother : Dictionary.find? (Registration.bindings c file) other = some target) :
    target ≠ .named name := by
  rintro rfl
  obtain ⟨node, hnode, bound, hbinding, hwrapped⟩ :=
    Registration.exists_value_of_find?_bindings hother
  exact h.unread node hnode other bound hbinding
    (Registration.targetOf?_eq_some_iff.mp (Registration.targetOf?_of_wrappedBy? hwrapped))

end SourceFile.BindsOnce

end BindsOnce

/-! ## Registrations in both forms -/

namespace Registration

/-- The call that registers an implementation. -/
def registering (start : Position) (callee : Expr) (typeArgs : List TypeUse) (tag : Expr)
    (rest : List Expr) (implementation : Expr) : Node :=
  .expr (.call start callee typeArgs (tag :: implementation :: rest))

/-- Whether a call registers depends on its arguments only by their number. -/
theorem isCall_congr {c : Conventions} {callee : Expr} {args args' : List Expr}
    (h : args.length = args'.length) : isCall c callee args = isCall c callee args' := by
  rw [isCall, isCall, h]

/-- A call registers what its implementation stands for. -/
theorem atNode_registering {c : Conventions} {file : SourceFile} {start : Position}
    {callee tag implementation : Expr} {typeArgs : List TypeUse} {rest : List Expr}
    {tagName : String} (hcallee : isCall c callee (tag :: implementation :: rest) = true)
    (htag : tag.string? = some tagName) (himplementation : implementation.isSpread = false) :
    atNode c file (registering start callee typeArgs tag rest implementation) =
      (targetOf? c implementation).toList.map (⟨tagName, ·, file.id, start.line⟩) := by
  have hspread : tag.isSpread = false := by
    cases tag with
    | spread inner => cases htag
    | _ => rfl
  rw [atNode, registering, readNode, if_pos hcallee, readCall]
  simp only [List.head?_cons, Option.filter_some, hspread, himplementation, Bool.not_false,
    if_true, Option.bind_some, htag, List.getElem?_cons_succ, List.getElem?_cons_zero]
  cases targetOf? c implementation <;> rfl

end Registration

namespace Workspace

variable {w : Workspace} {file : SourceFile}

/-- The components that the registrations of a node yield. -/
def yields (w : Workspace) (file : SourceFile) (node : Node) : List Component :=
  (Registration.atNode w.conventions file node).filterMap fun r =>
    w.outcome? (Registration.settled (Registration.bindings w.conventions file) r)

/-- The registrations of a file yield what its nodes yield, one after another. -/
theorem outcomes_ofFile (w : Workspace) (file : SourceFile) :
    (Registration.ofFile w.conventions file).1.filterMap w.outcome? =
      file.module.nodes.flatMap (w.yields file) := by
  rw [Registration.ofFile,
    Findings.registrations_foldl (Registration.appends_readNode w.conventions file)]
  show ((file.module.nodes.flatMap (Registration.atNode w.conventions file)).map
    (Registration.settled (Registration.bindings w.conventions file))).filterMap w.outcome? = _
  rw [List.filterMap_map, List.filterMap_flatMap]
  rfl

/-- A registration of a file of the program yields the component of its implementation. -/
theorem outcome?_of_mem (hfile : file ∈ w.program.files) (tagName : String)
    (target : RegistrationTarget) (line : Nat) :
    w.outcome? ⟨tagName, target, file.id, line⟩ =
      (w.surfaceOf file ⟨tagName, target, file.id, line⟩).toOption.map (w.componentOf tagName) := by
  obtain ⟨place, hplace⟩ := List.mem_iff_getElem?.mp hfile
  rw [outcome?, w.program.id_eq_place place file hplace, hplace, Option.bind_some, registered]
  cases w.surfaceOf file ⟨tagName, target, place, line⟩ <;> rfl

section Value

variable {start place : Position} {name : String} {value : Expr}

/-- A variable whose value stands for no target is an alias of nothing. -/
theorem aliasTarget?_of_targetOf? {d : Declaration} {type : Option TypeUse}
    (hnode : d.node = .variableNode (some value) type) {call : Position} {callee : Expr}
    {typeArgs : List TypeUse} {args : List Expr}
    (hcall : value.unwrapped = .call call callee typeArgs args)
    (hnone : Registration.targetOf? w.conventions value = none) : w.aliasTarget? d = none := by
  rw [aliasTarget?, hnode]
  dsimp only
  rw [hcall]
  cases args with
  | nil => rfl
  | cons first rest =>
      dsimp only
      rw [Registration.targetOf?_call hcall, Registration.firstTarget?_cons] at hnone
      cases hcallee : Registration.isWrapper w.conventions callee with
      | false => rfl
      | true =>
          rw [hcallee, if_pos rfl, ← Registration.targetOf?_unwrapped] at hnone
          rw [if_pos rfl]
          split
          · next other hother =>
              rw [hother] at hnone
              cases hnone
          · rfl

/-- The surface of a variable whose value stands for no target is what is read of its value. -/
theorem surfaceOf_variable (hfile : file ∈ w.program.files)
    (h : file.BindsOnce w.conventions start place name value) {call : Position} {callee : Expr}
    {typeArgs : List TypeUse} {args : List Expr}
    (hcall : value.unwrapped = .call call callee typeArgs args)
    (hnone : Registration.targetOf? w.conventions value = none) (tagName : String) (line : Nat) :
    (w.surfaceOf file ⟨tagName, .named name, file.id, line⟩).toOption =
      Surface.readValue? w Surface.wrapperDepth
        (.bare name file (file.docsAt [start, place])) value := by
  have hvalue : w.value? file name = some (constDeclaration file start place name value) := by
    rw [value?, resolve?, symbolsOf_of_mem hfile, h.declared?, Option.some_or]
  have halias : w.followAliases aliasDepth (constDeclaration file start place name value) =
      constDeclaration file start place name value := by
    rw [aliasDepth, followAliases, aliasTarget?_of_targetOf? rfl hcall hnone]
    rfl
  rw [surfaceOf]
  dsimp only
  rw [hvalue]
  dsimp only
  rw [halias, Surface.ofDeclaration]
  dsimp only [constDeclaration]
  cases Surface.readValue? w Surface.wrapperDepth
    (.bare name file (file.docsAt [start, place])) value <;> rfl

end Value

/-! ## Wrapped functions -/

/-- An expression is a function. -/
def isFunction : Expr → Bool
  | .arrow _ _ _ => true
  | .arrowTo _ _ _ => true
  | .function _ => true
  | _ => false

/-- At most `depth` wrappers lead from an expression to a function. -/
inductive WrapsFunction (w : Workspace) : (depth : Nat) → Expr → Prop where
  | function {depth : Nat} {e : Expr} (h : isFunction e.unwrapped = true) : WrapsFunction w depth e
  | call {depth : Nat} {e callee first : Expr} {start : Position} {typeArgs : List TypeUse}
    {rest : List Expr} (h : e.unwrapped = .call start callee typeArgs (first :: rest))
    (hcallee : Surface.wraps w callee = true) (hfirst : WrapsFunction w depth first.argument) :
    WrapsFunction w (depth + 1) e

/-- A function stands for no target, whatever wraps it. -/
theorem WrapsFunction.targetOf? {depth : Nat} {e : Expr} (h : w.WrapsFunction depth e) :
    Registration.targetOf? w.conventions e = none := by
  induction h with
  | @function depth e h =>
      rw [← Registration.targetOf?_unwrapped]
      cases hvalue : e.unwrapped with
      | arrow | arrowTo | function => rfl
      | _ => rw [hvalue] at h; cases h
  | call h _ _ ih =>
      rw [Registration.targetOf?_call h, Registration.firstTarget?_cons, ih, ite_self]

/-- Notes on types do not change what is read of a value. -/
theorem readValue?_unwrapped {depth : Nat} (s : Surface) (e : Expr) :
    Surface.readValue? w depth s e.unwrapped = Surface.readValue? w depth s e := by
  cases depth with
  | zero => rw [Surface.readValue?, Surface.readValue?, Expr.unwrapped_unwrapped]
  | succ depth => rw [Surface.readValue?, Surface.readValue?, Expr.unwrapped_unwrapped]

/-- A function has a surface, whatever wraps it. -/
theorem WrapsFunction.isSome_readValue? {depth : Nat} {e : Expr} (h : w.WrapsFunction depth e)
    (s : Surface) : (Surface.readValue? w depth s e).isSome = true := by
  have hplain : ∀ value, isFunction value = true →
      (Surface.readValue?.readPlain? w s value).isSome = true := by
    intro value hvalue
    cases value with
    | arrow | arrowTo | function => rfl
    | _ => cases hvalue
  induction h with
  | @function depth e h =>
      have hread : Surface.readValue? w depth s e =
          Surface.readValue?.readPlain? w s e.unwrapped := by
        cases depth with
        | zero => rfl
        | succ depth =>
            rw [Surface.readValue?]
            split
            · next heq => rw [heq] at h; cases h
            · rfl
      rw [hread]
      exact hplain _ h
  | @call depth e callee first start typeArgs rest h hcallee hfirst ih =>
      have hread : Surface.readValue? w (depth + 1) s e =
          Surface.readValue? w depth s first.argument := by
        rw [Surface.readValue?, h]
        dsimp only
        rw [if_pos hcallee]
        split
        · next name hname =>
            have hnone := hfirst.targetOf?
            rw [← Registration.targetOf?_unwrapped, hname] at hnone
            cases hnone
        · exact readValue?_unwrapped s first.argument
      rw [hread]
      exact ih

/-- A registering call yields what its implementation stands for, with the variables of the file
    followed. -/
theorem yields_registering {site : Position} {callee tag implementation : Expr}
    {typeArgs : List TypeUse} {rest : List Expr} {tagName : String}
    (hcallee : Registration.isCall w.conventions callee (tag :: implementation :: rest) = true)
    (htag : tag.string? = some tagName) (himplementation : implementation.isSpread = false) :
    w.yields file (Registration.registering site callee typeArgs tag rest implementation) =
      ((Registration.targetOf? w.conventions implementation).bind fun target =>
        w.outcome? (Registration.settled (Registration.bindings w.conventions file)
          ⟨tagName, target, file.id, site.line⟩)).toList := by
  rw [yields, Registration.atNode_registering hcallee htag himplementation]
  cases Registration.targetOf? w.conventions implementation with
  | none => rfl
  | some target =>
      rw [Option.toList_some, List.map_singleton, List.filterMap_cons, Option.bind_some]
      cases w.outcome? (Registration.settled (Registration.bindings w.conventions file)
        ⟨tagName, target, file.id, site.line⟩) <;> rfl

section Forms

variable {start place wrapper site : Position} {name tagName : String}
  {value factory callee tag : Expr} {factoryTypes typeArgs : List TypeUse} {args rest : List Expr}

/-- A call in a registration yields what it stands for. -/
theorem yields_inline (hcall : value.unwrapped = .call wrapper factory factoryTypes args)
    (hcallee : Registration.isCall w.conventions callee (tag :: value :: rest) = true)
    (htag : tag.string? = some tagName) :
    w.yields file (Registration.registering site callee typeArgs tag rest value) =
      ((Registration.targetOf? w.conventions value).bind fun target =>
        w.outcome? (Registration.settled (Registration.bindings w.conventions file)
          ⟨tagName, target, file.id, site.line⟩)).toList := by
  refine yields_registering hcallee htag ?_
  cases value with
  | spread inner => cases hcall
  | _ => rfl

/-- A name in a registration yields what it is followed to. -/
theorem yields_bound
    (hcallee : Registration.isCall w.conventions callee (tag :: value :: rest) = true)
    (htag : tag.string? = some tagName) :
    w.yields file (Registration.registering site callee typeArgs tag rest (.ident name)) =
      (w.outcome? (Registration.settled (Registration.bindings w.conventions file)
        ⟨tagName, .named name, file.id, site.line⟩)).toList :=
  yields_registering ((Registration.isCall_congr rfl).trans hcallee) htag rfl

/-- A variable whose value stands for a target is registered like its value. -/
theorem yields_inline_eq_bound (h : file.BindsOnce w.conventions start place name value)
    (hcall : value.unwrapped = .call wrapper factory factoryTypes args)
    (hcallee : Registration.isCall w.conventions callee (tag :: value :: rest) = true)
    (htag : tag.string? = some tagName) {target : RegistrationTarget}
    (htarget : Registration.targetOf? w.conventions value = some target) :
    w.yields file (Registration.registering site callee typeArgs tag rest value) =
      w.yields file (Registration.registering site callee typeArgs tag rest (.ident name)) := by
  have hwrapped := h.find?_bindings
  rw [Registration.wrappedBy?_call hcall, htarget] at hwrapped
  rw [yields_inline hcall hcallee htag, yields_bound hcallee htag, htarget, Option.bind_some]
  simp only [Registration.settled]
  rw [Registration.follow_variable hwrapped h.not_wrapped]

/-- A variable whose value stands for no target is registered for what is read of its value. -/
theorem yields_bound_eq_read (hfile : file ∈ w.program.files)
    (h : file.BindsOnce w.conventions start place name value)
    (hcall : value.unwrapped = .call wrapper factory factoryTypes args)
    (hcallee : Registration.isCall w.conventions callee (tag :: value :: rest) = true)
    (htag : tag.string? = some tagName)
    (hnone : Registration.targetOf? w.conventions value = none) :
    w.yields file (Registration.registering site callee typeArgs tag rest (.ident name)) =
      ((Surface.readValue? w Surface.wrapperDepth
        (.bare name file (file.docsAt [start, place])) value).map
          (w.componentOf tagName)).toList := by
  have hwrapped := h.find?_bindings
  rw [Registration.wrappedBy?_call hcall, hnone] at hwrapped
  rw [yields_bound hcallee htag]
  simp only [Registration.settled]
  rw [Registration.follow_named hwrapped, outcome?_of_mem hfile,
    surfaceOf_variable hfile h hcall hnone]

end Forms

/-- **Inline and bound wrappers**: the call of a wrapper may stand in a registration, or be the value
    of a variable that is registered.  If calls of wrapper factories lead to a name or a class, both
    forms yield the same component.  If not, the first form yields none, and the second one yields
    what is read of the value; so they differ exactly if something is read of it, as of every
    function that at most eight wrappers stand around. -/
theorem inline_and_bound_wrappers_agree_iff (w : Workspace) (file : SourceFile)
    (hfile : file ∈ w.program.files) (start place : Position) (name : String) (value : Expr)
    (h : file.BindsOnce w.conventions start place name value) (wrapper : Position) (factory : Expr)
    (factoryTypes : List TypeUse) (args : List Expr)
    (hcall : value.unwrapped = .call wrapper factory factoryTypes args) (site : Position)
    (callee tag : Expr) (typeArgs : List TypeUse) (rest : List Expr) (tagName : String)
    (hcallee : Registration.isCall w.conventions callee (tag :: value :: rest) = true)
    (htag : tag.string? = some tagName) :
    let registered := Registration.registering site callee typeArgs tag rest
    let inline := w.yields file (registered value)
    let bound := w.yields file (registered (.ident name))
    let read := Surface.readValue? w Surface.wrapperDepth
      (.bare name file (file.docsAt [start, place])) value
    (∀ target, Registration.StandsFor w.conventions value target → inline = bound) ∧
      ((¬∃ target, Registration.StandsFor w.conventions value target) →
        inline = [] ∧ bound = (read.map (w.componentOf tagName)).toList) ∧
      ((inline = [] ↔ bound = []) ↔
        (∃ target, Registration.StandsFor w.conventions value target) ∨ read = none) ∧
      (w.WrapsFunction Surface.wrapperDepth value →
        inline = [] ∧ ∃ component, bound = [component]) := by
  intro registered inline bound read
  have hinline : inline = _ := yields_inline hcall hcallee htag
  simp only [← Registration.targetOf?_eq_some_iff]
  cases htarget : Registration.targetOf? w.conventions value with
  | some target =>
      have hagree : inline = bound := yields_inline_eq_bound h hcall hcallee htag htarget
      refine ⟨fun _ _ => hagree, fun hnone => (hnone ⟨target, rfl⟩).elim, ?_, fun hfunction => ?_⟩
      · rw [hagree]
        exact iff_of_true Iff.rfl (Or.inl ⟨target, rfl⟩)
      · rw [hfunction.targetOf?] at htarget
        cases htarget
  | none =>
      rw [htarget] at hinline
      have hread : bound = (read.map (w.componentOf tagName)).toList :=
        yields_bound_eq_read hfile h hcall hcallee htag htarget
      have hempty : bound = [] ↔ read = none := by
        rw [hread]
        cases read <;> simp
      refine ⟨fun _ hsome => (nomatch hsome), fun _ => ⟨hinline, hread⟩, ?_, fun hfunction => ?_⟩
      · rw [hempty]
        constructor
        · exact fun hagree => Or.inr (hagree.mp hinline)
        · rintro (⟨target, hsome⟩ | hnone)
          · cases hsome
          · exact iff_of_true hinline hnone
      · obtain ⟨s, hs⟩ := Option.isSome_iff_exists.mp (hfunction.isSome_readValue? _)
        refine ⟨hinline, w.componentOf tagName s, hread.trans ?_⟩
        rw [show read = some s from hs]
        rfl

/-! ## A wrapped function -/

/-- The expression `r2wc(() => {})`. -/
def wrappedArrow : Expr :=
  .call ⟨13, 1⟩ (.ident "r2wc") [] [.arrow [] [] []]

/-- The call `customElements.define("x-card", …)`. -/
def defineCard (implementation : Expr) : Node :=
  Registration.registering ⟨29, 2⟩ (.member (.ident "customElements") "define") []
    (.string ⟨"x-card", true⟩) [] implementation

/-- A module that holds a wrapped function in a variable. -/
def cardModule : ParsedFile :=
  { path := ⟨[.root, .name "card.ts"]⟩
    module := ⟨[constDecl ⟨0, 1⟩ ⟨6, 1⟩ "Card" wrappedArrow], []⟩
    discoverable := true }

/-- The file of that module. -/
def cardFile : SourceFile :=
  Program.placed ⟨[.root]⟩ cardModule 0

/-- The workspace of that file alone. -/
def cardWorkspace : Workspace :=
  .ofProgram (.ofParsed ⟨[.root]⟩ [cardModule]) {}

/-- The variable stands alone in its file. -/
theorem card_bound :
    cardFile.BindsOnce cardWorkspace.conventions ⟨0, 1⟩ ⟨6, 1⟩ "Card" wrappedArrow := by
  have hbinding : ∀ node ∈ cardFile.module.nodes, ∀ other value,
      node.binding? = some (other, value) → value = wrappedArrow := by
    intro node hnode other value hvalue
    simp only [Source.Module.nodes, Node.preorder_eq, Node.children, Stmt.children, cardFile,
      Program.placed, cardModule, constDecl, wrappedArrow, List.flatMap_cons, List.map_cons,
      List.map_nil, Option.toList_some, Pattern.children, Option.toList_none, List.flatMap_nil,
      Expr.children, List.append_nil, List.cons_append, List.nil_append, List.mem_cons,
      List.not_mem_nil, or_false] at hnode
    rcases hnode with rfl | rfl | rfl | rfl | rfl | rfl
    all_goals cases hvalue
    rfl
  refine ⟨⟨[], [], rfl, fun _ h => absurd h List.not_mem_nil⟩,
    fun node hnode other => hbinding node hnode _ other, ?_⟩
  intro node hnode other value hvalue hstands
  rw [hbinding node hnode other value hvalue] at hstands
  have htarget := Registration.targetOf?_eq_some_iff.mpr hstands
  cases htarget

/-- The function is registered through the variable, and not in the registration. -/
theorem wrapped_arrow_bound_only :
    cardWorkspace.yields cardFile (defineCard wrappedArrow) = [] ∧
      ∃ component, cardWorkspace.yields cardFile (defineCard (.ident "Card")) = [component] :=
  (inline_and_bound_wrappers_agree_iff cardWorkspace cardFile (placed_mem_files _ _ _) ⟨0, 1⟩ ⟨6, 1⟩
    "Card" wrappedArrow card_bound _ _ _ _ rfl _ _ _ _ _ "x-card" (by decide +kernel) rfl).2.2.2
    (.call rfl (by decide +kernel) (.function rfl))

end Workspace

end ElementCatalog
