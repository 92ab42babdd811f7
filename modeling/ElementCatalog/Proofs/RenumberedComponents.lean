import ElementCatalog.Component.Assembly
import ElementCatalog.Proofs.RenumberedTypes

/-!
# Components in renumbered files

Toward: a registration in a file and in its copy under a new id makes the same component, or fails
with the same diagnostic.  The route:

* surfaces that differ in the ids of files only have the same properties and events, since these are
  read from schemas, documentation and the conventions;
* the implementation that a name leads to has such a surface on both sides.
-/

namespace ElementCatalog

open Source (Expr Node ClassDef Pattern TypeExpr TypeUse Position Property)
open ElementCatalog.Types

/-- Two surfaces differ in the ids of files only. -/
structure SameSurface (w : Workspace) (ρ : Nat → Nat) (s s' : Surface) : Prop where
  name : s'.name = s.name
  file : SameFile w ρ s.file s'.file
  implementedBy : s'.implementedBy = s.implementedBy
  body : s'.body = s.body
  shape : SameShape w ρ s.shape s'.shape
  paramDefaults : s'.paramDefaults = s.paramDefaults
  docs : s'.docs = s.docs

namespace SameFile

variable {w : Workspace} {ρ : Nat → Nat} {file file' : SourceFile}

/-- A file and its copy are shown by the same path. -/
theorem shownPath (h : SameFile w ρ file file') : file'.shownPath = file.shownPath := by
  rw [h.2]
  rfl

/-- A file and its copy have the same documentation texts. -/
theorem docTextAt? (h : SameFile w ρ file file') : file'.docTextAt? = file.docTextAt? := by
  rw [h.2]
  rfl

/-- A file and its copy have the same documentation. -/
theorem docsAt (h : SameFile w ρ file file') : file'.docsAt = file.docsAt := by
  rw [h.2]
  rfl

end SameFile

/-- Related options both have a value or both have none. -/
theorem isSome_eq_of_rel {α β : Type} {R : α → β → Prop} {a : Option α} {b : Option β}
    (h : Option.Rel R a b) : b.isSome = a.isSome := by
  cases h <;> rfl

/-- Readings that agree on like items read the same from lists of them. -/
theorem filterMap_eq_of_forall₂ {α β γ : Type} {R : α → β → Prop} {f : α → Option γ}
    {g : β → Option γ} (h : ∀ a b, R a b → g b = f a) {as : List α} {bs : List β}
    (hall : List.Forall₂ R as bs) : bs.filterMap g = as.filterMap f := by
  induction hall with
  | nil => rfl
  | cons hab _ ih => rw [List.filterMap_cons, List.filterMap_cons, h _ _ hab, ih]

/-! ## Registrations -/

/-- A registration in a file with another id. -/
def Registration.renumber (ρ : Nat → Nat) (r : Registration) : Registration :=
  { r with fileId := ρ r.fileId }

/-- A renumbered registration registers the same tag. -/
@[simp]
theorem Registration.renumber_tagName (ρ : Nat → Nat) (r : Registration) :
    (r.renumber ρ).tagName = r.tagName :=
  rfl

/-- A renumbered registration registers the same implementation. -/
@[simp]
theorem Registration.renumber_target (ρ : Nat → Nat) (r : Registration) :
    (r.renumber ρ).target = r.target :=
  rfl

/-- What was found in a file with another id. -/
def Findings.renumber (ρ : Nat → Nat) (found : Findings) : Findings :=
  { found with registrations := found.registrations.map (·.renumber ρ) }

namespace Registration

variable (ρ : Nat → Nat) (c : Conventions) (file : SourceFile)

/-- Taking in a registration goes along with renumbering. -/
theorem register_renumber (found : Findings) (tagName : String) (target : RegistrationTarget)
    (line : Nat) : (found.renumber ρ).register (file.renumber ρ) tagName target line =
      (found.register file tagName target line).renumber ρ := by
  rw [Findings.register, Findings.register, Findings.renumber, Findings.renumber, List.map_append]
  rfl

/-- Reading a call goes along with renumbering. -/
theorem readCall_renumber (found : Findings) (line : Nat) (args : List Expr) :
    readCall c (file.renumber ρ) (found.renumber ρ) line args =
      (readCall c file found line args).renumber ρ := by
  simp only [readCall]
  split
  · rfl
  · split
    · rfl
    · split
      · exact register_renumber ρ file found _ _ line
      · rfl

/-- Reading a decorator goes along with renumbering. -/
theorem readDecorator_renumber (name : String) (found : Findings) (d : Source.Decorator) :
    readDecorator c (file.renumber ρ) name (found.renumber ρ) d =
      (readDecorator c file name found d).renumber ρ := by
  simp only [readDecorator]
  split
  · split
    · rfl
    · split
      · split
        · exact register_renumber ρ file found _ _ _
        · rfl
      · split
        · exact register_renumber ρ file found _ _ _
        · rfl
  · rfl

/-- Keeping what a variable wraps goes along with renumbering. -/
theorem bindVariable_renumber (found : Findings) (name : String) (value : Expr) :
    bindVariable c (found.renumber ρ) name value =
      (bindVariable c found name value).renumber ρ := by
  rw [bindVariable, bindVariable]
  split <;> rfl

/-- Reading a node goes along with renumbering. -/
theorem readNode_renumber (found : Findings) (n : Node) :
    readNode c (file.renumber ρ) (found.renumber ρ) n =
      (readNode c file found n).renumber ρ := by
  have hclass : ∀ name value, readClass c (file.renumber ρ) (found.renumber ρ) name value =
      (readClass c file found name value).renumber ρ :=
    fun name value => List.foldl_hom (Findings.renumber ρ) (readDecorator_renumber ρ c file name)
  simp only [readNode]
  split
  · split
    · exact readCall_renumber ρ c file found _ _
    · rfl
  · exact bindVariable_renumber ρ c found _ _
  · exact bindVariable_renumber ρ c found _ _
  · exact hclass _ _
  · exact hclass _ _
  · rfl

/-- A file registers the same under another id. -/
theorem ofFile_renumber : ofFile c (file.renumber ρ) =
    ((ofFile c file).1.map (·.renumber ρ), (ofFile c file).2) := by
  have hread : file.module.nodes.foldl (readNode c (file.renumber ρ)) (Findings.renumber ρ {}) =
      (file.module.nodes.foldl (readNode c file) {}).renumber ρ :=
    List.foldl_hom (Findings.renumber ρ) (readNode_renumber ρ c file)
  have hnodes : (file.renumber ρ).module.nodes.foldl (readNode c (file.renumber ρ)) {} =
      (file.module.nodes.foldl (readNode c file) {}).renumber ρ := hread
  rw [ofFile, ofFile, hnodes, Findings.renumber, List.map_map, List.map_map]
  rfl

end Registration

namespace Workspace.Renumbers

variable {ρ : Nat → Nat} {w w' : Workspace} {s s' : Surface}

/-- Types that are written in the file of a component have the same schemas. -/
theorem schemaOf (h : Renumbers ρ w w') (hs : SameSurface w ρ s s') :
    s'.schemaOf w' = s.schemaOf w := by
  funext type
  exact h.schemaIn (.ofFile hs.file) type

/-! ## Properties -/

/-- A field declares the same property, given what its declaration says about it. -/
theorem fieldProperty (hs : SameSurface w ρ s s') : s'.fieldProperty = s.fieldProperty := by
  funext field schema required explicitName value source
  rw [Surface.fieldProperty, Surface.fieldProperty, hs.file.docsAt]

/-- A decorated field declares the same property. -/
theorem decoratedProperty? (h : Renumbers ρ w w') (hs : SameSurface w ρ s s') :
    Surface.decoratedProperty? w' s' = Surface.decoratedProperty? w s := by
  funext field
  simp only [Surface.decoratedProperty?, h.conventions, h.schemaOf hs, fieldProperty hs]

/-- A field that a factory makes declares the same property. -/
theorem factoryProperty? (h : Renumbers ρ w w') (hs : SameSurface w ρ s s') :
    Surface.factoryProperty? w' s' = Surface.factoryProperty? w s := by
  funext field
  simp only [Surface.factoryProperty?, h.conventions, h.schemaOf hs, fieldProperty hs]

/-- The same members of the input shape are events and no properties. -/
theorem isEventMember (c : Conventions) {m m' : ShapeMember} (hm : SameMember w ρ m m') :
    Surface.isEventMember c m' = Surface.isEventMember c m := by
  rw [Surface.isEventMember, Surface.isEventMember, hm.name, isSome_eq_of_rel hm.callback]

/-- A member of the input shape declares the same property. -/
theorem shapeProperty? (h : Renumbers ρ w w') (hs : SameSurface w ρ s s') {m m' : ShapeMember}
    (hm : SameMember w ρ m m') :
    Surface.shapeProperty? w' s' m' = Surface.shapeProperty? w s m := by
  simp only [Surface.shapeProperty?, h.conventions, isEventMember _ hm, hm.name, hm.type,
    hm.optional, hm.anchor, hm.scope.file.docsAt, h.schemaIn hm.scope, hs.paramDefaults]

/-- A component has the same properties. -/
theorem properties (h : Renumbers ρ w w') (hs : SameSurface w ρ s s') :
    s'.properties w' = s.properties w := by
  have hlegacy : s'.addLegacy = s.addLegacy := by
    funext found entry
    cases entry with
    | keyValue key value => simp only [Surface.addLegacy, hs.file.docsAt]
    | _ => rfl
  have hshape : s'.shape.filterMap (Surface.shapeProperty? w' s') =
      s.shape.filterMap (Surface.shapeProperty? w s) :=
    filterMap_eq_of_forall₂ (fun _ _ hm => h.shapeProperty? hs hm) hs.shape
  have hdeclared : Surface.declaredProperties w' s' = Surface.declaredProperties w s := by
    simp only [Surface.declaredProperties, hs.implementedBy, h.conventions,
      h.decoratedProperty? hs, h.factoryProperty? hs, hshape]
  rw [Surface.properties, Surface.properties, hdeclared, hlegacy, hs.implementedBy]

/-! ## Events -/

/-- A member of the input shape stands for the same event. -/
theorem callbackEvent? (h : Renumbers ρ w w') {m m' : ShapeMember} (hm : SameMember w ρ m m') :
    Surface.callbackEvent? w' m' = Surface.callbackEvent? w m := by
  rw [Surface.callbackEvent?, Surface.callbackEvent?, h.conventions, hm.name, hm.anchor,
    hm.scope.file.docsAt]
  cases w.conventions.eventPart? m.name with
  | none => rfl
  | some part =>
      obtain ⟨_, _, _, callback, _, _⟩ := m
      obtain ⟨_, _, _, callback', _, _⟩ := m'
      cases hm.callback with
      | none => rfl
      | some hcallback =>
          dsimp only
          rw [h.payloadOf hcallback]

/-- A constructor call makes the same event value. -/
theorem construction? (h : Renumbers ρ w w') (hs : SameSurface w ρ s s') :
    Surface.construction? w' s' = Surface.construction? w s := by
  funext callee typeArgs args
  simp only [Surface.construction?, Surface.payload?, h.schemaOf hs]

/-- A call dispatches the same event value. -/
theorem dispatched? (h : Renumbers ρ w w') (hs : SameSurface w ρ s s') :
    Surface.dispatched? w' s' = Surface.dispatched? w s := by
  funext walk callee args
  simp only [Surface.dispatched?, h.conventions, h.construction? hs]

/-- Entering a node teaches the same. -/
theorem enter (h : Renumbers ρ w w') (hs : SameSurface w ρ s s') :
    Surface.Walk.enter w' s' = Surface.Walk.enter w s := by
  funext anchors walk n
  simp only [Surface.Walk.enter, h.dispatched? hs, h.construction? hs, Surface.enclosingDocs,
    hs.file.docTextAt?]

/-- Walking through a node teaches the same. -/
theorem visit (h : Renumbers ρ w w') (hs : SameSurface w ρ s s') (n : Node) :
    ∀ anchors walk, Surface.Walk.visit w' s' anchors walk n =
      Surface.Walk.visit w s anchors walk n := by
  intro anchors walk
  have hchildren : ∀ c ∈ n.children, ∀ anchors walk,
      Surface.Walk.visit w' s' anchors walk c = Surface.Walk.visit w s anchors walk c :=
    fun c hc => visit h hs c
  rw [Surface.Walk.visit, Surface.Walk.visit, h.enter hs]
  simp only [hchildren _ (Subtype.property _)]
termination_by sizeOf n
decreasing_by exact Node.sizeOf_lt_of_mem n c hc

/-- The calls in the body of a component dispatch the same events. -/
theorem dispatchedEvents (h : Renumbers ρ w w') (hs : SameSurface w ρ s s') :
    Surface.dispatchedEvents w' s' = Surface.dispatchedEvents w s := by
  have hmember : Surface.Walk.visitMember w' s' = Surface.Walk.visitMember w s := by
    funext walk m
    rw [Surface.Walk.visitMember, Surface.Walk.visitMember, h.visit hs]
  simp only [Surface.dispatchedEvents, hs.implementedBy, hs.body, hmember, h.visit hs]

/-- A component has the same events. -/
theorem events (h : Renumbers ρ w w') (hs : SameSurface w ρ s s') :
    s'.events w' = s.events w := by
  have hcallbacks : Surface.callbackEvents w' s' = Surface.callbackEvents w s :=
    filterMap_eq_of_forall₂ (fun _ _ hm => h.callbackEvent? hm) hs.shape
  rw [Surface.events, Surface.events, hcallbacks, h.dispatchedEvents hs, Surface.documentedEvents,
    Surface.documentedEvents, hs.docs]

/-- An implementation makes the same component of a tag. -/
theorem componentOf (h : Renumbers ρ w w') (hs : SameSurface w ρ s s') (tagName : String) :
    w'.componentOf tagName s' = w.componentOf tagName s := by
  rw [Workspace.componentOf, Workspace.componentOf, h.properties hs, h.events hs, hs.name,
    hs.file.shownPath]

/-! ## Implementations -/

/-- Adding members keeps surfaces the same. -/
theorem addShape (hs : SameSurface w ρ s s') {members members' : List ShapeMember}
    (hmembers : SameShape w ρ members members') :
    SameSurface w ρ (s.addShape members) (s'.addShape members') :=
  { hs with shape := hs.shape.merge hmembers }

/-- Reading a class keeps surfaces the same. -/
theorem readClass (h : Renumbers ρ w w') (hs : SameSurface w ρ s s') (value : ClassDef) :
    SameSurface w ρ (s.readClass w value) (s'.readClass w' value) := by
  have hscope : SameScope w ρ (.ofFile s.file) (.ofFile s'.file) := .ofFile hs.file
  refine List.rel_foldl (R := SameShape w ρ) (fun _ _ hbefore _ _ hmembers => ?_) (addShape ?_ ?_)
    (List.rel_map (R := Eq) ?_ (List.forall₂_same.mpr fun _ _ => rfl))
  · exact addShape hbefore hmembers
  · exact { hs with implementedBy := rfl }
  · split
    · exact h.membersOf h.expander hscope _
    · exact .nil
  · rintro parent _ rfl
    dsimp only
    split
    · exact h.namedMembers h.expander hscope _ _
    · exact .nil

/-- Reading a function keeps surfaces the same. -/
theorem readFunction (h : Renumbers ρ w w') (hs : SameSurface w ρ s s') (param : Option Pattern)
    (body : Option Body) :
    SameSurface w ρ (s.readFunction w param body) (s'.readFunction w' param body) := by
  have hbody : SameSurface w ρ { s with body := body } { s' with body := body } :=
    { hs with body := rfl }
  have hdefaults : ∀ defaults : Dictionary Json,
      SameSurface w ρ { s with body := body, paramDefaults := defaults }
        { s' with body := body, paramDefaults := defaults } :=
    fun _ => { hs with body := rfl, paramDefaults := rfl }
  rw [Surface.readFunction, Surface.readFunction]
  cases param.bind Surface.propsParam? with
  | none => exact hbody
  | some props =>
      obtain ⟨pattern, type⟩ := props
      dsimp only
      cases type with
      | none =>
          cases pattern with
          | object entries _ => exact hdefaults _
          | _ => exact hbody
      | some type =>
          have hshape := h.membersOf h.expander (.ofFile hs.file) type
          cases pattern with
          | object entries _ => exact addShape (hdefaults _) hshape
          | _ => exact addShape hbody hshape

/-- Reading a declared function keeps surfaces the same. -/
theorem readDeclared (h : Renumbers ρ w w') (hs : SameSurface w ρ s s') (value : Source.Function) :
    SameSurface w ρ (s.readDeclared w value) (s'.readDeclared w' value) :=
  h.readFunction hs _ _

/-- Reading a class or a function that stands for itself keeps surfaces the same. -/
theorem readPlain? (h : Renumbers ρ w w') (hs : SameSurface w ρ s s') (init : Expr) :
    Option.Rel (SameSurface w ρ) (Surface.readValue?.readPlain? w s init)
      (Surface.readValue?.readPlain? w' s' init) := by
  cases init with
  | classExpr value => exact .some (h.readClass hs value)
  | arrow params body _ => exact .some (h.readFunction hs _ _)
  | arrowTo params value _ => exact .some (h.readFunction hs _ _)
  | function value => exact .some (h.readDeclared hs value)
  | _ => exact .none

/-- Reading the value of a variable keeps surfaces the same. -/
theorem readValue? (h : Renumbers ρ w w') (depth : Nat) : ∀ {s s' : Surface} (init : Expr),
    SameSurface w ρ s s' →
      Option.Rel (SameSurface w ρ) (Surface.readValue? w depth s init)
        (Surface.readValue? w' depth s' init) := by
  induction depth with
  | zero => exact fun init hs => h.readPlain? hs init.unwrapped
  | succ depth ih =>
      intro s s' init hs
      have hwraps : Surface.wraps w' = Surface.wraps w := by
        funext callee
        rw [Surface.wraps, Surface.wraps, h.conventions]
      rw [Surface.readValue?, Surface.readValue?]
      split
      · split
        · exact .none
        · rw [hwraps]
          split
          · split
            · -- A wrapped name is looked up, and what it names is read in the file of that.
              rename_i name _
              rw [hs.file.2, value?, value?, h.resolve? hs.file.1]
              cases hd : w.resolve? .value s.file name with
              | none => exact .none
              | some d =>
                  have hfile : SameFile w ρ d.file (d.renumber ρ).file :=
                    ⟨(resolve?_declares hd).file_mem, rfl⟩
                  have hs : SameSurface w ρ { s with file := d.file }
                      { s' with file := (d.renumber ρ).file } := { hs with file := hfile }
                  obtain ⟨_, _, node, _, _⟩ := d
                  cases node with
                  | classNode value => exact .some (h.readClass hs value)
                  | functionNode value => exact .some (h.readDeclared hs value)
                  | variableNode init type =>
                      cases init with
                      | none => exact .none
                      | some init => exact ih init hs
                  | interfaceNode | aliasNode | enumNode => exact .none
            · exact ih _ hs
          · exact .none
      · exact h.readPlain? hs _

/-- A declaration has the same surface or the same fault. -/
theorem ofDeclaration (h : Renumbers ρ w w') {d : Declaration} (hfile : d.file ∈ w.program.files) :
    (∃ s s', Surface.ofDeclaration w d = .ok s ∧
        Surface.ofDeclaration w' (d.renumber ρ) = .ok s' ∧ SameSurface w ρ s s') ∨
      ∃ fault, Surface.ofDeclaration w d = .error fault ∧
        Surface.ofDeclaration w' (d.renumber ρ) = .error fault := by
  have hsame : SameFile w ρ d.file (d.renumber ρ).file := ⟨hfile, rfl⟩
  obtain ⟨name, file, node, anchors, start⟩ := d
  have hbare : SameSurface w ρ (.bare name file (file.docsAt anchors))
      (.bare name (file.renumber ρ) ((file.renumber ρ).docsAt anchors)) :=
    ⟨rfl, hsame, rfl, rfl, .nil, rfl, rfl⟩
  rw [Declaration.renumber, Surface.ofDeclaration, Surface.ofDeclaration]
  cases node with
  | classNode value => exact Or.inl ⟨_, _, rfl, rfl, h.readClass hbare value⟩
  | functionNode value => exact Or.inl ⟨_, _, rfl, rfl, h.readDeclared hbare value⟩
  | variableNode init type =>
      cases init with
      | none => exact Or.inr ⟨_, rfl, rfl⟩
      | some init =>
          have hvalue := h.readValue? Surface.wrapperDepth init hbare
          -- Both values are read or neither is; `hvalue` has to be split for both at once.
          dsimp only
          generalize Surface.readValue? w _ _ init = read at hvalue ⊢
          generalize Surface.readValue? w' _ _ init = read' at hvalue ⊢
          cases hvalue with
          | none => exact Or.inr ⟨_, rfl, rfl⟩
          | some hs =>
              dsimp only
              split
              · exact Or.inl ⟨_, _, rfl, rfl,
                  addShape hs (h.membersOf h.expander (.ofFile hsame) _)⟩
              · exact Or.inl ⟨_, _, rfl, rfl, hs⟩
  | interfaceNode | aliasNode | enumNode => exact Or.inr ⟨_, rfl, rfl⟩

/-- Aliases lead to the same implementation. -/
theorem followAliases (h : Renumbers ρ w w') (depth : Nat) : ∀ {d : Declaration},
    d.file ∈ w.program.files →
      w'.followAliases depth (d.renumber ρ) = (w.followAliases depth d).renumber ρ ∧
        (w.followAliases depth d).file ∈ w.program.files := by
  induction depth with
  | zero => exact fun hfile => ⟨rfl, hfile⟩
  | succ depth ih =>
      intro d hfile
      have htarget : w'.aliasTarget? (d.renumber ρ) = w.aliasTarget? d := by
        simp only [Workspace.aliasTarget?, h.conventions]
        rfl
      have hvalue : (w.aliasTarget? d).bind (w'.value? (d.renumber ρ).file) =
          ((w.aliasTarget? d).bind (w.value? d.file)).map (·.renumber ρ) := by
        cases w.aliasTarget? d with
        | none => rfl
        | some name => exact h.resolve? hfile name
      rw [Workspace.followAliases, Workspace.followAliases, htarget, hvalue]
      cases htarget : (w.aliasTarget? d).bind (w.value? d.file) with
      | none => exact ⟨rfl, hfile⟩
      | some target =>
          obtain ⟨name, -, hd⟩ := Option.bind_eq_some_iff.mp htarget
          exact ih (resolve?_declares hd).file_mem

/-- A warning about a registration does not tell ids. -/
theorem registrationWarning_renumber (kind : DiagnosticKind) (message : String)
    (file : SourceFile) (r : Registration) :
    registrationWarning kind message (file.renumber ρ) (r.renumber ρ) =
      registrationWarning kind message file r :=
  rfl

/-- **Components in renumbered files**: a registration makes the same component in a file and in its
    copy, or fails with the same diagnostic. -/
theorem registered (h : Renumbers ρ w w') {file : SourceFile} (hfile : file ∈ w.program.files)
    (r : Registration) :
    w'.registered (file.renumber ρ) (r.renumber ρ) = w.registered file r := by
  have hsame : SameFile w ρ file (file.renumber ρ) := ⟨hfile, rfl⟩
  simp only [Workspace.registered, surfaceOf, registrationWarning_renumber,
    Registration.renumber_tagName, Registration.renumber_target]
  cases r.target with
  | inlineClass value =>
      have hbare : SameSurface w ρ (.bare r.tagName file {})
          (.bare r.tagName (file.renumber ρ) {}) := ⟨rfl, hsame, rfl, rfl, .nil, rfl, rfl⟩
      simp only [Surface.ofClass, Except.map, h.componentOf (h.readClass hbare value)]
  | named name =>
      dsimp only
      rw [value?, value?, h.resolve? hfile]
      cases hd : w.resolve? .value file name with
      | none => simp only [Option.map_none, Except.map]
      | some d =>
          obtain ⟨hfollow, hmem⟩ := h.followAliases aliasDepth (resolve?_declares hd).file_mem
          dsimp only [Option.map_some]
          rw [hfollow]
          rcases h.ofDeclaration hmem with ⟨s, s', hread, hread', hs⟩ | ⟨fault, hread, hread'⟩
          · simp only [hread, hread', Except.map, h.componentOf hs]
          · simp only [hread, hread', Except.map]

/-- A registration adds the same to the books. -/
theorem addBooks (h : Renumbers ρ w w') (books : Books) (r : Registration) :
    Books.add w' books (r.renumber ρ) = Books.add w books r := by
  rw [Books.add, Books.add, Registration.renumber, h.files]
  cases hfile : w.program.files[r.fileId]? with
  | none => rfl
  | some file =>
      have hregistered := h.registered (List.mem_of_getElem? hfile) r
      rw [Registration.renumber] at hregistered
      rw [Option.map_some]
      dsimp only
      rw [hregistered]
      rfl

/-- **Assembly of renumbered files**: where the same registrations and the same refusals are
    discovered, the same catalog is assembled with the same diagnostics. -/
theorem assemble (h : Renumbers ρ w w')
    (hregistrations : w'.discovered.1 = w.discovered.1.map (·.renumber ρ))
    (hrefused : w'.discovered.2 = w.discovered.2) (runtime : Runtime) :
    w'.assemble runtime = w.assemble runtime := by
  have hbooks : (fun books r => Books.add w' books (Registration.renumber ρ r)) = Books.add w := by
    funext books r
    exact h.addBooks books r
  simp only [Workspace.assemble, hregistrations, hrefused, List.foldl_map, hbooks]

end Workspace.Renumbers

end ElementCatalog
