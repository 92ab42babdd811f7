import ElementCatalog.Component.Model
import ElementCatalog.Component.Surface
import ElementCatalog.Source.Node
import ElementCatalog.Text.LetterCase

/-!
# Events — what a component emits

Events are named by the documentation of the component, by the callbacks of its input shape and by
the calls in its body that dispatch an event value. An event is known by its name, and of several
sources the last one counts, in this order.
-/

namespace ElementCatalog

open Source (Expr Property Node Stmt Pattern ClassMember Declarator Position TypeUse)

namespace Surface

/-- The kind of events that are not constructed in sight. -/
def plainEventKind : String := "CustomEvent"

/-! ## Documentation and callbacks -/

/-- The events that the documentation names. -/
def documentedEvents (s : Surface) : List EventDescriptor :=
  s.docs.fires.map fun fired =>
    { name := fired.name
      kind := plainEventKind
      payload := none
      source := .documentation
      bubbles := none
      composed := none
      description := fired.description
      deprecated := false }

/-- The event that a member of the input shape stands for. -/
def callbackEvent? (w : Workspace) (member : ShapeMember) : Option EventDescriptor :=
  match w.conventions.eventPart? member.name, member.callback with
  | some part, some callback =>
    let docs := member.scope.file.docsAt [member.anchor]
    some
      { name := docs.eventName.getD (Text.lowerFirst part)
        kind := plainEventKind
        payload := w.payloadOf callback
        source := .callback
        bubbles := none
        composed := none
        description := docs.description
        deprecated := docs.deprecated }
  | _, _ => none

/-- The events that the callbacks of the input shape stand for. -/
def callbackEvents (w : Workspace) (s : Surface) : List EventDescriptor :=
  s.shape.filterMap (callbackEvent? w)

/-! ## Event values -/

/-- An event value that is constructed in the body of a component. -/
structure Construction where
  name : String
  kind : String
  payload : Option Schema
  bubbles : Option Bool
  composed : Option Bool

/-- The payload of an event value: the value of its details, or else the type that it is given. -/
def payload? (w : Workspace) (s : Surface) (typeArgs : List TypeUse)
    (options : Option (List Property)) : Option Schema :=
  let details := options.bind fun entries => Property.value? entries "detail"
  let given := typeArgs.head?.map fun arg => s.schemaOf w arg.type
  let mentioned := options.any fun entries => Property.has entries "detail"
  ((details.bind (inferred? (s.schemaOf w))).or given).or
    (if mentioned then some .unconstrained else none)

/-- The event value that a constructor call makes: an event class with a literal name. -/
def construction? (w : Workspace) (s : Surface) (callee : Expr) (typeArgs : List TypeUse)
    (args : List Expr) : Option Construction := do
  let kind ← callee.name?
  guard (kind.endsWith "Event")
  let name ← args.head?.bind fun arg => arg.argument.string?
  let options := args[1]?.bind fun arg => arg.argument.entries?
  let flag (key : String) : Option Bool := options.bind fun entries => Property.bool? entries key
  some
    { name := name
      kind := kind
      payload := payload? w s typeArgs options
      bubbles := flag "bubbles"
      composed := flag "composed" }

/-! ## Dispatch calls -/

/-- What is known at one point of the walk through a body: the event values that variables hold, and
    the events found so far. -/
structure Walk where
  held : Dictionary Construction := []
  events : List EventDescriptor := []

/-- The event value that a call dispatches. -/
def dispatched? (w : Workspace) (s : Surface) (walk : Walk) (callee : Expr) (args : List Expr) :
    Option Construction :=
  match callee.name?, args with
  | some method, [arg] =>
    if w.conventions.isDispatchMethod method then
      match arg.argument.unwrapped with
      | .new callee typeArgs args => construction? w s callee typeArgs args
      | .ident name => Dictionary.find? walk.held name
      | _ => none
    else none
  | _, _ => none

/-- The documentation of the innermost enclosing part that has any. -/
def enclosingDocs (s : Surface) (anchors : List (List Position)) : DocBlock :=
  match anchors.findSome? s.file.docTextAt? with
  | some text => DocBlock.parse text.toList
  | none => {}

/-- The event that a dispatched value stands for. -/
def Construction.toEvent (c : Construction) (docs : DocBlock) : EventDescriptor :=
  { name := c.name
    kind := c.kind
    payload := c.payload
    source := .dispatch
    bubbles := c.bubbles
    composed := c.composed
    description := docs.description
    deprecated := docs.deprecated }

/-- Forget the event values that parameters hide. -/
def Walk.hide (walk : Walk) (params : List Pattern) : Walk :=
  { walk with
    held := params.foldl
      (fun held param =>
        match param.undecorated with
        | .ident name _ => Dictionary.erase held name
        | _ => held)
      walk.held }

/-- What is known after entering a node, before its parts are visited. -/
def Walk.enter (w : Workspace) (s : Surface) (anchors : List (List Position)) (walk : Walk) :
    Node → Walk
  | .expr (.call _ callee _ args) =>
    match dispatched? w s walk callee args with
    | some value => { walk with events := walk.events ++ [value.toEvent (s.enclosingDocs anchors)] }
    | none => walk
  | .declarator ⟨_, .ident name _, some init⟩ =>
    match init.unwrapped with
    | .new callee typeArgs args =>
      match construction? w s callee typeArgs args with
      | some value => { walk with held := Dictionary.set walk.held name value }
      | none => walk
    | _ => walk
  | .function value => walk.hide value.params
  | .expr (.arrow params _ _) => walk.hide params
  | .expr (.arrowTo params _ _) => walk.hide params
  | _ => walk

/-- The places for documentation inside a node, innermost part first. -/
def innerAnchors (anchors : List (List Position)) : Node → List (List Position)
  | .stmt (.variableDecl start _) => [start] :: anchors
  | .stmt (.functionDecl _ value) => [value.start] :: anchors
  | _ => anchors

/-- What variables hold inside a node is forgotten after it. -/
def opensScope : Node → Bool
  | .function _ => true
  | .expr (.arrow _ _ _) => true
  | .expr (.arrowTo _ _ _) => true
  | _ => false

/-- Walk through a node. -/
def Walk.visit (w : Workspace) (s : Surface) (anchors : List (List Position)) (walk : Walk)
    (n : Node) : Walk :=
  let inside := n.children.attach.foldl
    (fun walk ⟨c, _⟩ => Walk.visit w s (innerAnchors anchors n) walk c) (walk.enter w s anchors n)
  if opensScope n then { inside with held := walk.held } else inside
termination_by sizeOf n
decreasing_by exact Node.sizeOf_lt_of_mem n c ‹_›

/-- The places before which the documentation of a member may stand. -/
def memberAnchors : ClassMember → List Position
  | .field start _ _ key _ _ => [start, key.start]
  | .method start _ _ key _ => [start, key.start]
  | .accessor start _ _ _ _ _ => [start]
  | .initializer start _ _ => [start]
  | .staticBlock start _ => [start]
  | .other start _ => [start]

/-- Walk through a member of a class. Nothing that its variables hold is known in the next one. -/
def Walk.visitMember (w : Workspace) (s : Surface) (walk : Walk) (m : ClassMember) : Walk :=
  { walk.visit w s [memberAnchors m] (.member m) with held := walk.held }

/-- The events that the calls in the body of a component dispatch. -/
def dispatchedEvents (w : Workspace) (s : Surface) : List EventDescriptor :=
  let members := (s.implementedBy.map (·.members)).getD []
  let walk := members.foldl (Walk.visitMember w s) {}
  let walk :=
    match s.body with
    | some (.block stmts) =>
      stmts.foldl (fun walk stmt => Walk.visit w s [] walk (.stmt stmt)) walk
    | some (.expr value) => walk.visit w s [] (.expr value)
    | none => walk
  walk.events

/-! ## All events -/

/-- Events under their names; the last of a name counts, in the place of the first. -/
def lastByName (events : List EventDescriptor) : Dictionary EventDescriptor :=
  events.foldl (fun found e => Dictionary.set found e.name e) []

/-- The events of a component. -/
def events (w : Workspace) (s : Surface) : List EventDescriptor :=
  Dictionary.values
    (lastByName (documentedEvents s ++ callbackEvents w s ++ dispatchedEvents w s))

end Surface

end ElementCatalog
