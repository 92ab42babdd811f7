import ElementCatalog.Proofs.EventPrecedence
import ElementCatalog.Source.OptionalCalls

/-!
# Optional dispatches — calls of dispatch methods of objects that may be missing

A dispatch call may be written in an optional form, `a?.b(c)` or `a.b?.(c)`.  Toward: the walk
overlooks exactly the calls that are written so, and finds everything else as before, so the events
of a component stay the same exactly if the event of such a call can be left out.  The route:

* what is constructed and what is dispatched is read alike in the rewritten source
  (`construction?_chained`, `dispatched?_chained`), so a node that is no marked call is entered
  alike (`enter_chained`);
* hence walking through a rewritten node is walking through its rewritten parts (`visit_chained`);
* walks that find events at calls, but none at marked ones, may be joined (`Finds.comp`), and so the
  whole walk is one (`exists_finds_visit`, `exists_finds_dispatchedEvents`).
-/

namespace ElementCatalog

open Source (ClassMember Expr Node OptionalMark Pattern Place Position Property Stmt TypeExpr
  TypeUse)

/-! ## Inferred schemas -/

section Inference

variable {mark? : Expr → Option OptionalMark} (read : TypeExpr → Schema)

mutual

/-- Calls say nothing about types, so the schema of a literal does not depend on them. -/
theorem inferred?_chained : ∀ e : Expr, inferred? read (e.chained mark?) = inferred? read e
  | .call start callee typeArgs args => by
      rcases Expr.chained_call_cases mark? start callee typeArgs args with
        ⟨-, h⟩ | ⟨-, first, object, h, -⟩ <;>
      · rw [h]
        rfl
  | .satisfies inner _ | .asConst inner | .nonNull inner | .paren inner => by
      rw [Expr.chained, inferred?, inferred?]
      exact inferred?_chained inner
  | .object properties => by
      rw [Expr.chained, inferred?, inferred?, inferredEntries_chained]
  | .array elements => by
      rw [Expr.chained, inferred?, inferred?, inferredItems_chained]
  | .unary operator operand => by
      rw [Expr.chained]
      cases operand with
      | call start callee typeArgs args =>
          rcases Expr.chained_call_cases mark? start callee typeArgs args with
            ⟨-, h⟩ | ⟨-, first, object, h, -⟩ <;>
          · rw [h]
            cases operator <;> rfl
      | _ => cases operator <;> simp only [Expr.chained, inferred?]
  | .asType _ (.mk _ _) => by rw [Expr.chained, TypeUse.chained, inferred?, inferred?]
  | .ident _ | .string _ | .number _ | .bigint | .boolean _ | .null | .template _ _ | .function _
  | .arrow _ _ _ | .arrowTo _ _ _ | .classExpr _ | .awaited _ | .operation _ | .assign _ _
  | .new _ _ _ | .member _ _ | .access _ | .instantiated _ _ | .spread _ | .hole
  | .optionalChain _ _ | .other _ => by simp only [Expr.chained, inferred?]

/-- The properties of an object literal do not depend on calls. -/
theorem inferredEntries_chained : ∀ (properties : List Property) (entries : Dictionary Schema),
    inferredEntries read entries (properties.map (Property.chained mark?)) =
      inferredEntries read entries properties
  | [], _ => rfl
  | property :: rest, entries => by
      rw [List.map_cons, inferredEntries, inferredEntries, inferredEntry_chained property,
        inferredEntries_chained rest]

/-- An entry of an object literal does not depend on calls. -/
theorem inferredEntry_chained : ∀ (property : Property) (entries : Dictionary Schema),
    inferredEntry read entries (property.chained mark?) = inferredEntry read entries property
  | .keyValue key value, entries => by
      rw [Property.chained, inferredEntry, inferredEntry, Source.Key.name?_chained,
        inferred?_chained value]
  | .shorthand _, _ | .withDefault _ _, _ | .method _ _, _ | .accessor _ _ _ _, _
  | .spread _, _ => by simp only [Property.chained, inferredEntry]

/-- The schema of the items of a list does not depend on calls. -/
theorem inferredItems_chained : ∀ elements : List Expr,
    inferredItems read (elements.map (Expr.chained mark?)) = inferredItems read elements
  | [] => rfl
  | element :: rest => by
      have hrest := inferredItems_chained rest
      have helement := congrArg (·.getD Schema.unconstrained) (inferred?_chained element)
      rw [List.map_cons]
      cases element with
      | spread | hole =>
          rw [Expr.chained]
          exact hrest
      | call start callee typeArgs args =>
          rcases Expr.chained_call_cases mark? start callee typeArgs args with
            ⟨-, h⟩ | ⟨-, first, object, h, -⟩ <;>
          · rw [h]
            rfl
      | _ =>
          rw [Expr.chained] at helement ⊢
          exact helement

end

end Inference

namespace Surface

variable {w : Workspace} {s : Surface} {mark? : Expr → Option OptionalMark}

/-! ## Event values -/

/-- The payload of an event value does not depend on calls. -/
theorem payload?_chained (typeArgs : List TypeUse) (options : Option (List Property)) :
    payload? w s (typeArgs.map (TypeUse.chained mark?))
        (options.map (List.map (Property.chained mark?))) =
      payload? w s typeArgs options := by
  have hgiven :
      ((typeArgs.map (TypeUse.chained mark?)).head?.map fun arg => s.schemaOf w arg.type) =
      typeArgs.head?.map fun arg => s.schemaOf w arg.type := by
    cases typeArgs with
    | nil => rfl
    | cons arg rest =>
        obtain ⟨type, inner⟩ := arg
        rw [List.map_cons, TypeUse.chained]
        rfl
  rw [payload?, payload?, hgiven]
  cases options with
  | none => rfl
  | some entries =>
      have hdetail : ((Property.value? entries "detail").map (Expr.chained mark?)).bind
          (inferred? (s.schemaOf w)) =
          (Property.value? entries "detail").bind (inferred? (s.schemaOf w)) := by
        rw [Option.bind_map]
        congr 1
        exact funext (inferred?_chained (s.schemaOf w))
      simp only [Option.map_some, Option.bind_some, Option.any_some, Property.value?_chained,
        hdetail, Property.has_chained]

/-- The event value that a constructor call makes does not depend on calls in it. -/
theorem construction?_chained (callee : Expr) (typeArgs : List TypeUse) (args : List Expr) :
    construction? w s (callee.chained mark?) (typeArgs.map (TypeUse.chained mark?))
        (args.map (Expr.chained mark?)) =
      construction? w s callee typeArgs args := by
  have hname : ((args.map (Expr.chained mark?)).head?.bind fun arg => arg.argument.string?) =
      args.head?.bind fun arg => arg.argument.string? := by
    rw [List.head?_map, Option.bind_map]
    congr 1
    funext arg
    exact (congrArg Expr.string? arg.argument_chained).trans arg.argument.string?_chained
  have hoptions : ((args.map (Expr.chained mark?))[1]?.bind fun arg => arg.argument.entries?) =
      (args[1]?.bind fun arg => arg.argument.entries?).map (List.map (Property.chained mark?)) := by
    rw [List.getElem?_map]
    cases args[1]? with
    | none => rfl
    | some arg =>
        rw [Option.map_some, Option.bind_some, Option.bind_some, Expr.argument_chained,
          Expr.entries?_chained]
  have hflag : ∀ (options : Option (List Property)) key,
      ((options.map (List.map (Property.chained mark?))).bind fun entries =>
        Property.bool? entries key) = options.bind fun entries => Property.bool? entries key := by
    intro options key
    cases options with
    | none => rfl
    | some entries => exact Property.bool?_chained entries key
  rw [construction?, construction?, Expr.name?_chained, hname, hoptions]
  refine bind_congr fun kind => bind_congr fun _ => bind_congr fun name => ?_
  dsimp only
  rw [payload?_chained, hflag, hflag]

/-- What a call dispatches does not depend on the calls in it. -/
theorem dispatched?_chained (walk : Walk) (callee : Expr) (args : List Expr) :
    dispatched? w s walk (callee.chained mark?) (args.map (Expr.chained mark?)) =
      dispatched? w s walk callee args := by
  rw [dispatched?.eq_def, dispatched?.eq_def, Expr.name?_chained]
  cases callee.name? with
  | none => rfl
  | some method =>
      rcases args with _ | ⟨arg, _ | ⟨second, rest⟩⟩
      · rfl
      · simp only [List.map_cons, List.map_nil, Expr.argument_chained, Expr.unwrapped_chained]
        congr 1
        cases arg.argument.unwrapped with
        | call start callee typeArgs args =>
            rcases Expr.chained_call_cases mark? start callee typeArgs args with
              ⟨-, h⟩ | ⟨-, first, object, h, -⟩ <;> rw [h]
        | new callee typeArgs args =>
            rw [Expr.chained]
            exact construction?_chained callee typeArgs args
        | _ => simp only [Expr.chained]
      · rfl

/-! ## Entering a node -/

/-- Plain parameters keep their names. -/
theorem plainName?_chained (p : Pattern) : (p.chained mark?).plainName? = p.plainName? := by
  rw [Pattern.plainName?, Pattern.plainName?, Pattern.undecorated_chained]
  cases p.undecorated <;> simp only [Pattern.chained]

/-- Parameters hide the same names. -/
theorem hide_chained (walk : Walk) (params : List Pattern) :
    walk.hide (params.map (Pattern.chained mark?)) = walk.hide params := by
  induction params generalizing walk with
  | nil => rfl
  | cons p rest ih =>
      have hfirst : walk.hide [p.chained mark?] = walk.hide [p] := by
        have hheld : (walk.hide [p.chained mark?]).held = (walk.hide [p]).held := by
          rw [held_hide_singleton, held_hide_singleton, plainName?_chained]
        exact congrArg (fun held => { walk with held := held }) hheld
      have hrest := ih (walk.hide [p])
      rw [← hfirst] at hrest
      exact hrest.trans (congrArg (Walk.hide · rest) hfirst)

/-- A node is a marked call. -/
def isMarkedNode (mark? : Expr → Option OptionalMark) : Node → Bool
  | .expr e => e.isMarked mark?
  | _ => false

/-- Only calls are marked. -/
theorem isMarkedNode_of_not_call (mark? : Expr → Option OptionalMark) {n : Node}
    (h : ∀ start callee typeArgs args, n ≠ .expr (.call start callee typeArgs args)) :
    isMarkedNode mark? n = false := by
  cases n with
  | expr e =>
      cases e with
      | call => exact absurd rfl (h _ _ _ _)
      | _ => rfl
  | _ => rfl

/-- A node that is no marked call is entered alike. -/
theorem enter_chained (anchors : List (List Position)) (walk : Walk) {n : Node}
    (h : isMarkedNode mark? n = false) :
    walk.enter w s anchors (n.chained mark?) = walk.enter w s anchors n := by
  cases n with
  | expr e =>
      cases e with
      | call start callee typeArgs args =>
          rcases Expr.chained_call_cases mark? start callee typeArgs args with
            ⟨-, hcall⟩ | ⟨hmarked, -⟩
          · rw [Node.chained, hcall, Walk.enter, Walk.enter, dispatched?_chained]
          · rw [isMarkedNode, hmarked] at h
            cases h
      | arrow params body inner | arrowTo params value inner =>
          rw [Node.chained, Expr.chained]
          exact hide_chained walk params
      | _ => simp only [Node.chained, Expr.chained, Walk.enter]
  | function f =>
      obtain ⟨start, params, decorators, body, typeParams, returnType⟩ := f
      rw [Node.chained, Source.Function.chained]
      exact hide_chained walk params
  | declarator d =>
      obtain ⟨start, target, init⟩ := d
      rw [Node.chained, Source.Declarator.chained, Expr.chained?_eq]
      cases init with
      | none => cases target <;> simp only [Pattern.chained, Option.map_none] <;> rfl
      | some init =>
          cases target with
          | ident name type =>
              rw [Pattern.chained, Option.map_some]
              simp only [Walk.enter, Expr.unwrapped_chained]
              cases init.unwrapped with
              | call start callee typeArgs args =>
                  rcases Expr.chained_call_cases mark? start callee typeArgs args with
                    ⟨-, h⟩ | ⟨-, first, object, h, -⟩ <;> rw [h]
              | new callee typeArgs args =>
                  rw [Expr.chained]
                  simp only [construction?_chained]
              | _ => simp only [Expr.chained]
          | _ =>
              simp only [Pattern.chained]
              rfl
  | _ => rfl

/-- Nodes that are no calls keep what walks look for inside them. -/
theorem opensScope_chained (n : Node) : opensScope (n.chained mark?) = opensScope n := by
  cases n with
  | expr e =>
      cases e with
      | call start callee typeArgs args =>
          rw [Node.chained]
          rcases Expr.chained_call_cases mark? start callee typeArgs args with
            ⟨-, h⟩ | ⟨-, first, object, h, -⟩ <;>
          · rw [h]
            rfl
      | _ => simp only [Node.chained, Expr.chained, opensScope]
  | _ => rfl

/-- Documentation stands at the same places. -/
theorem innerAnchors_chained (anchors : List (List Position)) (n : Node) :
    innerAnchors anchors (n.chained mark?) = innerAnchors anchors n := by
  cases n with
  | stmt stmt =>
      cases stmt with
      | functionDecl name value =>
          obtain ⟨start, params, decorators, body, typeParams, returnType⟩ := value
          rw [Node.chained, Stmt.chained, Source.Function.chained]
          rfl
      | _ =>
          rw [Node.chained, Stmt.chained]
          rfl
  | expr e => rfl
  | _ => rfl

/-- The documentation of a member of a class stands at the same places. -/
theorem memberAnchors_chained (m : ClassMember) :
    memberAnchors (m.chained mark?) = memberAnchors m := by
  cases m <;> simp only [ClassMember.chained, memberAnchors, Source.Key.start_chained]

/-! ## Walking through a node -/

/-- An access by an optional mark is walked through like a plain one. -/
theorem visit_optional_access (anchors : List (List Position)) (walk : Walk) (object : Expr)
    (name : String) :
    walk.visit w s anchors (.expr (.optionalChain [object] [])) =
      walk.visit w s anchors (.expr (.member object name)) := by
  rw [visit_eq, visit_eq]
  rfl

/-- Walking through a rewritten node is walking through its rewritten parts, after entering the node
    as it was if it is no marked call. -/
theorem visit_chained (anchors : List (List Position)) (walk : Walk) (n : Node) :
    walk.visit w s anchors (n.chained mark?) =
      let inside := (n.children.map (Node.chained mark?)).foldl
        (Walk.visit w s (innerAnchors anchors n))
        (if isMarkedNode mark? n then walk else walk.enter w s anchors n)
      if opensScope n then { inside with held := walk.held } else inside := by
  rw [visit_eq, opensScope_chained, innerAnchors_chained]
  by_cases hcall : ∃ start callee typeArgs args, n = .expr (.call start callee typeArgs args)
  · obtain ⟨start, callee, typeArgs, args, rfl⟩ := hcall
    have hparts : (args.map (Expr.chained mark?)).map Node.expr ++
          (typeArgs.map (TypeUse.chained mark?)).map Node.typeUse =
        (args.map Node.expr ++ typeArgs.map Node.typeUse).map (Node.chained mark?) := by
      rw [List.map_append, List.map_map, List.map_map, List.map_map, List.map_map]
      rfl
    have hchildren : (Node.expr (.call start callee typeArgs args)).children.map
        (Node.chained mark?) =
        .expr (callee.chained mark?) ::
          (args.map Node.expr ++ typeArgs.map Node.typeUse).map (Node.chained mark?) := rfl
    rcases Expr.chained_call_cases mark? start callee typeArgs args with
      ⟨hunmarked, h⟩ | ⟨hmarked, first, object, h, ⟨name, hcallee⟩, hfirst⟩
    · have hsame : ((Node.expr (.call start callee typeArgs args)).chained mark?).children =
          .expr (callee.chained mark?) ::
            (args.map Node.expr ++ typeArgs.map Node.typeUse).map (Node.chained mark?) := by
        rw [Node.chained, h, ← hparts]
        rfl
      have hnode : isMarkedNode mark? (.expr (.call start callee typeArgs args)) = false :=
        hunmarked
      rw [enter_chained anchors walk hnode, hsame, hchildren, hnode]
      rfl
    · -- A marked call is entered without notice, and its first part is walked through like the
      -- callee.
      have hvisit : walk.visit w s anchors (.expr first) =
          walk.visit w s anchors (.expr (callee.chained mark?)) := by
        rcases hfirst with rfl | rfl
        · rfl
        · rw [hcallee]
          exact visit_optional_access anchors walk object name
      have hsame : ((Node.expr (.call start callee typeArgs args)).chained mark?).children =
          .expr first ::
            (args.map Node.expr ++ typeArgs.map Node.typeUse).map (Node.chained mark?) := by
        rw [Node.chained, h, ← hparts]
        rfl
      have henter : walk.enter w s anchors
          ((Node.expr (.call start callee typeArgs args)).chained mark?) = walk := by
        rw [Node.chained, h]
        rfl
      have hinner : innerAnchors anchors (.expr (.call start callee typeArgs args)) = anchors := rfl
      rw [henter, hsame, hchildren, isMarkedNode, hmarked, List.foldl_cons, List.foldl_cons, hinner,
        hvisit]
      rfl
  · have hnone : ∀ start callee typeArgs args, n ≠ .expr (.call start callee typeArgs args) :=
      fun start callee typeArgs args heq => hcall ⟨start, callee, typeArgs, args, heq⟩
    have hmarked := isMarkedNode_of_not_call mark? hnone
    rw [Node.children_chained n hnone, enter_chained anchors walk hmarked, hmarked]
    rfl

/-! ## Walks that find events at calls -/

/-- A walk finds events at calls, in order; and the same walk with some calls in their optional
    form, from wherever the same is held, finds those at the calls that are not marked, and holds
    the same. -/
structure Finds (P : Expr → Prop) (found : List (Expr × EventDescriptor)) (plain : Walk → Walk)
    (rewritten : (Expr → Option OptionalMark) → Walk → Walk) (walk : Walk) : Prop where
  calls : ∀ f ∈ found, P f.1
  events : (plain walk).events = walk.events ++ found.map (·.2)
  unmarked : ∀ mark? other, other.held = walk.held →
    (rewritten mark? other).held = (plain walk).held ∧
      (rewritten mark? other).events = other.events ++
        (found.filter fun f => !f.1.isMarked mark?).map (·.2)

section Finds

variable {P Q : Expr → Prop} {found more : List (Expr × EventDescriptor)}
  {plain plain' : Walk → Walk} {rewritten rewritten' : (Expr → Option OptionalMark) → Walk → Walk}
  {walk : Walk}

/-- Walks that leave the events alone, and hold the same, find none. -/
theorem Finds.none (h : (plain walk).events = walk.events)
    (h' : ∀ mark? other, other.held = walk.held →
      (rewritten mark? other).held = (plain walk).held ∧
        (rewritten mark? other).events = other.events) :
    Finds P [] plain rewritten walk := by
  refine ⟨fun f hf => absurd hf List.not_mem_nil, ?_, fun mark? other hheld => ?_⟩
  · rw [h, List.map_nil, List.append_nil]
  · rw [List.filter_nil, List.map_nil, List.append_nil]
    exact h' mark? other hheld

/-- Walks that find events may be joined. -/
theorem Finds.comp (h : Finds P found plain rewritten walk)
    (h' : Finds P more plain' rewritten' (plain walk)) :
    Finds P (found ++ more) (fun walk => plain' (plain walk))
      (fun mark? walk => rewritten' mark? (rewritten mark? walk)) walk := by
  refine ⟨?_, ?_, fun mark? other hheld => ?_⟩
  · intro f hf
    rcases List.mem_append.mp hf with hf | hf
    · exact h.calls f hf
    · exact h'.calls f hf
  · rw [h'.events, h.events, List.map_append, List.append_assoc]
  · obtain ⟨hheld, hevents⟩ := h.unmarked mark? other hheld
    obtain ⟨hheld', hevents'⟩ := h'.unmarked mark? _ hheld
    refine ⟨hheld', ?_⟩
    rw [hevents', hevents, List.filter_append, List.map_append, List.append_assoc]

/-- What is known of the calls at which events are found may be weakened. -/
theorem Finds.mono (h : Finds P found plain rewritten walk) (hP : ∀ e, P e → Q e) :
    Finds Q found plain rewritten walk :=
  ⟨fun f hf => hP f.1 (h.calls f hf), h.events, h.unmarked⟩

/-- After walks that find events it may be forgotten what is held. -/
theorem Finds.forget (h : Finds P found plain rewritten walk) :
    Finds P found (fun walk => { plain walk with held := walk.held })
      (fun mark? walk => { rewritten mark? walk with held := walk.held }) walk :=
  ⟨h.calls, h.events, fun mark? other hheld => ⟨hheld, (h.unmarked mark? other hheld).2⟩⟩

/-- Walks that find events one by one find events in a list. -/
theorem exists_finds_foldl {α : Type} {visit : Walk → α → Walk}
    {rewrite : (Expr → Option OptionalMark) → α → α} (l : List α)
    (h : ∀ a ∈ l, ∀ walk, ∃ found,
      Finds P found (visit · a) (fun mark? walk => visit walk (rewrite mark? a)) walk)
    (walk : Walk) :
    ∃ found, Finds P found (l.foldl visit ·)
      (fun mark? walk => (l.map (rewrite mark?)).foldl visit walk) walk := by
  induction l generalizing walk with
  | nil => exact ⟨[], .none rfl fun _ _ hheld => ⟨hheld, rfl⟩⟩
  | cons a rest ih =>
      obtain ⟨ha, hrest⟩ := List.forall_mem_cons.mp h
      obtain ⟨found, hfound⟩ := ha walk
      obtain ⟨more, hmore⟩ := ih hrest (visit walk a)
      exact ⟨found ++ more, hfound.comp hmore⟩

end Finds

/-! ## The whole walk -/

/-- Entering a node that is no call leaves the events alone and does not ask for them. -/
theorem enter_of_not_call (anchors : List (List Position)) (walk : Walk) {n : Node}
    (h : ∀ start callee typeArgs args, n ≠ .expr (.call start callee typeArgs args))
    (events : List EventDescriptor) :
    Walk.enter w s anchors { walk with events := events } n =
      { walk.enter w s anchors n with events := events } := by
  rw [Walk.enter.eq_def, Walk.enter.eq_def]
  split
  · exact absurd rfl (h _ _ _ _)
  · split
    · split <;> rfl
    · rfl
  · rfl
  · rfl
  · rfl
  · rfl

/-- What a call dispatches depends on what is held alone. -/
theorem dispatched?_congr {walk other : Walk} (h : other.held = walk.held) (callee : Expr)
    (args : List Expr) : dispatched? w s other callee args = dispatched? w s walk callee args := by
  obtain ⟨held, events⟩ := walk
  obtain ⟨held', events'⟩ := other
  obtain rfl : held' = held := h
  rfl

/-- A call that dispatches a value stands below a node. -/
def DispatchBelow (w : Workspace) (n : Node) (call : Expr) : Prop :=
  (∃ p, n.below? p = some (.expr call)) ∧ ∃ arg, DispatchCall w (.expr call) arg

/-- Dispatch calls below a part of a node stand below the node. -/
theorem DispatchBelow.of_mem {n c : Node} {call : Expr} (h : DispatchBelow w c call)
    (hc : c ∈ n.children) : DispatchBelow w n call := by
  obtain ⟨⟨p, hp⟩, hcall⟩ := h
  obtain ⟨i, hi⟩ := List.mem_iff_getElem?.mp hc
  refine ⟨⟨i :: p, ?_⟩, hcall⟩
  rw [Node.below?, hi, Option.bind_some, hp]

/-- Entering a node finds an event if the node is a call that dispatches a value. -/
theorem exists_finds_enter (w : Workspace) (s : Surface) (anchors : List (List Position)) (n : Node)
    (walk : Walk) :
    ∃ found, Finds (DispatchBelow w n) found (Walk.enter w s anchors · n)
      (fun mark? walk => if isMarkedNode mark? n then walk else walk.enter w s anchors n) walk := by
  by_cases hcall : ∃ start callee typeArgs args, n = .expr (.call start callee typeArgs args)
  · obtain ⟨start, callee, typeArgs, args, rfl⟩ := hcall
    rcases hvalue : dispatched? w s walk callee args with - | value
    · have henter : ∀ other : Walk, other.held = walk.held →
          other.enter w s anchors (.expr (.call start callee typeArgs args)) = other := by
        intro other hheld
        rw [Walk.enter, dispatched?_congr hheld, hvalue]
      refine ⟨[], .none ?_ fun mark? other hheld => ?_⟩
      · rw [henter walk rfl]
      · rw [henter walk rfl, henter other hheld, ite_self]
        exact ⟨hheld, rfl⟩
    · have henter : ∀ other : Walk, other.held = walk.held →
          other.enter w s anchors (.expr (.call start callee typeArgs args)) =
            { other with events := other.events ++ [value.toEvent (s.enclosingDocs anchors)] } := by
        intro other hheld
        rw [Walk.enter, dispatched?_congr hheld, hvalue]
      obtain ⟨arg, harg, -⟩ | ⟨-, hnone⟩ := dispatched?_cases w s walk start callee typeArgs args
      · refine ⟨[(.call start callee typeArgs args, value.toEvent (s.enclosingDocs anchors))],
          ?_, ?_, fun mark? other hheld => ?_⟩
        · intro f hf
          rw [List.mem_singleton.mp hf]
          exact ⟨⟨[], rfl⟩, arg, harg⟩
        · rw [henter walk rfl]
          rfl
        · rw [henter walk rfl, henter other hheld]
          cases hmarked : isMarkedNode mark? (.expr (.call start callee typeArgs args)) with
          | true =>
              have hcallMarked : (Expr.call start callee typeArgs args).isMarked mark? = true :=
                hmarked
              refine ⟨hheld, ?_⟩
              simp [hcallMarked]
          | false =>
              have hcallMarked : (Expr.call start callee typeArgs args).isMarked mark? = false :=
                hmarked
              refine ⟨hheld, ?_⟩
              simp [hcallMarked]
      · rw [hvalue] at hnone
        cases hnone
  · have hnone : ∀ start callee typeArgs args, n ≠ .expr (.call start callee typeArgs args) :=
      fun start callee typeArgs args heq => hcall ⟨start, callee, typeArgs, args, heq⟩
    have henter : ∀ other : Walk, other.held = walk.held →
        other.enter w s anchors n = { walk.enter w s anchors n with events := other.events } := by
      intro other hheld
      have hother : other = { walk with events := other.events } := by
        rw [← hheld]
      rw [hother, enter_of_not_call anchors walk hnone]
    refine ⟨[], .none ?_ fun mark? other hheld => ?_⟩
    · rw [henter walk rfl]
    · rw [isMarkedNode_of_not_call mark? hnone, if_neg Bool.false_ne_true, henter other hheld]
      exact ⟨rfl, rfl⟩

/-- Walking through a node finds the events of the dispatch calls below it. -/
theorem exists_finds_visit (w : Workspace) (s : Surface) (n : Node) :
    ∀ (anchors : List (List Position)) (walk : Walk), ∃ found,
      Finds (DispatchBelow w n) found (Walk.visit w s anchors · n)
        (fun mark? walk => walk.visit w s anchors (n.chained mark?)) walk := by
  induction n using Node.induction with
  | step n ih =>
      intro anchors walk
      obtain ⟨found, hfound⟩ := exists_finds_enter w s anchors n walk
      have hparts : ∀ c ∈ n.children, ∀ walk, ∃ found, Finds (DispatchBelow w n) found
          (Walk.visit w s (innerAnchors anchors n) · c)
          (fun mark? walk => walk.visit w s (innerAnchors anchors n) (c.chained mark?)) walk := by
        intro c hc walk
        obtain ⟨found, hfound⟩ := ih c hc (innerAnchors anchors n) walk
        exact ⟨found, hfound.mono fun _ hcall => hcall.of_mem hc⟩
      obtain ⟨more, hmore⟩ := exists_finds_foldl n.children hparts (walk.enter w s anchors n)
      have hinside := hfound.comp hmore
      refine ⟨found ++ more, ?_⟩
      simp only [visit_eq n, visit_chained]
      cases opensScope n with
      | true => exact hinside.forget
      | false => exact hinside

/-! ## Bodies -/

/-- The body of a function component with the marked calls in their optional form. -/
def chainedBody (mark? : Expr → Option OptionalMark) : Body → Body
  | .block stmts => .block (stmts.map (Stmt.chained mark?))
  | .expr value => .expr (value.chained mark?)

/-- A component with the marked calls in its bodies in their optional form. -/
def chained (mark? : Expr → Option OptionalMark) (s : Surface) : Surface :=
  { s with
    implementedBy := s.implementedBy.map fun k =>
      { k with members := k.members.map (ClassMember.chained mark?) }
    body := s.body.map (chainedBody mark?) }

/-- A call that dispatches a value stands in a body of a component. -/
def DispatchIn (w : Workspace) (s : Surface) (call : Expr) : Prop :=
  (∃ roots ∈ bodies s, ∃ place, Node.at? roots place = some (.expr call)) ∧
    ∃ arg, DispatchCall w (.expr call) arg

/-- Dispatch calls below a root of a body stand in the body. -/
theorem DispatchBelow.inBody {n : Node} {roots : List Node} {call : Expr}
    (h : DispatchBelow w n call) (hroots : roots ∈ bodies s) (hn : n ∈ roots) :
    DispatchIn w s call := by
  obtain ⟨⟨p, hp⟩, hcall⟩ := h
  obtain ⟨i, hi⟩ := List.mem_iff_getElem?.mp hn
  refine ⟨⟨roots, hroots, i :: p, ?_⟩, hcall⟩
  rw [Node.at?, hi, Option.bind_some, hp]

/-- Walking through the members of a class finds the events of the dispatch calls in them. -/
theorem exists_finds_members (w : Workspace) (s : Surface) (walk : Walk) :
    let members := (s.implementedBy.map (·.members)).getD []
    ∃ found, Finds (DispatchIn w s) found (members.foldl (Walk.visitMember w s) ·)
      (fun mark? walk =>
        (members.map (ClassMember.chained mark?)).foldl (Walk.visitMember w s) walk)
      walk := by
  intro members
  refine exists_finds_foldl members (fun m hm walk => ?_) walk
  have hbody : [Node.member m] ∈ bodies s :=
    List.mem_append_left _ (List.mem_map.mpr ⟨m, hm, rfl⟩)
  obtain ⟨found, hfound⟩ := exists_finds_visit w s (.member m) [memberAnchors m] walk
  refine ⟨found, ?_⟩
  simp only [Walk.visitMember, memberAnchors_chained]
  exact (hfound.mono fun _ hcall => hcall.inBody hbody (List.mem_singleton_self _)).forget

/-- The walk through the body of a function component. -/
def visitBody (w : Workspace) (s : Surface) (walk : Walk) : Option Body → Walk
  | some (.block stmts) => stmts.foldl (fun walk stmt => Walk.visit w s [] walk (.stmt stmt)) walk
  | some (.expr value) => walk.visit w s [] (.expr value)
  | none => walk

/-- Walking through the body of a function finds the events of the dispatch calls in it. -/
theorem exists_finds_visitBody (w : Workspace) (s : Surface) (walk : Walk) :
    ∃ found, Finds (DispatchIn w s) found (visitBody w s · s.body)
      (fun mark? walk => visitBody w s walk (s.body.map (chainedBody mark?))) walk := by
  cases hbody : s.body with
  | none => exact ⟨[], .none rfl fun _ _ hheld => ⟨hheld, rfl⟩⟩
  | some body =>
      cases body with
      | block stmts =>
          have hroots : stmts.map Node.stmt ∈ bodies s := by
            rw [bodies, hbody]
            exact List.mem_append_right _ (List.mem_singleton_self _)
          refine exists_finds_foldl stmts (fun stmt hstmt walk => ?_) walk
          obtain ⟨found, hfound⟩ := exists_finds_visit w s (.stmt stmt) [] walk
          exact ⟨found, hfound.mono fun _ hcall =>
            hcall.inBody hroots (List.mem_map.mpr ⟨stmt, hstmt, rfl⟩)⟩
      | expr value =>
          have hroots : [Node.expr value] ∈ bodies s := by
            rw [bodies, hbody]
            exact List.mem_append_right _ (List.mem_singleton_self _)
          obtain ⟨found, hfound⟩ := exists_finds_visit w s (.expr value) [] walk
          exact ⟨found, hfound.mono fun _ hcall =>
            hcall.inBody hroots (List.mem_singleton_self _)⟩

/-- The dispatched events of a component are found at the dispatch calls in its bodies, and those of
    the component with some calls in their optional form at the calls that are not marked. -/
theorem exists_finds_dispatchedEvents (w : Workspace) (s : Surface) :
    ∃ found : List (Expr × EventDescriptor), (∀ f ∈ found, DispatchIn w s f.1) ∧
      dispatchedEvents w s = found.map (·.2) ∧
      ∀ mark?, dispatchedEvents w (s.chained mark?) =
        (found.filter fun f => !f.1.isMarked mark?).map (·.2) := by
  obtain ⟨found, hfound⟩ := exists_finds_members w s {}
  obtain ⟨more, hmore⟩ := exists_finds_visitBody w s _
  have hall := hfound.comp hmore
  refine ⟨found ++ more, hall.calls, hall.events, fun mark? => ?_⟩
  have hfile : (s.chained mark?).file = s.file := rfl
  have hmembers : ((s.chained mark?).implementedBy.map (·.members)).getD [] =
      ((s.implementedBy.map (·.members)).getD []).map (ClassMember.chained mark?) := by
    rw [chained]
    cases s.implementedBy <;> rfl
  rw [dispatchedEvents, hmembers]
  simp only [visit_congr hfile, visitMember_congr hfile]
  exact (hall.unmarked mark? {} rfl).2

/-! ## Leaving an event out -/

/-- Some calls in their optional form leave the other sources of events alone. -/
theorem events_chained (w : Workspace) (s : Surface) (mark? : Expr → Option OptionalMark) :
    (s.chained mark?).events w = Dictionary.values (lastByName
      (documentedEvents s ++ callbackEvents w s ++ dispatchedEvents w (s.chained mark?))) := rfl

/-- **Optional dispatches**: the dispatched events of a component come from the dispatch calls in
    its bodies, one after another.  Those that are written in an optional form are overlooked, and
    all others are found as before.  So writing one dispatch call in an optional form leaves the
    events of the component as they are exactly if its event can be left out: a later one of its
    name counts or an earlier one is the same, and its name keeps its place. -/
theorem optional_dispatches_unnoticed_iff (w : Workspace) (s : Surface) :
    ∃ found : List (Expr × EventDescriptor),
      (∀ f ∈ found, DispatchIn w s f.1) ∧
      dispatchedEvents w s = found.map (·.2) ∧
      (∀ mark?, dispatchedEvents w (s.chained mark?) =
        (found.filter fun f => !f.1.isMarked mark?).map (·.2)) ∧
      (∀ mark?, (∀ f ∈ found, f.1.isMarked mark? = false) →
        (s.chained mark?).events w = s.events w) ∧
      ∀ mark? before call e after, found = before ++ (call, e) :: after →
        call.isMarked mark? = true → (∀ f ∈ before ++ after, f.1.isMarked mark? = false) →
          ((s.chained mark?).events w = s.events w ↔
            Dispensable (documentedEvents s ++ callbackEvents w s ++ before.map (·.2)) e
              (after.map (·.2))) := by
  obtain ⟨found, hcalls, hevents, hunmarked⟩ := exists_finds_dispatchedEvents w s
  have hkept : ∀ mark? (l : List (Expr × EventDescriptor)), (∀ f ∈ l, f.1.isMarked mark? = false) →
      (l.filter fun f => !f.1.isMarked mark?) = l := by
    intro mark? l h
    refine List.filter_eq_self.mpr fun f hf => ?_
    rw [h f hf]
    rfl
  refine ⟨found, hcalls, hevents, hunmarked, fun mark? h => ?_, ?_⟩
  · rw [events_chained, hunmarked, hkept mark? found h, ← hevents]
    rfl
  · rintro mark? before call e after rfl hcall h
    obtain ⟨hbefore, hafter⟩ := List.forall_mem_append.mp h
    have hothers : ((before ++ (call, e) :: after).filter fun f => !f.1.isMarked mark?) =
        before ++ after := by
      rw [List.filter_append, List.filter_cons, hkept mark? before hbefore,
        hkept mark? after hafter, hcall]
      rfl
    rw [events_chained, hunmarked, hothers, events, hevents, List.map_append, List.map_append,
      List.map_cons, ← List.append_assoc, ← List.append_assoc]
    exact values_insert_eq_iff

end Surface

end ElementCatalog
