import ElementCatalog.Proofs.RegistrationOutcomes

/-!
# Wrapper variables — which binding of a variable is registered

A variable that holds a wrapped implementation may be bound more than once: declared in several
functions or blocks, or assigned anew between two registrations.  Toward: all registrations of a
variable register one target, the one that the last of its bindings in the whole file leads to,
whatever scope that binding stands in and whether it comes before the registration or after it.  So a
registration means the binding that is visible at it exactly if this binding leads to the same
target as the last one.  The route: the last node that binds a name counts (`find?_bindings`), read
at its place, and one step of following a variable.
-/

namespace ElementCatalog.Registration

open Source (Expr Module Node Place Position TypeUse)

variable {c : Conventions} {file : SourceFile} {name : String}

/-! ## Bindings at places -/

/-- At a place a variable is given the value of a call, from which calls of wrapper factories lead to
    a target. -/
inductive WrapsAt (c : Conventions) (m : Module) (name : String) (place : Place) :
    RegistrationTarget → Prop where
  | mk {node : Node} {value callee : Expr} {start : Position} {typeArgs : List TypeUse}
    {args : List Expr} {target : RegistrationTarget} (hnode : m.nodeAt? place = some node)
    (hbinding : node.binding? = some (name, value))
    (hcall : value.unwrapped = .call start callee typeArgs args)
    (hstands : StandsFor c value target) : WrapsAt c m name place target

/-- What a node makes a variable wrap is what its value, a call, stands for. -/
theorem wrappedAt?_eq_some_iff {node : Node} {target : RegistrationTarget} :
    wrappedAt? c name node = some target ↔
      ∃ value start callee typeArgs args, node.binding? = some (name, value) ∧
        value.unwrapped = .call start callee typeArgs args ∧ StandsFor c value target := by
  rw [wrappedAt?, Option.bind_eq_some_iff]
  constructor
  · rintro ⟨⟨other, value⟩, hbinding, hvalue⟩
    obtain ⟨rfl, hwrapped⟩ := Option.ite_none_right_eq_some.mp hvalue
    have hstands := targetOf?_eq_some_iff.mp (targetOf?_of_wrappedBy? hwrapped)
    rw [wrappedBy?] at hwrapped
    split at hwrapped
    · next start callee typeArgs args hcall =>
        exact ⟨value, start, callee, typeArgs, args, hbinding, hcall, hstands⟩
    · cases hwrapped
  · rintro ⟨value, start, callee, typeArgs, args, hbinding, hcall, hstands⟩
    refine ⟨(name, value), hbinding, ?_⟩
    dsimp only
    rw [if_pos rfl, wrappedBy?_call hcall]
    exact targetOf?_eq_some_iff.mpr hstands

/-- A place makes a variable wrap what its node makes it wrap. -/
theorem wrapsAt_iff {place : Place} {target : RegistrationTarget} :
    WrapsAt c file.module name place target ↔
      (file.module.nodeAt? place).bind (wrappedAt? c name) = some target := by
  rw [Option.bind_eq_some_iff]
  constructor
  · rintro ⟨hnode, hbinding, hcall, hstands⟩
    exact ⟨_, hnode, wrappedAt?_eq_some_iff.mpr ⟨_, _, _, _, _, hbinding, hcall, hstands⟩⟩
  · rintro ⟨node, hnode, hwrapped⟩
    obtain ⟨_, _, _, _, _, hbinding, hcall, hstands⟩ := wrappedAt?_eq_some_iff.mp hwrapped
    exact ⟨hnode, hbinding, hcall, hstands⟩

/-- What a variable wraps in a file is what it is made to wrap at the last place that does so. -/
theorem isLast_bindings (c : Conventions) (file : SourceFile) (name : String) :
    Place.IsLast (WrapsAt c file.module name) (Dictionary.find? (bindings c file) name) := by
  -- The nodes of the module, last one first, are the nodes at its places.
  have hplaces : Dictionary.find? (bindings c file) name =
      file.module.places.reverse.findSome? fun place =>
        (file.module.nodeAt? place).bind (wrappedAt? c name) := by
    have hnodes : file.module.nodes.reverse.map some =
        file.module.places.reverse.map file.module.nodeAt? := by
      rw [List.map_reverse, List.map_reverse, file.module.map_nodeAt?_places]
    calc Dictionary.find? (bindings c file) name
        = (file.module.nodes.reverse.map some).findSome? (·.bind (wrappedAt? c name)) := by
          rw [find?_bindings, List.findSome?_map]
          rfl
      _ = _ := by
          rw [hnodes, List.findSome?_map]
          rfl
  rw [hplaces]
  refine (Place.isLast_findSome? (Node.pairwise_placesIn _) _).congr fun place target => ?_
  rw [← wrapsAt_iff, and_iff_right_iff_imp]
  rintro ⟨hnode, -, -, -⟩
  exact Node.mem_placesIn_iff.mpr (Option.isSome_iff_exists.mpr ⟨_, hnode⟩)

/-! ## Registrations of a variable -/

/-- The registrations that a place adds to its file, with the variables of the file followed. -/
def registeredAt (c : Conventions) (file : SourceFile) (place : Place) : List Registration :=
  (((file.module.nodeAt? place).map (atNode c file)).getD []).map (settled (bindings c file))

/-- A file lists the registrations of its places, in pre-order. -/
theorem registrations_ofFile_places (c : Conventions) (file : SourceFile) :
    (ofFile c file).1 = file.module.places.flatMap (registeredAt c file) := by
  have hsettled : ∀ place, registeredAt c file place =
      ((file.module.nodeAt? place).map fun node =>
        (atNode c file node).map (settled (bindings c file))).getD [] := by
    intro place
    rw [registeredAt]
    cases file.module.nodeAt? place with
    | none => rfl
    | some node => rfl
  calc (ofFile c file).1
      = file.module.nodes.flatMap fun node =>
          (atNode c file node).map (settled (bindings c file)) := by
        rw [ofFile, Findings.registrations_foldl (appends_readNode c file)]
        exact List.map_flatMap
    _ = file.module.places.flatMap (registeredAt c file) := by
        rw [← file.module.flatMap_places]
        exact congrArg (file.module.places.flatMap ·) (funext hsettled).symm

/-- What a variable leads to if it wraps a target: the target, followed on through the variables of
    the file without meeting the first one again. -/
def leadsTo (c : Conventions) (file : SourceFile) (name : String) (target : RegistrationTarget) :
    RegistrationTarget :=
  follow (bindings c file) (bindings c file).length [name] target

/-- What a variable of a file is registered for. -/
def variableTarget (c : Conventions) (file : SourceFile) (name : String) : RegistrationTarget :=
  follow (bindings c file) ((bindings c file).length + 1) [] (.named name)

/-- A variable is registered for what it leads to. -/
theorem variableTarget_of_find? {target : RegistrationTarget}
    (h : Dictionary.find? (bindings c file) name = some target) :
    variableTarget c file name = leadsTo c file name target := by
  rw [variableTarget, follow, List.contains_nil, if_neg Bool.false_ne_true, h]
  rfl

/-- **Last binding of a variable**: wherever a variable is registered, it is registered for one
    target.  If some place makes it wrap anything, this is what the last place leads to that does so
    in the whole file.  So whichever binding is the visible one at a registration, its implementation
    is registered exactly if the last binding leads to the same. -/
theorem variable_registers_last_binding (c : Conventions) (file : SourceFile) (name : String) :
    (ofFile c file).1 = file.module.places.flatMap (registeredAt c file) ∧
      (∀ site start callee typeArgs tag rest tagName,
        file.module.nodeAt? site =
            some (registering start callee typeArgs tag rest (.ident name)) →
          RegistrationCall c callee (tag :: .ident name :: rest) → tag.TextLiteral tagName →
            registeredAt c file site =
              [⟨tagName, variableTarget c file name, file.id, start.line⟩]) ∧
      ∀ visible wrapped, WrapsAt c file.module name visible wrapped →
        ∃ last bound, WrapsAt c file.module name last bound ∧
          (∀ place other, WrapsAt c file.module name place other → ¬last.Before place) ∧
          (variableTarget c file name = leadsTo c file name wrapped ↔
            leadsTo c file name bound = leadsTo c file name wrapped) := by
  refine ⟨registrations_ofFile_places c file, ?_, ?_⟩
  · intro site start callee typeArgs tag rest tagName hsite hcall htag
    rw [registeredAt, hsite, Option.map_some, Option.getD_some,
      atNode_registering (isCall_iff.mpr hcall) (Expr.string?_eq_some_iff.mpr htag) rfl]
    rfl
  · intro visible wrapped hvisible
    have hlast := isLast_bindings c file name
    cases hbound : Dictionary.find? (bindings c file) name with
    | none =>
        rw [hbound] at hlast
        exact (hlast visible wrapped hvisible).elim
    | some bound =>
        rw [hbound] at hlast
        obtain ⟨last, hwraps, hafter⟩ := hlast
        exact ⟨last, bound, hwraps, hafter, by rw [variableTarget_of_find? hbound]⟩

-- A variable that is given another value between two registrations: both are for the second one.
example :
    (ofFile {} { (default : SourceFile) with
      module := ⟨[
        .variableDecl ⟨0, 1⟩ [⟨⟨4, 1⟩, .ident "W" none,
          some (.call ⟨8, 1⟩ (.ident "r2wc") [] [.ident "A"])⟩],
        .expr (.call ⟨17, 2⟩ (.ident "define") [] [.string ⟨"x-a", true⟩, .ident "W"]),
        .expr (.assign (.ident "W" none) (.call ⟨38, 3⟩ (.ident "r2wc") [] [.ident "B"])),
        .expr (.call ⟨47, 4⟩ (.ident "define") [] [.string ⟨"x-b", true⟩, .ident "W"])], []⟩ }).1 =
      [⟨"x-a", .named "B", 0, 2⟩, ⟨"x-b", .named "B", 0, 4⟩] := by
  cbv

end ElementCatalog.Registration
