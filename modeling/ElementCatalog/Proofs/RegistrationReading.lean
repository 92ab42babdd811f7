import ElementCatalog.Component.Registration

/-!
# Reading registrations — what the nodes of a file add, one after another

Every node adds its registrations and its refusals to the end of what was found before, and what it
adds does not depend on what was found.  So a file lists its registrations in the order of its
nodes, each of them belongs to the file, and everything that cannot be read is reported as a
malformed registration.
-/

namespace ElementCatalog

open Source (Expr Node ClassDef Decorator)

namespace Findings

/-- A reader adds to the end of what was found, and always the same. -/
structure Appends (read : Findings → Findings) : Prop where
  registrations : ∀ found, (read found).registrations =
    found.registrations ++ (read {}).registrations
  diagnostics : ∀ found, (read found).diagnostics = found.diagnostics ++ (read {}).diagnostics

/-- Finding nothing adds nothing. -/
theorem Appends.id : Appends fun found => found :=
  ⟨fun _ => (List.append_nil _).symm, fun _ => (List.append_nil _).symm⟩

/-- Taking in a registration adds it. -/
theorem Appends.register (file : SourceFile) (tagName : String) (target : RegistrationTarget)
    (line : Nat) : Appends fun found => found.register file tagName target line :=
  ⟨fun _ => rfl, fun _ => (List.append_nil _).symm⟩

/-- Refusing a registration adds the refusal. -/
theorem Appends.refuse (file : SourceFile) (message : String) (line : Nat) :
    Appends fun found => found.refuse file message line :=
  ⟨fun _ => (List.append_nil _).symm, fun _ => rfl⟩

variable {α : Type} {step : Findings → α → Findings}

/-- Readers that run one after another add their registrations in that order. -/
theorem registrations_foldl (h : ∀ a, Appends fun found => step found a) (items : List α)
    (found : Findings) : (items.foldl step found).registrations =
      found.registrations ++ items.flatMap fun a => (step {} a).registrations := by
  induction items generalizing found with
  | nil => exact (List.append_nil _).symm
  | cons a rest ih =>
      rw [List.foldl_cons, ih, (h a).registrations, List.flatMap_cons, List.append_assoc]

/-- Readers that run one after another add their refusals in that order. -/
theorem diagnostics_foldl (h : ∀ a, Appends fun found => step found a) (items : List α)
    (found : Findings) : (items.foldl step found).diagnostics =
      found.diagnostics ++ items.flatMap fun a => (step {} a).diagnostics := by
  induction items generalizing found with
  | nil => exact (List.append_nil _).symm
  | cons a rest ih =>
      rw [List.foldl_cons, ih, (h a).diagnostics, List.flatMap_cons, List.append_assoc]

/-- Readers that run one after another are a reader. -/
theorem Appends.foldl (h : ∀ a, Appends fun found => step found a) (items : List α) :
    Appends fun found => items.foldl step found := by
  constructor
  · intro found
    rw [registrations_foldl h, registrations_foldl h items {}]
    rfl
  · intro found
    rw [diagnostics_foldl h, diagnostics_foldl h items {}]
    rfl

/-- What was found belongs to a file: its registrations, and refusals of nothing else. -/
structure BelongsTo (file : SourceFile) (found : Findings) : Prop where
  registrations : ∀ r ∈ found.registrations, r.fileId = file.id
  diagnostics : ∀ d ∈ found.diagnostics,
    d.kind = .malformedRegistration ∧ d.file = some file.shownPath

/-- Nothing belongs to every file. -/
theorem BelongsTo.empty (file : SourceFile) : BelongsTo file {} :=
  ⟨fun _ h => absurd h List.not_mem_nil, fun _ h => absurd h List.not_mem_nil⟩

/-- A registration that a file takes in belongs to it. -/
theorem BelongsTo.register {file : SourceFile} {found : Findings} (h : BelongsTo file found)
    (tagName : String) (target : RegistrationTarget) (line : Nat) :
    BelongsTo file (found.register file tagName target line) := by
  refine ⟨fun r hr => ?_, h.diagnostics⟩
  rcases List.mem_append.mp hr with hbefore | hnew
  · exact h.registrations r hbefore
  · rw [List.mem_singleton.mp hnew]

/-- A refusal of a file belongs to it. -/
theorem BelongsTo.refuse {file : SourceFile} {found : Findings} (h : BelongsTo file found)
    (message : String) (line : Nat) : BelongsTo file (found.refuse file message line) := by
  refine ⟨h.registrations, fun d hd => ?_⟩
  rcases List.mem_append.mp hd with hbefore | hnew
  · exact h.diagnostics d hbefore
  · rw [List.mem_singleton.mp hnew]
    exact ⟨rfl, rfl⟩

/-- Readers that keep to a file keep to it one after another. -/
theorem BelongsTo.foldl {file : SourceFile}
    (hstep : ∀ found a, BelongsTo file found → BelongsTo file (step found a)) (items : List α)
    {found : Findings} (h : BelongsTo file found) : BelongsTo file (items.foldl step found) := by
  induction items generalizing found with
  | nil => exact h
  | cons a rest ih => exact ih (hstep found a h)

end Findings

namespace Registration

open Findings (Appends BelongsTo)

/-- A call adds its registration or its refusal. -/
theorem appends_readCall (c : Conventions) (file : SourceFile) (line : Nat) (args : List Expr) :
    Appends fun found => readCall c file found line args := by
  simp only [readCall]
  split
  · exact .refuse _ _ _
  · split
    · exact .refuse _ _ _
    · split
      · exact .register _ _ _ _
      · exact .refuse _ _ _

/-- A call registers for its own file. -/
theorem belongsTo_readCall {file : SourceFile} {found : Findings} (h : BelongsTo file found)
    (c : Conventions) (line : Nat) (args : List Expr) :
    BelongsTo file (readCall c file found line args) := by
  rw [readCall]
  split
  · exact h.refuse _ _
  · split
    · exact h.refuse _ _
    · split
      · exact h.register _ _ _
      · exact h.refuse _ _

/-- A decorator adds its registration or its refusal. -/
theorem appends_readDecorator (c : Conventions) (file : SourceFile) (name : String)
    (d : Decorator) : Appends fun found => readDecorator c file name found d := by
  simp only [readDecorator]
  split
  · split
    · exact .id
    · split
      · split
        · exact .register _ _ _ _
        · exact .id
      · split
        · exact .register _ _ _ _
        · exact .refuse _ _ _
  · exact .id

/-- A decorator registers for its own file. -/
theorem belongsTo_readDecorator {file : SourceFile} {found : Findings} (h : BelongsTo file found)
    (c : Conventions) (name : String) (d : Decorator) :
    BelongsTo file (readDecorator c file name found d) := by
  rw [readDecorator]
  split
  · split
    · exact h
    · dsimp only
      split
      · split
        · exact h.register _ _ _
        · exact h
      · split
        · exact h.register _ _ _
        · exact h.refuse _ _
  · exact h

/-- A variable adds no registration and no refusal. -/
theorem appends_bindVariable (c : Conventions) (name : String) (value : Expr) :
    Appends fun found => bindVariable c found name value := by
  simp only [bindVariable]
  split
  · exact ⟨fun _ => (List.append_nil _).symm, fun _ => (List.append_nil _).symm⟩
  · exact .id

/-- A variable registers nothing. -/
theorem belongsTo_bindVariable {file : SourceFile} {found : Findings} (h : BelongsTo file found)
    (c : Conventions) (name : String) (value : Expr) :
    BelongsTo file (bindVariable c found name value) := by
  rw [bindVariable]
  split
  · exact ⟨h.registrations, h.diagnostics⟩
  · exact h

/-- A node adds its registrations and refusals. -/
theorem appends_readNode (c : Conventions) (file : SourceFile) (node : Node) :
    Appends fun found => readNode c file found node := by
  have hclass (name : String) (value : ClassDef) :
      Appends fun found => readClass c file found name value :=
    .foldl (fun d => appends_readDecorator c file name d) _
  simp only [readNode]
  split
  · split
    · exact appends_readCall c file _ _
    · exact .id
  · exact appends_bindVariable c _ _
  · exact appends_bindVariable c _ _
  · exact hclass _ _
  · exact hclass _ _
  · exact .id

/-- A node registers for its own file. -/
theorem belongsTo_readNode {file : SourceFile} {found : Findings} (h : BelongsTo file found)
    (c : Conventions) (node : Node) : BelongsTo file (readNode c file found node) := by
  have hclass (name : String) (value : ClassDef) :
      BelongsTo file (readClass c file found name value) :=
    .foldl (fun _ d hfound => belongsTo_readDecorator hfound c name d) _ h
  rw [readNode.eq_def]
  split
  · split
    · exact belongsTo_readCall h c _ _
    · exact h
  · exact belongsTo_bindVariable h c _ _
  · exact belongsTo_bindVariable h c _ _
  · exact hclass _ _
  · exact hclass _ _
  · exact h

/-- The registrations that a node of a file adds. -/
def atNode (c : Conventions) (file : SourceFile) (node : Node) : List Registration :=
  (readNode c file {} node).registrations

/-- A file lists its registrations in the order of its nodes, all with the same variables
    followed. -/
theorem registrations_ofFile (c : Conventions) (file : SourceFile) :
    ∃ wrapped : Dictionary RegistrationTarget, (ofFile c file).1 =
      (file.module.nodes.flatMap (atNode c file)).map (settled wrapped) := by
  refine ⟨(file.module.nodes.foldl (readNode c file) {}).wrapped, ?_⟩
  rw [ofFile, Findings.registrations_foldl (appends_readNode c file)]
  rfl

/-- The registrations of a file belong to it. -/
theorem fileId_of_mem_ofFile {c : Conventions} {file : SourceFile} {r : Registration}
    (h : r ∈ (ofFile c file).1) : r.fileId = file.id := by
  have hfound : BelongsTo file (file.module.nodes.foldl (readNode c file) {}) :=
    .foldl (fun _ node hfound => belongsTo_readNode hfound c node) _ (.empty file)
  obtain ⟨collected, hcollected, rfl⟩ := List.mem_map.mp h
  exact hfound.registrations collected hcollected

/-- What a file refuses is a malformed registration of the file. -/
theorem of_mem_diagnostics_ofFile {c : Conventions} {file : SourceFile} {d : Diagnostic}
    (h : d ∈ (ofFile c file).2) :
    d.kind = .malformedRegistration ∧ d.file = some file.shownPath := by
  have hfound : BelongsTo file (file.module.nodes.foldl (readNode c file) {}) :=
    .foldl (fun _ node hfound => belongsTo_readNode hfound c node) _ (.empty file)
  exact hfound.diagnostics d h

end Registration

end ElementCatalog
