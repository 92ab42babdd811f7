import ElementCatalog.Program.Symbols

/-!
# Declared names — every world of names holds its own kinds of declarations

A file writes only its own declarations, and each of them only into the worlds that it lives in, so
what is looked up in a world lives there.  The route: one equation for `insert`, one for each way of
adding symbols, and an induction over the items of the file.
-/

namespace ElementCatalog

namespace Dictionary

variable {α : Type}

/-- A value that is found under a name is an entry of the dictionary. -/
theorem mem_of_find? {entries : Dictionary α} {name : String} {value : α}
    (h : find? entries name = some value) : (name, value) ∈ entries := by
  induction entries with
  | nil => exact nomatch h
  | cons entry rest ih =>
      obtain ⟨n, v⟩ := entry
      rw [find?] at h
      by_cases hn : n = name
      · rw [if_pos hn] at h
        rw [hn, Option.some.inj h]
        exact List.mem_cons_self
      · rw [if_neg hn] at h
        exact List.mem_cons_of_mem _ (ih h)

/-- What is found after a write is the written value or was found before. -/
theorem find?_set (entries : Dictionary α) (name other : String) (value : α) :
    find? (set entries name value) other =
      if other = name then some value else find? entries other := by
  by_cases h : other = name
  · rw [if_pos h, h]
    exact find?_set_self entries name value
  · rw [if_neg h]
    exact find?_set_of_ne entries value h

/-- What is in a dictionary after a write was there or is what was written. -/
theorem mem_of_mem_set {entries : Dictionary α} {name : String} {value : α} {p : String × α}
    (h : p ∈ set entries name value) : p = (name, value) ∨ p ∈ entries := by
  induction entries with
  | nil => exact Or.inl (List.mem_singleton.mp h)
  | cons entry rest ih =>
      obtain ⟨n, v⟩ := entry
      rw [set] at h
      by_cases hn : n = name
      · rw [if_pos hn, hn] at h
        rcases List.mem_cons.mp h with heq | hrest
        · exact Or.inl heq
        · exact Or.inr (List.mem_cons_of_mem _ hrest)
      · rw [if_neg hn] at h
        rcases List.mem_cons.mp h with heq | hrest
        · exact Or.inr (heq ▸ List.mem_cons_self)
        · exact (ih hrest).imp_right (List.mem_cons_of_mem _)

/-- A name is found exactly if it is one of the names. -/
theorem isSome_find?_iff {entries : Dictionary α} {name : String} :
    (find? entries name).isSome ↔ name ∈ names entries := by
  induction entries with
  | nil => simp [find?, names]
  | cons entry rest ih =>
      obtain ⟨n, v⟩ := entry
      rw [find?, names, List.map_cons, List.mem_cons]
      by_cases hn : n = name
      · simp [hn]
      · rw [if_neg hn, ih]
        simp [names, Ne.symm hn]

/-- A name is not found exactly if it is none of the names. -/
theorem find?_eq_none_iff {entries : Dictionary α} {name : String} :
    find? entries name = none ↔ name ∉ names entries := by
  rw [← isSome_find?_iff, Option.not_isSome_iff_eq_none]

/-- Where every name stands once, an entry is found under its name. -/
theorem find?_of_mem {entries : Dictionary α} (h : (names entries).Nodup) {name : String}
    {value : α} (hmem : (name, value) ∈ entries) : find? entries name = some value := by
  induction entries with
  | nil => cases hmem
  | cons entry rest ih =>
      obtain ⟨n, v⟩ := entry
      obtain ⟨hn, hrest⟩ := List.nodup_cons.mp h
      rw [find?]
      rcases List.mem_cons.mp hmem with heq | hmem
      · cases heq
        rw [if_pos rfl]
      · rw [if_neg, ih hrest hmem]
        rintro rfl
        exact hn (List.mem_map.mpr ⟨_, hmem, rfl⟩)

/-- A name is found in the first entries, or else in the others. -/
theorem find?_append (entries more : Dictionary α) (name : String) :
    find? (entries ++ more) name = (find? entries name).or (find? more name) := by
  induction entries with
  | nil => rfl
  | cons entry rest ih =>
      obtain ⟨n, v⟩ := entry
      rw [List.cons_append, find?, find?, ih]
      split
      · rfl
      · rfl

/-- A value is written where its name is. -/
theorem set_append (entries more : Dictionary α) (name : String) (value : α) :
    set (entries ++ more) name value =
      if name ∈ names entries then set entries name value ++ more
      else entries ++ set more name value := by
  induction entries with
  | nil => rfl
  | cons entry rest ih =>
      obtain ⟨n, v⟩ := entry
      have hcons : names ((n, v) :: rest) = n :: names rest := rfl
      rw [List.cons_append, set, set, ih, hcons]
      by_cases hn : n = name
      · rw [if_pos hn, if_pos hn, if_pos (hn ▸ List.mem_cons_self)]
        rfl
      · rw [if_neg hn, if_neg hn]
        by_cases hmem : name ∈ names rest
        · rw [if_pos hmem, if_pos (List.mem_cons_of_mem n hmem)]
          rfl
        · have hnew : name ∉ n :: names rest := by
            rintro (_ | ⟨_, h⟩)
            · exact hn rfl
            · exact hmem h
          rw [if_neg hmem, if_neg hnew]
          rfl

/-- A new name goes to the end. -/
theorem set_of_notMem {name : String} (h : name ∉ names entries) (value : α) :
    set entries name value = entries ++ [(name, value)] := by
  have hset := set_append entries [] name value
  rw [List.append_nil, if_neg h] at hset
  exact hset

/-- Values that are made of names are found for the names that are there. -/
theorem find?_map_names {β : Type} (entries : Dictionary α) (make : String → β) (name : String) :
    find? (entries.map fun entry => (entry.1, make entry.1)) name =
      (find? entries name).map fun _ => make name := by
  induction entries with
  | nil => rfl
  | cons entry rest ih =>
      obtain ⟨n, v⟩ := entry
      rw [List.map_cons, find?, find?]
      by_cases hn : n = name
      · rw [if_pos hn, if_pos hn, hn]
        rfl
      · rw [if_neg hn, if_neg hn]
        exact ih

end Dictionary

namespace FileSymbols

/-- An inserted declaration is found under its name in the worlds that it lives in; nothing else
    changes. -/
theorem declared?_insert (symbols : FileSymbols) (d : Declaration) (space : NameSpace)
    (name : String) :
    (symbols.insert d).declared? space name =
      if d.node.livesIn space = true ∧ name = d.name then some d
      else symbols.declared? space name := by
  cases space with
  | value =>
      by_cases h : d.node.livesIn .value = true
      · simp [declared?, insert, h, Dictionary.find?_set]
      · simp [declared?, insert, h]
  | type =>
      by_cases h : d.node.livesIn .type = true
      · simp [declared?, insert, h, Dictionary.find?_set]
      · simp [declared?, insert, h]

/-- Exports declare nothing. -/
theorem declared?_exporting (symbols : FileSymbols) (exports : List Export) (space : NameSpace)
    (name : String) :
    (symbols.exporting exports).declared? space name = symbols.declared? space name := by
  cases space <;> rfl

/-- Every declaration that is found in a world satisfies a condition there. -/
def All (P : NameSpace → Declaration → Prop) (symbols : FileSymbols) : Prop :=
  ∀ (space : NameSpace) (name : String) (d : Declaration),
    symbols.declared? space name = some d → P space d

/-- Every declaration that is found in a world lives there. -/
def InWorlds (symbols : FileSymbols) : Prop :=
  ∀ (space : NameSpace) (name : String) (d : Declaration),
    symbols.declared? space name = some d → d.node.livesIn space = true

section All

variable {P : NameSpace → Declaration → Prop} {symbols : FileSymbols}

/-- Nothing is declared at first. -/
theorem all_empty (P : NameSpace → Declaration → Prop) : All P {} := by
  intro space name d h
  cases space <;> exact nomatch h

/-- Inserting a declaration keeps a condition that it satisfies in its own worlds. -/
theorem All.insert (h : All P symbols) {d : Declaration}
    (hd : ∀ space, d.node.livesIn space = true → P space d) : All P (symbols.insert d) := by
  intro space name found hfound
  rw [declared?_insert] at hfound
  by_cases hin : d.node.livesIn space = true ∧ name = d.name
  · rw [if_pos hin] at hfound
    rw [← Option.some.inj hfound]
    exact hd space hin.1
  · rw [if_neg hin] at hfound
    exact h space name found hfound

/-- Exporting keeps a condition. -/
theorem All.exporting (h : All P symbols) (exports : List Export) :
    All P (symbols.exporting exports) := by
  intro space name d hd
  rw [declared?_exporting] at hd
  exact h space name d hd

/-- The default export of a declaration keeps a condition that it satisfies in its own worlds. -/
theorem All.addDefault (h : All P symbols) {d : Declaration}
    (hd : ∀ space, d.node.livesIn space = true → P space d) : All P (symbols.addDefault d) :=
  (h.exporting _).insert hd

/-- A step that keeps a condition for the members of a list keeps it over the whole list. -/
theorem All.foldl {α : Type} {step : FileSymbols → α → FileSymbols} {items : List α}
    (hstep : ∀ a ∈ items, ∀ symbols : FileSymbols, All P symbols → All P (step symbols a)) :
    ∀ {symbols : FileSymbols}, All P symbols → All P (items.foldl step symbols) := by
  induction items with
  | nil => exact fun h => h
  | cons a rest ih =>
      intro symbols h
      obtain ⟨hfirst, hrest⟩ := List.forall_mem_cons.mp hstep
      exact ih hrest (hfirst symbols h)

/-- What an item declares is declared in its file. -/
theorem file_of_mem_declarationsOf {file : SourceFile} {outer : List Source.Position}
    {item : Source.Stmt} {d : Declaration} (h : d ∈ declarationsOf file outer item) :
    d.file = file := by
  cases item with
  | variableDecl start declarators =>
      obtain ⟨declarator, -, hd⟩ := List.mem_filterMap.mp h
      split at hd
      · cases hd
        rfl
      · cases hd
  | classDecl | functionDecl | interfaceDecl | aliasDecl | enumDecl =>
      rw [List.mem_singleton.mp h]
  | _ => cases h

/-- Adding one item of a module keeps a condition that every declaration of the file satisfies. -/
theorem All.add (h : All P symbols) {file : SourceFile}
    (hfile : ∀ d : Declaration, d.file = file → ∀ space, d.node.livesIn space = true → P space d)
    (item : Source.Stmt) : All P (FileSymbols.add file symbols item) := by
  have hinsert : ∀ outer item,
      All P ((declarationsOf file outer item).foldl FileSymbols.insert symbols) :=
    fun outer item => All.foldl
      (fun d hd _ hs => hs.insert (hfile d (file_of_mem_declarationsOf hd))) h
  cases item with
  | importFrom specifiers source attributes =>
      intro space name d hd
      refine h space name d ?_
      rw [← hd, FileSymbols.add]
      cases source.value? <;> cases space <;> rfl
  | exported start decl =>
      exact All.foldl (fun d hd _ hs =>
        (hs.exporting _).insert (hfile d (file_of_mem_declarationsOf hd))) h
  | exportClass start name value => exact h.addDefault (hfile _ rfl)
  | exportFunction start name value => exact h.addDefault (hfile _ rfl)
  | exportInterface start value => exact h.addDefault (hfile _ rfl)
  | exportValue start value =>
      cases value with
      | ident name => exact h.exporting _
      | _ => exact h.addDefault (hfile _ rfl)
  | exportNames specifiers source attributes => exact h.exporting _
  | exportAll source attributes =>
      rw [FileSymbols.add]
      cases source.value? with
      | none => exact h
      | some specifier => exact h.exporting _
  | _ => exact hinsert _ _

/-- What holds of every declaration of a file, in the worlds that it lives in, holds of what is
    found in the worlds of the file. -/
theorem all_ofFile {file : SourceFile}
    (hfile : ∀ d : Declaration, d.file = file → ∀ space, d.node.livesIn space = true → P space d) :
    All P (ofFile file) :=
  All.foldl (fun item _ _ hs => hs.add hfile item) (all_empty P)

end All

/-- What a file declares lives in the world that it is looked up in. -/
theorem inWorlds_ofFile (file : SourceFile) : InWorlds (ofFile file) :=
  all_ofFile fun _ _ _ hspace => hspace

/-- What is found in the worlds of a file is declared there. -/
theorem file_of_declared? {file : SourceFile} {space : NameSpace} {name : String}
    {d : Declaration} (h : (ofFile file).declared? space name = some d) : d.file = file :=
  all_ofFile (P := fun _ d => d.file = file) (fun _ hd _ _ => hd) space name d h

/-- Nothing lives in a wrong world at first. -/
theorem inWorlds_empty : InWorlds {} :=
  all_empty _

end FileSymbols

/-- Values are classes, enumerations, functions and variables. -/
theorem DeclarationNode.kindName_of_value {node : DeclarationNode}
    (h : node.livesIn .value = true) :
    node.kindName ∈ ["class", "enum", "function", "variable"] := by
  cases node with
  | classNode | functionNode | variableNode | enumNode => simp [kindName]
  | interfaceNode | aliasNode => exact absurd h Bool.false_ne_true

/-- Types are classes, enumerations, interfaces and aliases. -/
theorem DeclarationNode.kindName_of_type {node : DeclarationNode}
    (h : node.livesIn .type = true) :
    node.kindName ∈ ["class", "enum", "interface", "type alias"] := by
  cases node with
  | classNode | interfaceNode | aliasNode | enumNode => simp [kindName]
  | functionNode | variableNode => exact absurd h Bool.false_ne_true

end ElementCatalog
