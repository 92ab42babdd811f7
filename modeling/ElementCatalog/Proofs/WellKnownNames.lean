import ElementCatalog.Proofs.DeclarationReadings
import ElementCatalog.Proofs.RenamedSchemas
import Mathlib.Logic.Equiv.Basic

/-!
# Well-known names come first

A reference is read by its bindings, then as a well-known name, and as the name of a declaration
last.  Toward: a well-known name keeps its meaning whatever is declared under it, every other name
means the expansion of its declaration, and so the names of declared types do not matter, well-known
ones aside.  The route: the rule for each kind of name, and `Renames.schemaIn`.
-/

namespace ElementCatalog

open Source (TypeExpr InterfaceDecl AliasDecl Renaming)
open ElementCatalog.Types

namespace Workspace

variable {w : Workspace} {scope : Scope}

/-- A well-known name is read by its rule. -/
theorem schemaOf_wellKnown {expand : Expand} {name : String} {rule : WellKnown}
    (hunbound : Dictionary.find? scope.bindings name = none) (hrule : wellKnown? name = some rule)
    (args : List TypeExpr) :
    schemaOf w expand scope (.reference (.ident name) args) =
      rule.apply (firstSchema w expand scope args) (keysArgument args) := by
  rw [schemaOf, hunbound, hrule]

/-- **What names mean**: inside any expansions, a well-known name is read by its rule, whatever its
    file declares or imports under it. Every other name that is found from the file is read by
    looking into its declaration, unless this is being done already. So a type keeps its schema if a
    program is consistently renamed, from and to names that are not well known. -/
theorem names_mean_declarations (w : Workspace) (scope : Scope) :
    (∀ (opened : List DeclarationKey) (name : String) (args : List TypeExpr),
      Dictionary.find? scope.bindings name = none →
      let expand := (w.expanderOn opened).schema
      let schema := schemaOf w expand scope (.reference (.ident name) args)
      (∀ rule, wellKnown? name = some rule →
        schema = rule.apply (firstSchema w expand scope args) (keysArgument args)) ∧
      ∀ d, wellKnown? name = none → w.type? scope.file name = some d →
        schema = if d.key ∈ opened then .unconstrained
          else declarationSchema w (w.expanderOn (d.key :: opened)).schema d
            (schemasOf w expand scope args)) ∧
    ∀ (c : Nat → Renaming) (w' : Workspace) (scope' : Scope), Renames c w w' →
      Copy w w' scope.file scope'.file → scope.Renamed (c scope.file.id) scope' →
        ∀ type : TypeExpr,
          w'.schemaIn scope' (type.rename (c scope.file.id)) = w.schemaIn scope type := by
  refine ⟨fun opened name args hunbound => ?_, fun c w' scope' h hfile hscope type =>
    h.schemaIn hfile hscope type⟩
  intro expand schema
  refine ⟨fun rule hrule => schemaOf_wellKnown hunbound hrule args, fun d hplain hd => ?_⟩
  by_cases hopen : d.key ∈ opened
  · rw [if_pos hopen]
    have hexpand := (expander_hands_down_path (resolve?_declares hd) opened).1
    calc schema
        = expand d (schemasOf w expand scope args) := schemaOf_named hunbound hplain hd args
      _ = .unconstrained := (hexpand _).trans (if_pos (List.contains_iff_mem.mpr hopen))
  · rw [if_neg hopen]
    exact (reading_of_reference (.plain hunbound hplain hd) hopen args).1

end Workspace

/-! ## Swapped names -/

namespace Source.Renaming

/-- The same two names are swapped everywhere. -/
def swapped (a b : String) : Renaming where
  name := Equiv.swap a b
  exported := Equiv.swap a b
  outside _ := Equiv.swap a b
  inner _ name := name
  move start := start

/-- Two names may be swapped if they are not well known and stand for no default export and no whole
    module. -/
theorem swapped_proper {a b : String} (ha : wellKnown? a = none) (hb : wellKnown? b = none)
    (hdefault : "default" ≠ a ∧ "default" ≠ b) (hall : "*" ≠ a ∧ "*" ≠ b) :
    (swapped a b).Proper where
  name := (Equiv.swap a b).injective
  exported := (Equiv.swap a b).injective
  outside _ := (Equiv.swap a b).injective
  default := by
    have hkept := Equiv.swap_apply_of_ne_of_ne hdefault.1 hdefault.2
    exact ⟨hkept, hkept, fun _ => hkept⟩
  all _ := Equiv.swap_apply_of_ne_of_ne hall.1 hall.2
  wellKnown name := by
    show wellKnown? (Equiv.swap a b name) = _
    by_cases hname : name = a
    · rw [hname, Equiv.swap_apply_left, ha, hb]
    by_cases hname' : name = b
    · rw [hname', Equiv.swap_apply_right, ha, hb]
    rw [Equiv.swap_apply_of_ne_of_ne hname hname']
  move _ _ := Iff.rfl

end Source.Renaming

namespace Dictionary

/-- What stands under the names of one dictionary stands under the renamed names of another. -/
theorem rel_find?_renamed {α β : Type} {R : α → β → Prop} {rename : String → String}
    (hrename : Function.Injective rename) {entries : Dictionary α} {entries' : Dictionary β}
    (h : List.Forall₂ (fun e e' => e'.1 = rename e.1 ∧ R e.2 e'.2) entries entries')
    (name : String) :
    Option.Rel R (find? entries name) (find? entries' (rename name)) := by
  induction h with
  | nil => exact .none
  | @cons e e' _ _ he _ ih =>
      rw [find?, find?, he.1]
      by_cases hname : e.1 = name
      · rw [if_pos hname, if_pos (congrArg rename hname)]
        exact .some he.2
      · rw [if_neg hname, if_neg (hrename.ne hname)]
        exact ih

end Dictionary

namespace Workspace

/-! ## An album of cards -/

/-- The file `cards.ts` with `export interface Card { title: string }`, under any name. -/
def cardsFile (card : String) : SourceFile :=
  { id := 0
    path := ⟨[.root, .name "cards.ts"]⟩
    shownPath := "cards.ts"
    module := ⟨[.exported ⟨0, 1⟩ (.interfaceDecl
      { start := ⟨7, 1⟩
        name := card
        params := []
        parents := []
        members := [.property ⟨24, 1⟩ (.ident "title" false) false (some (.keyword .string))]
        inner := [] })], []⟩
    discoverable := true }

/-- The type `Card[]`, under any name. -/
def deckType (card : String) : TypeExpr :=
  .array (.reference (.ident card) [])

/-- The interface `Map` with a number `zoom`, under any name. -/
def mapInterface (map : String) : InterfaceDecl :=
  { start := ⟨52, 3⟩
    name := map
    params := []
    parents := []
    members := [.property ⟨68, 3⟩ (.ident "zoom" false) false (some (.keyword .number))]
    inner := [] }

/-- The file `main.ts` that imports the cards and declares `type Deck = Card[]` and the map. -/
def albumFile (card map : String) : SourceFile :=
  { id := 1
    path := ⟨[.root, .name "main.ts"]⟩
    shownPath := "main.ts"
    module := ⟨
      [ .importFrom [⟨card, card⟩] ⟨"./cards", true⟩ none,
        .aliasDecl ⟨⟨32, 2⟩, "Deck", [], ⟨deckType card, []⟩⟩,
        .interfaceDecl (mapInterface map) ], []⟩
    discoverable := true }

/-- The workspace of both files. -/
def albumWorkspace (card map : String) : Workspace :=
  .ofProgram
    { root := ⟨[.root]⟩
      files := [cardsFile card, albumFile card map]
      id_eq_place := by
        intro place file h
        match place, h with
        | 0, h => cases h; rfl
        | 1, h => cases h; rfl } {}

/-- The declaration of the map. -/
def mapDeclaration (card map : String) : Declaration :=
  ⟨map, albumFile card map, .interfaceNode (mapInterface map), [⟨52, 3⟩], ⟨52, 3⟩⟩

/-- The object with a number `zoom`. -/
def zoomObject : Schema :=
  .object ⟨[("zoom", .number)], ["zoom"]⟩

/-- A file finds its own interface `Map`, but reads the name as the well-known one. The same
    interface with the name `Chart` is read to its number. -/
theorem declared_map_not_read :
    (albumWorkspace "Card" "Map").type? (albumFile "Card" "Map") "Map" =
        some (mapDeclaration "Card" "Map") ∧
      declarationSchema (albumWorkspace "Card" "Map")
          ((albumWorkspace "Card" "Map").expanderOn [(mapDeclaration "Card" "Map").key]).schema
          (mapDeclaration "Card" "Map") [] = zoomObject ∧
      (albumWorkspace "Card" "Map").schemaIn (.ofFile (albumFile "Card" "Map"))
          (.reference (.ident "Map") []) = .anyObject ∧
      (albumWorkspace "Card" "Chart").schemaIn (.ofFile (albumFile "Card" "Chart"))
          (.reference (.ident "Chart") []) = zoomObject ∧
      zoomObject ≠ .anyObject :=
  ⟨rfl, rfl, rfl, rfl, fun h => nomatch h⟩

/-- The declaration of the deck. -/
def deckDeclaration (card map : String) : Declaration :=
  ⟨"Deck", albumFile card map, .aliasNode ⟨⟨32, 2⟩, "Deck", [], ⟨deckType card, []⟩⟩, [⟨32, 2⟩],
    ⟨32, 2⟩⟩

/-- An album of tiles is an album of cards, consistently renamed. -/
theorem album_renames :
    Renames (fun _ => .swapped "Card" "Tile") (albumWorkspace "Card" "Map")
      (albumWorkspace "Tile" "Map") := by
  have hproper : (Renaming.swapped "Card" "Tile").Proper :=
    Renaming.swapped_proper rfl rfl (by decide) (by decide)
  have hfiles {P : SourceFile → Prop} (hcards : P (cardsFile "Card"))
      (halbum : P (albumFile "Card" "Map")) :
      ∀ file ∈ (albumWorkspace "Card" "Map").program.files, P file :=
    List.forall_mem_cons.mpr ⟨hcards, List.forall_mem_singleton.mpr halbum⟩
  exact
    { files := .cons ⟨rfl, rfl⟩ (.cons ⟨rfl, rfl⟩ .nil)
      proper := fun _ _ => hproper
      types := by
        refine hfiles (Dictionary.rel_find?_renamed hproper.name ?_)
          (Dictionary.rel_find?_renamed hproper.name ?_)
        · exact .cons ⟨rfl, ⟨⟨rfl, rfl⟩, rfl, .interfaceNode .nil .nil rfl⟩⟩ .nil
        · refine .cons ⟨rfl, ⟨⟨rfl, rfl⟩, rfl, .aliasNode .nil rfl⟩⟩ (.cons ⟨rfl, ?_⟩ .nil)
          exact ⟨⟨rfl, rfl⟩, rfl, .interfaceNode .nil .nil rfl⟩
      imports := hfiles rfl rfl
      exports := hfiles rfl rfl
      linked := fun _ _ _ _ _ => rfl
      handedOn := fun _ _ _ _ _ _ => rfl
      unexported := fun _ _ _ _ _ _ _ _ _ _ => rfl
      enumerated := fun _ _ _ _ _ => rfl
      namespaced := by
        -- No file imports a whole module.
        refine hfiles (fun _ _ i hi => ?_) (fun _ _ i hi himported => ?_)
        · cases hi
        · rw [List.mem_singleton.mp (List.mem_of_find?_eq_some hi)] at himported
          exact absurd himported (by decide) }

/-- In an album, `Map` is the well-known name, `Deck` is read by looking into its declaration, and
    cards may be called tiles. -/
theorem album_names_mean_declarations :
    (albumWorkspace "Card" "Map").schemaIn (.ofFile (albumFile "Card" "Map"))
        (.reference (.ident "Map") []) = .anyObject ∧
      (albumWorkspace "Card" "Map").schemaIn (.ofFile (albumFile "Card" "Map"))
          (.reference (.ident "Deck") []) =
        declarationSchema (albumWorkspace "Card" "Map")
          ((albumWorkspace "Card" "Map").expanderOn [(deckDeclaration "Card" "Map").key]).schema
          (deckDeclaration "Card" "Map") [] ∧
      (albumWorkspace "Tile" "Map").schemaIn (.ofFile (albumFile "Tile" "Map")) (deckType "Tile") =
        (albumWorkspace "Card" "Map").schemaIn (.ofFile (albumFile "Card" "Map"))
          (deckType "Card") := by
  obtain ⟨hnames, hrenamed⟩ := names_mean_declarations (albumWorkspace "Card" "Map")
    (.ofFile (albumFile "Card" "Map"))
  have hcopy : Copy (albumWorkspace "Card" "Map") (albumWorkspace "Tile" "Map")
      (albumFile "Card" "Map") (albumFile "Tile" "Map") :=
    ⟨List.mem_cons_of_mem _ List.mem_cons_self, List.mem_cons_of_mem _ List.mem_cons_self, rfl, rfl⟩
  refine ⟨(hnames [] "Map" [] rfl).1 (.fixed .anyObject) rfl, ?_, ?_⟩
  · exact (hnames [] "Deck" [] rfl).2 (deckDeclaration "Card" "Map") rfl rfl
  · exact hrenamed _ _ (.ofFile (albumFile "Tile" "Map")) album_renames hcopy (fun _ => rfl)
      (deckType "Card")

end Workspace

end ElementCatalog
