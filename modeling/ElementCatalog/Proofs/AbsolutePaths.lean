import ElementCatalog.Proofs.JoinedTexts
import ElementCatalog.Proofs.NormalLocations
import ElementCatalog.Proofs.NormalPaths

/-!
# Absolute paths — where the specifiers of absolute files lead

Toward: a file that is loaded from an absolute path asks for absolute paths only, and there are two
normal spellings of a place below the root.  The route: reading, joining and normalizing keep what
starts from the root (`IsAbsolute.normalize`, `IsAbsolute.joinText`), so all that a specifier may
mean does; and a normal absolute path is told by its location, unless it climbs above the root
first (`IsNormal.eq_of_location`).
-/

namespace ElementCatalog.Path

/-- A path starts from the root. -/
def IsAbsolute (p : Path) : Prop :=
  ∃ rest, p.components = .root :: rest

/-- The spelling of an absolute path that climbs above the root first. -/
def fromAbove (p : Path) : Path :=
  ⟨.root :: .up :: p.components.tail⟩

/-- What is read from a text with a slash in front starts from the root. -/
theorem isAbsolute_ofText {text : String} (h : text.startsWith "/" = true) :
    (ofText text).IsAbsolute := by
  rw [ofText_eq, headOf_eq_root_iff.mpr h]
  exact ⟨_, rfl⟩

/-- The text of an absolute path has a slash in front. -/
theorem IsAbsolute.startsWith_text {p : Path} (h : p.IsAbsolute) :
    p.text.startsWith "/" = true := by
  obtain ⟨components⟩ := p
  obtain ⟨rest, rfl⟩ := h
  show ("/" ++ "/".intercalate (rest.map PathComponent.text)).startsWith "/" = true
  rw [String.startsWith_string_iff, String.toList_append]
  exact List.prefix_append _ _

/-- A text with a slash in front is not empty. -/
theorem ne_empty_of_startsWith {text : String} (h : text.startsWith "/" = true) : text ≠ "" := by
  rintro rfl
  revert h
  decide

/-- The normal form of an absolute path is absolute. -/
theorem IsAbsolute.normalize {p : Path} (h : p.IsAbsolute) : p.normalize.IsAbsolute := by
  obtain ⟨rest, hrest⟩ := h
  have habsolute : p.course.absolute = true :=
    (course_absolute_iff p).mpr (hrest ▸ List.mem_cons_self)
  obtain ⟨front, hfront, heq⟩ := collects_normalize p
  rw [Course.fronts, if_pos habsolute] at hfront
  rcases List.mem_cons.mp hfront with rfl | hfront
  · exact ⟨_, heq⟩
  · rw [List.mem_singleton.mp hfront] at heq
    exact ⟨_, heq⟩

/-- Something is joined to an absolute path. -/
theorem startsWith_joinText {base : String} (h : base.startsWith "/" = true) (path : String) :
    (joinText base path).startsWith "/" = true := by
  have hne := ne_empty_of_startsWith h
  rw [joinText]
  split
  · assumption
  · split
    · rw [startsWith_slash_append hne, h]
    · rw [String.append_assoc, startsWith_slash_append hne, h]

/-- Names are collected one behind another. -/
theorem foldl_collect_names (names : List String) (collected : List PathComponent) :
    (names.map PathComponent.name).foldl step collected =
      collected ++ names.map PathComponent.name := by
  induction names generalizing collected with
  | nil => exact (List.append_nil collected).symm
  | cons name rest ih =>
      rw [List.map_cons, List.foldl_cons, ih, step, List.append_assoc]
      rfl

/-- A start with names behind it is its own normal form. -/
theorem normalize_start_names {start : List PathComponent} (h : start ∈ starts)
    (names : List String) :
    (⟨start ++ names.map .name⟩ : Path).normalize = ⟨start ++ names.map .name⟩ := by
  have hcollected : start.foldl Path.step [] = start := by
    simp only [starts, List.mem_cons, List.not_mem_nil, or_false] at h
    rcases h with rfl | rfl | rfl | rfl <;> rfl
  rw [Path.normalize, List.foldl_append, hcollected, foldl_collect_names]

/-- A way down from the root is its own normal form. -/
theorem normalize_root (names : List String) :
    (⟨.root :: names.map .name⟩ : Path).normalize = ⟨.root :: names.map .name⟩ :=
  @normalize_start_names [.root] (by decide) names

/-- A normal path is its own normal form. -/
theorem IsNormal.normalize_eq {p : Path} (h : p.IsNormal) : p.normalize = p := by
  obtain ⟨start, hstart, names, -, rfl⟩ := h
  exact normalize_start_names hstart names

/-- The directory of an absolute path is absolute. -/
theorem IsAbsolute.parent {p directory : Path} (h : p.IsAbsolute)
    (hparent : p.parent? = some directory) : directory.IsAbsolute := by
  obtain ⟨components⟩ := p
  rcases List.eq_nil_or_concat' components with rfl | ⟨front, last, rfl⟩
  · cases hparent
  · obtain ⟨rest, hrest⟩ := h
    cases front with
    | nil =>
        cases hrest
        cases hparent
    | cons first front =>
        cases hrest
        by_cases hlast : last = .root
        · rw [hlast, parent?, List.getLast?_concat] at hparent
          cases hparent
        · rw [parent?_concat _ hlast] at hparent
          cases hparent
          exact ⟨front, rfl⟩

/-- A specifier of an absolute file names an absolute path. -/
theorem IsAbsolute.specifierBase? {fromFile base : Path} (h : fromFile.IsAbsolute)
    {specifier : String} (hbase : Path.specifierBase? fromFile specifier = some base) :
    base.IsAbsolute := by
  rw [Path.specifierBase?] at hbase
  split at hbase
  · obtain ⟨directory, hdirectory, rfl⟩ := Option.map_eq_some_iff.mp hbase
    have hslash := startsWith_joinText (h.parent hdirectory).startsWith_text specifier
    exact (isAbsolute_ofText hslash).normalize
  · cases hbase

/-- Another extension leaves a path absolute. -/
theorem IsAbsolute.withExtension {p : Path} (h : p.IsAbsolute) (e : String) :
    (p.withExtension e).IsAbsolute := by
  obtain ⟨components⟩ := p
  rcases List.eq_nil_or_concat' components with rfl | ⟨front, last, rfl⟩
  · exact h
  · rw [Path.withExtension, List.getLast?_concat]
    cases last with
    | root | here | up => exact h
    | name text =>
        obtain ⟨rest, hrest⟩ := h
        cases front with
        | nil => cases hrest
        | cons first front =>
            cases hrest
            refine ⟨front ++ [.name ((splitName text).1 ++ "." ++ e)], ?_⟩
            dsimp only
            rw [List.dropLast_concat]
            rfl

/-- All that a specifier of an absolute file may mean is absolute. -/
theorem IsAbsolute.of_mem_fallbackCandidates {fromFile p : Path} (h : fromFile.IsAbsolute)
    {specifier : String} (hmem : p ∈ fallbackCandidates fromFile specifier) : p.IsAbsolute := by
  obtain ⟨sources, heq, hsources⟩ := fallbackCandidates_eq fromFile specifier
  rw [heq] at hmem
  rcases List.mem_append.mp hmem with hmodule | hsource
  · rw [moduleCandidates] at hmodule
    cases hbase : Path.specifierBase? fromFile specifier with
    | none =>
        rw [hbase] at hmodule
        cases hmodule
    | some base =>
        have habsolute := h.specifierBase? hbase
        rw [hbase] at hmodule
        rcases List.mem_append.mp hmodule with hmodule | hindex
        · rcases List.mem_cons.mp hmodule with rfl | happended
          · exact habsolute
          · obtain ⟨e, -, rfl⟩ := List.mem_map.mp happended
            refine isAbsolute_ofText ?_
            have hslash := habsolute.startsWith_text
            rw [String.append_assoc, startsWith_slash_append (ne_empty_of_startsWith hslash), hslash]
        · obtain ⟨e, -, rfl⟩ := List.mem_map.mp hindex
          exact isAbsolute_ofText (startsWith_joinText habsolute.startsWith_text _)
  · obtain ⟨-, base, hbase, e, -, rfl⟩ := hsources p hsource
    exact (h.specifierBase? hbase).withExtension e

/-- A name behind a normal path lies in the place of the path. -/
theorem IsNormal.locationFrom_concat {components : List PathComponent}
    (h : (⟨components⟩ : Path).IsNormal) {n : String} (hn : IsName n) (start : Location) :
    (ofText (⟨components ++ [.name n]⟩ : Path).text).locationFrom start =
      n :: (⟨components⟩ : Path).locationFrom start := by
  rw [(h.append_name hn).ofText_text, locationFrom, List.foldl_append]
  rfl

/-- **Spellings**: a normal absolute path is the way down to its location, or climbs above the root
    before it. -/
theorem IsNormal.eq_of_location {p : Path} (h : p.IsNormal) (habsolute : p.IsAbsolute)
    {start : Location} {names : List String} (hlocation : p.locationFrom start = names.reverse) :
    p = ⟨.root :: names.map .name⟩ ∨ p = fromAbove ⟨.root :: names.map .name⟩ := by
  obtain ⟨front, hfront, others, -, rfl⟩ := h
  obtain ⟨rest, hrest⟩ := habsolute
  have hnames {front : List PathComponent}
      (hroot : (⟨front⟩ : Path).locationFrom start = [])
      (hl : (⟨front ++ others.map .name⟩ : Path).locationFrom start = names.reverse) :
      others = names := by
    rw [locationFrom, List.foldl_append] at hl
    change (others.map PathComponent.name).foldl Location.step
      ((⟨front⟩ : Path).locationFrom start) = _ at hl
    rw [hroot, foldl_step_names, List.append_nil] at hl
    exact List.reverse_injective hl
  simp only [starts, List.mem_cons, List.not_mem_nil, or_false] at hfront
  rcases hfront with rfl | rfl | rfl | rfl
  · cases others <;> cases hrest
  · rw [hnames rfl hlocation]
    exact Or.inl rfl
  · cases hrest
  · rw [hnames rfl hlocation]
    exact Or.inr rfl

end ElementCatalog.Path
