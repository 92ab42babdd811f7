import ElementCatalog.Path.Location
import ElementCatalog.Text.Splitting

/-!
# Texts of paths — the pieces that take a step

The text of a path is cut at its slashes.  Empty pieces and single dots stay where they are, all
others take a step.  Toward: a path that has been read from a text is read back from its own text.
The route:

* what is read from a text is a head, which tells whether the path is absolute or starts with a
  single dot, with one component for each piece that takes a step (`ofText_eq`);
* the text of such a path is its pieces with slashes between them, so cutting it at the slashes
  gives the pieces back (`splitOn_text_of_head`);
* the first of them tells the head (`headOf_text`), and the others are the steps
  (`stepPieces_text`).
-/

namespace ElementCatalog

namespace Path

open Text (splitOn_slash splitOn_slash_intercalate slash_notMem_of_mem_splitOn)

/-! ## Names -/

/-- A text names an entry of a directory. -/
structure IsName (text : String) : Prop where
  nonempty : text ≠ ""
  notHere : text ≠ "."
  notUp : text ≠ ".."
  noSlash : '/' ∉ text.toList

instance : DecidablePred IsName := fun text =>
  decidable_of_iff (text ≠ "" ∧ text ≠ "." ∧ text ≠ ".." ∧ '/' ∉ text.toList)
    ⟨fun ⟨h, hhere, hup, hslash⟩ => ⟨h, hhere, hup, hslash⟩,
      fun h => ⟨h.nonempty, h.notHere, h.notUp, h.noSlash⟩⟩

/-! ## Pieces -/

/-- A piece takes a step: it is a double dot or a name. -/
def takesStep (piece : String) : Bool :=
  piece != "" && piece != "."

/-- The component that a piece is read to if it takes a step. -/
def component (piece : String) : PathComponent :=
  if piece = ".." then .up else .name piece

/-- The pieces of a text that take a step. -/
def stepPieces (text : String) : List String :=
  (text.splitOn "/").filter takesStep

/-- The piece of text that a component is written as, where slashes separate the pieces. -/
def piece : PathComponent → String
  | .root => ""
  | c => c.text

/-- The first piece that is not empty is a single dot. -/
def startsHere : List String → Bool
  | [] => false
  | piece :: pieces => if piece = "" then startsHere pieces else piece == "."

/-- The component that the text of a path begins with before its first step. -/
def headOf (text : String) : List PathComponent :=
  if text.startsWith "/" then [.root]
  else if startsHere (text.splitOn "/") then [.here] else []

/-- A piece takes a step exactly if it is not empty and no single dot. -/
theorem takesStep_iff {piece : String} : takesStep piece = true ↔ piece ≠ "" ∧ piece ≠ "." := by
  simp [takesStep]

/-- The component of a name. -/
theorem component_of_isName {n : String} (h : IsName n) : component n = .name n :=
  if_neg h.notUp

/-- A name takes a step. -/
theorem IsName.takesStep {n : String} (h : IsName n) : Path.takesStep n = true :=
  takesStep_iff.mpr ⟨h.nonempty, h.notHere⟩

/-- A name takes a step and holds no slash. -/
theorem IsName.isStep {n : String} (h : IsName n) : Path.takesStep n = true ∧ '/' ∉ n.toList :=
  ⟨h.takesStep, h.noSlash⟩

/-- The text of the component of a piece is the piece. -/
theorem text_component (piece : String) : (component piece).text = piece := by
  rw [component]
  split
  · rename_i hup
    exact hup.symm
  · rfl

/-- Names are read to themselves. -/
theorem map_component_of_isName {names : List String} (h : ∀ n ∈ names, IsName n) :
    names.map component = names.map .name :=
  List.map_congr_left fun n hn => component_of_isName (h n hn)

/-- A piece is not read to the root. -/
theorem component_ne_root (piece : String) : component piece ≠ .root := by
  rw [component]
  split
  · decide
  · intro h
    cases h

/-- Pieces are read to a single dot at the start, if there is one, and their steps. -/
theorem ofPieces_eq (pieces : List String) (first : Bool) :
    ofPieces first pieces = (if first && startsHere pieces then [.here] else []) ++
      (pieces.filter takesStep).map component := by
  induction pieces generalizing first with
  | nil => cases first <;> rfl
  | cons piece rest ih =>
      rw [ofPieces, startsHere]
      by_cases hempty : piece = ""
      · rw [if_pos hempty, if_pos hempty, List.filter_cons_of_neg (by simp [takesStep, hempty]), ih]
      rw [if_neg hempty, if_neg hempty]
      by_cases hhere : piece = "."
      · rw [if_pos hhere, List.filter_cons_of_neg (by simp [takesStep, hhere]), ih]
        cases first <;> simp [hhere]
      · rw [if_neg hhere, List.filter_cons_of_pos (takesStep_iff.mpr ⟨hempty, hhere⟩), ih,
          beq_false_of_ne hhere, List.map_cons, component]
        by_cases hup : piece = ".."
        · simp [hup]
        · simp [hup]

/-- What is read from a text is its head with one component for each step. -/
theorem ofText_eq (text : String) :
    ofText text = ⟨headOf text ++ (stepPieces text).map component⟩ := by
  rw [ofText, headOf, stepPieces]
  split
  · rw [ofPieces_eq]
    rfl
  · rw [ofPieces_eq]
    rfl

/-- Where the path of a text leads: its steps, from the root if it is absolute. -/
theorem locationFrom_ofText (text : String) (start : Location) :
    (ofText text).locationFrom start = ((stepPieces text).map component).foldl Location.step
      (if text.startsWith "/" then [] else start) := by
  rw [ofText_eq, locationFrom, headOf, List.foldl_append]
  split
  · rfl
  · split <;> rfl

/-- A step is a name or a double dot. -/
theorem isName_of_mem_stepPieces {text piece : String} (h : piece ∈ stepPieces text)
    (hup : piece ≠ "..") : IsName piece := by
  obtain ⟨hmem, hstep⟩ := List.mem_filter.mp h
  obtain ⟨hempty, hhere⟩ := takesStep_iff.mp hstep
  exact ⟨hempty, hhere, hup, slash_notMem_of_mem_splitOn hmem⟩

/-! ## Paths that have been read -/

/-- The heads of paths that are read from a text. -/
def heads : List (List PathComponent) :=
  [[], [.here], [.root]]

/-- There are three heads. -/
theorem eq_of_mem_heads {head : List PathComponent} (h : head ∈ heads) :
    head = [] ∨ head = [.here] ∨ head = [.root] := by
  simpa [heads] using h

/-- A head is one component at most, so it is read the same from its end. -/
theorem reverse_of_mem_heads {head : List PathComponent} (h : head ∈ heads) :
    head.reverse = head := by
  rcases eq_of_mem_heads h with rfl | rfl | rfl <;> rfl

/-- Only the root leads away from where it is read. -/
theorem foldl_step_head {head : List PathComponent} (h : head ∈ heads) (start : Location) :
    head.foldl Location.step start = if head = [.root] then [] else start := by
  rcases eq_of_mem_heads h with rfl | rfl | rfl <;> rfl

/-- A head with steps behind it. -/
def IsSpelled (p : Path) : Prop :=
  ∃ head ∈ heads, ∃ pieces : List String,
    (∀ q ∈ pieces, takesStep q = true ∧ '/' ∉ q.toList) ∧ p = ⟨head ++ pieces.map component⟩

/-- The head of a text is one of the heads. -/
theorem headOf_mem (text : String) : headOf text ∈ heads := by
  rw [headOf]
  split
  · decide
  · split <;> decide

/-- The head is the root exactly if the text starts with a slash. -/
theorem headOf_eq_root_iff {text : String} :
    headOf text = [.root] ↔ text.startsWith "/" = true := by
  rw [headOf]
  constructor
  · intro hroot
    split at hroot
    · assumption
    · split at hroot <;> cases hroot
  · intro habsolute
    exact if_pos habsolute

/-- The steps of a text are taken by pieces without slashes. -/
theorem of_mem_stepPieces {text piece : String} (h : piece ∈ stepPieces text) :
    takesStep piece = true ∧ '/' ∉ piece.toList := by
  obtain ⟨hmem, hstep⟩ := List.mem_filter.mp h
  exact ⟨hstep, slash_notMem_of_mem_splitOn hmem⟩

/-- The names of components are steps. -/
theorem mem_stepPieces_of_name {text n : String} (h : .name n ∈ (ofText text).components) :
    n ∈ stepPieces text ∧ n ≠ ".." := by
  rw [ofText_eq] at h
  rcases List.mem_append.mp h with hhead | hstep
  · rcases eq_of_mem_heads (headOf_mem text) with hnone | hnone | hnone <;> simp [hnone] at hhead
  · obtain ⟨piece, hpiece, hcomponent⟩ := List.mem_map.mp hstep
    rw [component] at hcomponent
    split at hcomponent
    · cases hcomponent
    · rename_i hup
      cases hcomponent
      exact ⟨hpiece, hup⟩

/-- What is read from a text is a head with steps behind it. -/
theorem isSpelled_ofText (text : String) : (ofText text).IsSpelled :=
  ⟨headOf text, headOf_mem text, stepPieces text, fun _ hq => of_mem_stepPieces hq, ofText_eq text⟩

/-- The directory that such a path lies in is one again. -/
theorem IsSpelled.parent {p parent : Path} (h : p.IsSpelled) (hparent : p.parent? = some parent) :
    parent.IsSpelled := by
  obtain ⟨head, hhead, pieces, hpieces, rfl⟩ := h
  rcases List.eq_nil_or_concat' pieces with rfl | ⟨front, last, rfl⟩
  · refine ⟨[], by decide, [], by simp, ?_⟩
    rcases eq_of_mem_heads hhead with rfl | rfl | rfl <;> cases hparent
    rfl
  · refine ⟨head, hhead, front, fun q hq => hpieces q (List.mem_append_left _ hq), ?_⟩
    rw [List.map_append, List.map_singleton, ← List.append_assoc,
      parent?_concat _ (component_ne_root last)] at hparent
    exact (Option.some.inj hparent).symm

/-- The pieces that a head is written as and those of the steps hold no slash. -/
theorem slash_notMem_of_head {head : List PathComponent} (hhead : head ∈ heads)
    {pieces : List String} (hpieces : ∀ q ∈ pieces, takesStep q = true ∧ '/' ∉ q.toList) :
    ∀ q ∈ head.map piece ++ pieces, '/' ∉ q.toList := by
  intro q hq
  rcases List.mem_append.mp hq with hq | hq
  · rcases eq_of_mem_heads hhead with rfl | rfl | rfl
    · cases hq
    · rw [List.mem_singleton.mp hq]
      decide
    · rw [List.mem_singleton.mp hq]
      decide
  · exact (hpieces q hq).2

/-- Components of pieces are written as the pieces. -/
theorem map_text_component (pieces : List String) :
    (pieces.map component).map PathComponent.text = pieces := by
  rw [List.map_map]
  exact (List.map_congr_left fun q _ => text_component q).trans (List.map_id _)

/-- Pieces start with a slash exactly if the first one is empty and others follow. -/
theorem startsWith_intercalate {q : String} (hslash : '/' ∉ q.toList) (rest : List String) :
    ("/".intercalate (q :: rest)).startsWith "/" = (q == "" && !rest.isEmpty) := by
  have hsplit : ∃ t, "/".intercalate (q :: rest) = q ++ t ∧
      (t = "" ∧ rest = [] ∨ ∃ u, t = "/" ++ u ∧ rest ≠ []) := by
    cases rest with
    | nil => exact ⟨"", by simp⟩
    | cons next rest =>
        refine ⟨"/" ++ "/".intercalate (next :: rest), ?_, Or.inr ⟨_, rfl, List.cons_ne_nil _ _⟩⟩
        rw [String.intercalate_cons_cons, String.append_assoc]
  obtain ⟨t, ht, hcases⟩ := hsplit
  rw [ht]
  by_cases hq : q = ""
  · subst hq
    rw [String.empty_append]
    rcases hcases with ⟨rfl, rfl⟩ | ⟨u, rfl, hrest⟩
    · decide
    · rw [String.startsWith_string_iff.mpr ⟨u.toList, (String.toList_append).symm⟩]
      simpa using hrest
  · rw [beq_eq_false_iff_ne.mpr hq, Bool.false_and, String.startsWith_string_eq_false_iff,
      String.toList_append]
    cases hlist : q.toList with
    | nil => exact absurd (String.toList_eq_nil_iff.mp hlist) hq
    | cons c cs =>
        rw [hlist] at hslash
        rintro ⟨tail, htail⟩
        have hc : '/' = c := (List.cons.inj htail).1
        rw [hc] at hslash
        exact hslash List.mem_cons_self

/-- The text of a path that has been read, but for the empty path and the root, is its pieces with
    slashes between them. -/
theorem text_of_head {head : List PathComponent} (hhead : head ∈ heads) {pieces : List String}
    (hroot : head = [.root] → pieces ≠ []) :
    (⟨head ++ pieces.map component⟩ : Path).text = "/".intercalate (head.map piece ++ pieces) := by
  rcases eq_of_mem_heads hhead with rfl | rfl | rfl
  · cases pieces with
    | nil => rfl
    | cons q rest =>
        have htext : (⟨(q :: rest).map component⟩ : Path).text =
            "/".intercalate ((component q :: rest.map component).map PathComponent.text) := by
          rw [text, List.map_cons]
          cases hc : component q with
          | root => exact absurd hc (component_ne_root q)
          | here | up | name => rfl
        rw [List.nil_append, htext, ← List.map_cons, map_text_component]
        rfl
  · show "/".intercalate ("." :: (pieces.map component).map PathComponent.text) = _
    rw [map_text_component]
    rfl
  · show "/" ++ "/".intercalate ((pieces.map component).map PathComponent.text) = _
    rw [map_text_component]
    cases pieces with
    | nil => exact absurd rfl (hroot rfl)
    | cons q rest =>
        show _ = "/".intercalate ("" :: q :: rest)
        rw [String.intercalate_cons_cons, String.empty_append]

/-- A path that has been read, but for the empty path and the root, is cut into its pieces. -/
theorem splitOn_text_of_head {head : List PathComponent} (hhead : head ∈ heads)
    {pieces : List String} (hpieces : ∀ q ∈ pieces, takesStep q = true ∧ '/' ∉ q.toList)
    (hroot : head = [.root] → pieces ≠ []) (hempty : head = [] → pieces ≠ []) :
    (⟨head ++ pieces.map component⟩ : Path).text.splitOn "/" = head.map piece ++ pieces := by
  rw [text_of_head hhead hroot]
  refine splitOn_slash_intercalate ?_ (slash_notMem_of_head hhead hpieces)
  intro hnil
  obtain ⟨hmap, hp⟩ := List.append_eq_nil_iff.mp hnil
  exact hempty (List.map_eq_nil_iff.mp hmap) hp

/-- The text of a path that has been read has the steps of the path. -/
theorem stepPieces_text {head : List PathComponent} (hhead : head ∈ heads) {pieces : List String}
    (hpieces : ∀ q ∈ pieces, takesStep q = true ∧ '/' ∉ q.toList) :
    stepPieces (⟨head ++ pieces.map component⟩ : Path).text = pieces := by
  have hsteps : pieces.filter takesStep = pieces :=
    List.filter_eq_self.mpr fun q hq => (hpieces q hq).1
  rw [stepPieces]
  cases pieces with
  | nil =>
      rcases eq_of_mem_heads hhead with rfl | rfl | rfl
      all_goals
        rw [splitOn_slash]
        decide +kernel
  | cons q rest =>
      have hne : q :: rest ≠ [] := List.cons_ne_nil q rest
      rw [splitOn_text_of_head hhead hpieces (fun _ => hne) fun _ => hne, List.filter_append, hsteps]
      rcases eq_of_mem_heads hhead with rfl | rfl | rfl <;> rfl

/-- The text of a path that has been read has the head of the path. -/
theorem headOf_text {head : List PathComponent} (hhead : head ∈ heads) {pieces : List String}
    (hpieces : ∀ q ∈ pieces, takesStep q = true ∧ '/' ∉ q.toList) :
    headOf (⟨head ++ pieces.map component⟩ : Path).text = head := by
  cases pieces with
  | nil =>
      rcases eq_of_mem_heads hhead with rfl | rfl | rfl
      all_goals
        rw [headOf, splitOn_slash]
        decide +kernel
  | cons q rest =>
      have hne : q :: rest ≠ [] := List.cons_ne_nil q rest
      rw [headOf, splitOn_text_of_head hhead hpieces (fun _ => hne) fun _ => hne,
        text_of_head hhead fun _ => hne]
      -- The first piece tells the head.
      obtain ⟨hq, hslash⟩ := hpieces q List.mem_cons_self
      obtain ⟨hnonempty, hhere⟩ := takesStep_iff.mp hq
      rcases eq_of_mem_heads hhead with rfl | rfl | rfl
      · show (if ("/".intercalate (q :: rest)).startsWith "/" = true then _ else _) = _
        rw [startsWith_intercalate hslash, beq_false_of_ne hnonempty, Bool.false_and,
          if_neg Bool.false_ne_true]
        show (if startsHere (q :: rest) = true then _ else _) = _
        rw [startsHere, if_neg hnonempty, beq_false_of_ne hhere, if_neg Bool.false_ne_true]
      · show (if ("/".intercalate ("." :: q :: rest)).startsWith "/" = true then _ else _) = _
        rw [startsWith_intercalate (by decide)]
        rfl
      · show (if ("/".intercalate ("" :: q :: rest)).startsWith "/" = true then _ else _) = _
        rw [startsWith_intercalate (by decide)]
        rfl

/-- **Texts of paths**: a path that has been read from a text is read back from its own text. -/
theorem IsSpelled.ofText_text {p : Path} (h : p.IsSpelled) : ofText p.text = p := by
  obtain ⟨head, hhead, pieces, hpieces, rfl⟩ := h
  rw [ofText_eq, headOf_text hhead hpieces, stepPieces_text hhead hpieces]

end Path

end ElementCatalog
