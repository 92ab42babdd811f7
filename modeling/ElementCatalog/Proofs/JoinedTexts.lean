import ElementCatalog.Proofs.PathTexts

/-!
# Joined texts — a path behind another one

Toward: a name that is joined to a path is one more component of it, and one more piece of its text.
The route:

* the pieces of a relative path stand behind those of the path that it is joined to
  (`exists_front_joinText`), so its steps do (`stepPieces_joinText`);
* a name is its own only piece, so the path with the name is read to the components of the path with
  the name behind them (`IsName.ofText_joinText`);
* the other way round, the text of a path with a name behind it is the text of the path with the name
  joined to it (`IsSpelled.text_concat`), so names behind a plain text make a plain text.
-/

namespace ElementCatalog

namespace Path

open Text (splitOn_slash splitOn_slash_append)

/-! ## Relative paths -/

/-- The last piece of a text takes a step. -/
def endsInStep (text : String) : Bool :=
  (text.splitOn "/").getLast?.any takesStep

/-- A text is cut into at least one piece. -/
theorem splitOn_slash_ne_nil (text : String) : text.splitOn "/" ≠ [] := by
  rw [splitOn_slash]
  intro hnil
  exact Text.splitWhere_ne_nil _ _ (List.map_eq_nil_iff.mp hnil)

/-- The pieces of a relative path come last behind those of another path. -/
theorem exists_pieces_joinText (base : String) : ∃ front, ∀ path : String,
    path.startsWith "/" = false → (joinText base path).splitOn "/" =
      front ++ path.splitOn "/" := by
  by_cases hempty : base = ""
  · refine ⟨[], fun path hpath => ?_⟩
    rw [joinText, if_neg (ne_true_of_eq_false hpath), hempty]
    simp
  · cases hslash : base.endsWith "/" with
    | true =>
        obtain ⟨before, hbase⟩ := Text.endsWith_iff.mp hslash
        refine ⟨before.splitOn "/", fun path hpath => ?_⟩
        rw [joinText, if_neg (ne_true_of_eq_false hpath), hslash, Bool.or_true, if_pos rfl,
          ← Text.splitOn_slash_append, ← hbase]
    | false =>
        refine ⟨base.splitOn "/", fun path hpath => ?_⟩
        rw [joinText, if_neg (ne_true_of_eq_false hpath), hslash, decide_eq_false hempty,
          if_neg (by decide), Text.splitOn_slash_append]

/-- The pieces of a relative path stand behind those of the path that it is joined to, but for an
    empty one at the end of these. -/
theorem exists_front_joinText (base : String) : ∃ front,
    (base.splitOn "/" = front ∨ base.splitOn "/" = front ++ [""]) ∧ ∀ path : String,
      path.startsWith "/" = false → (joinText base path).splitOn "/" = front ++ path.splitOn "/" := by
  obtain ⟨front, hfront⟩ := exists_pieces_joinText base
  refine ⟨front, ?_, hfront⟩
  have hempty : ("" : String).splitOn "/" = [""] := by
    rw [splitOn_slash]
    decide
  -- The empty path, which is one empty piece, tells the pieces in front.
  have hjoined := hfront "" (by decide)
  rw [hempty, joinText, if_neg (by decide)] at hjoined
  split at hjoined
  · rw [String.append_empty] at hjoined
    exact Or.inr hjoined
  · rw [splitOn_slash_append, hempty] at hjoined
    exact Or.inl (List.append_cancel_right hjoined)

/-- The steps of a relative path are taken behind those of the path that it is joined to. -/
theorem stepPieces_joinText {base path : String} (h : path.startsWith "/" = false) :
    stepPieces (joinText base path) = stepPieces base ++ stepPieces path := by
  obtain ⟨front, hbase, hfront⟩ := exists_front_joinText base
  rw [stepPieces, hfront path h, List.filter_append]
  rcases hbase with hbase | hbase
  · rw [← hbase]
    rfl
  · rw [stepPieces, hbase, List.filter_append]
    exact congrArg (· ++ stepPieces path) (List.append_nil _).symm

/-- The last piece of a path stays the last one behind another path. -/
theorem endsInStep_joinText (base path : String) :
    endsInStep (joinText base path) = endsInStep path := by
  cases h : path.startsWith "/" with
  | true => rw [joinText, if_pos h]
  | false =>
      obtain ⟨front, hfront⟩ := exists_pieces_joinText base
      rw [endsInStep, endsInStep, hfront path h,
        List.getLast?_append_of_ne_nil front (splitOn_slash_ne_nil path)]

/-- The empty text ends in no step. -/
theorem ne_empty_of_endsInStep {path : String} (h : endsInStep path = true) : path ≠ "" := by
  rintro rfl
  rw [endsInStep, splitOn_slash] at h
  exact absurd h (by decide)

/-- A path that ends in a step is read to one whose text does. -/
theorem endsInStep_text_ofText {path : String} (h : endsInStep path = true) :
    endsInStep (ofText path).text = true := by
  have hne : stepPieces path ≠ [] := by
    rw [endsInStep, Option.any_eq_true] at h
    obtain ⟨last, hlast, hstep⟩ := h
    exact List.ne_nil_of_mem (List.mem_filter.mpr ⟨List.mem_of_getLast? hlast, hstep⟩)
  have hpieces := fun q (hq : q ∈ stepPieces path) => of_mem_stepPieces hq
  rw [ofText_eq, endsInStep, splitOn_text_of_head (headOf_mem path) hpieces (fun _ => hne)
    fun _ => hne, List.getLast?_append_of_ne_nil _ hne, List.getLast?_eq_some_getLast hne]
  exact (hpieces _ (List.getLast_mem hne)).1

/-! ## Names behind a path -/

/-- A name is a relative path. -/
theorem IsName.startsWith_eq_false {n : String} (h : IsName n) : n.startsWith "/" = false := by
  have hstarts := startsWith_intercalate h.noSlash []
  rwa [String.intercalate_singleton, List.isEmpty_nil, Bool.not_true, Bool.and_false] at hstarts

/-- What is written behind a text does not make it absolute. -/
theorem startsWith_slash_append {a : String} (h : a ≠ "") (b : String) :
    (a ++ b).startsWith "/" = a.startsWith "/" := by
  have hiff : (a ++ b).startsWith "/" = true ↔ a.startsWith "/" = true := by
    rw [String.startsWith_string_iff, String.startsWith_string_iff, String.toList_append]
    constructor
    · intro hprefix
      refine List.prefix_of_prefix_length_le hprefix (List.prefix_append _ _) ?_
      cases hlist : a.toList with
      | nil => exact absurd (String.toList_eq_nil_iff.mp hlist) h
      | cons c rest => exact Nat.le_add_left 1 _
    · intro hprefix
      exact hprefix.trans (List.prefix_append _ _)
  cases ha : a.startsWith "/" with
  | true => exact hiff.mpr ha
  | false =>
      refine eq_false_of_ne_true fun hab => ?_
      rw [hiff.mp hab] at ha
      cases ha

/-- A path with a relative one behind it is absolute exactly if the path is. -/
theorem startsWith_joinText_relative {relative : String} (h : relative.startsWith "/" = false)
    (path : String) : (joinText path relative).startsWith "/" = path.startsWith "/" := by
  rw [joinText, if_neg (ne_true_of_eq_false h)]
  by_cases hempty : path = ""
  · subst hempty
    exact h.trans (by decide)
  · split
    · exact startsWith_slash_append hempty relative
    · rw [String.append_assoc]
      exact startsWith_slash_append hempty _

/-- A path with a name behind it is absolute exactly if the path is. -/
theorem IsName.startsWith_joinText {n : String} (h : IsName n) (path : String) :
    (joinText path n).startsWith "/" = path.startsWith "/" :=
  startsWith_joinText_relative h.startsWith_eq_false path

/-- A name is its own only piece. -/
theorem IsName.splitOn_eq {n : String} (h : IsName n) : n.splitOn "/" = [n] := by
  have hpieces := Text.splitOn_slash_intercalate (List.cons_ne_nil n [])
    fun q hq => (List.mem_singleton.mp hq).symm ▸ h.noSlash
  rwa [String.intercalate_singleton] at hpieces

/-- A name takes its own step. -/
theorem IsName.stepPieces_eq {n : String} (h : IsName n) : stepPieces n = [n] := by
  rw [stepPieces, h.splitOn_eq, List.filter_cons_of_pos h.takesStep]
  rfl

/-- A name ends in a step. -/
theorem IsName.endsInStep {n : String} (h : IsName n) : Path.endsInStep n = true := by
  rw [Path.endsInStep, h.splitOn_eq]
  exact h.takesStep

/-- A piece that is no single dot does not make the start of a path one. -/
theorem startsHere_concat {piece : String} (h : piece ≠ ".") (pieces : List String) :
    startsHere (pieces ++ [piece]) = startsHere pieces := by
  induction pieces with
  | nil => simp [startsHere, h]
  | cons first rest ih => rw [List.cons_append, startsHere, startsHere, ih]

/-- A path with a name behind it is read to the path with this name behind it. -/
theorem IsName.ofText_joinText {n : String} (h : IsName n) (path : String) :
    ofText (joinText path n) = ⟨(ofText path).components ++ [.name n]⟩ := by
  have hhead : headOf (joinText path n) = headOf path := by
    obtain ⟨front, hpath, hfront⟩ := exists_front_joinText path
    have hstarts : startsHere ((joinText path n).splitOn "/") = startsHere (path.splitOn "/") := by
      rw [hfront n h.startsWith_eq_false, h.splitOn_eq, startsHere_concat h.notHere]
      rcases hpath with hpath | hpath
      · rw [hpath]
      · rw [hpath, startsHere_concat (by decide)]
    rw [headOf, headOf, h.startsWith_joinText, hstarts]
  rw [ofText_eq, ofText_eq, hhead, stepPieces_joinText h.startsWith_eq_false, h.stepPieces_eq,
    List.map_append, List.map_singleton, component_of_isName h, ← List.append_assoc]

/-- Names behind a path are its last components. -/
theorem ofText_foldl_joinText {names : List String} (h : ∀ n ∈ names, IsName n) :
    ∀ path : String, ofText (names.foldl joinText path) =
      ⟨(ofText path).components ++ names.map .name⟩ := by
  induction names with
  | nil =>
      intro path
      rw [List.map_nil, List.append_nil]
      rfl
  | cons name rest ih =>
      obtain ⟨hname, hrest⟩ := List.forall_mem_cons.mp h
      intro path
      rw [List.foldl_cons, ih hrest, hname.ofText_joinText, List.map_cons, List.append_assoc]
      rfl

/-- What is joined stands behind everything that joining puts before it. -/
theorem joinText_eq_append (base : String) {path : String} (h : path.startsWith "/" = false) :
    joinText base path = joinText base "" ++ path := by
  have hempty : ¬"".startsWith "/" = true := by decide +kernel
  rw [joinText, joinText, if_neg (ne_true_of_eq_false h), if_neg hempty]
  split
  · rw [String.append_empty]
  · rw [String.append_empty]

/-- What is joined stands behind the text that it is joined to. -/
theorem exists_joinText_eq (base : String) {path : String} (h : path.startsWith "/" = false) :
    ∃ more, joinText base path = base ++ more := by
  rw [joinText, if_neg (ne_true_of_eq_false h)]
  split
  · exact ⟨path, rfl⟩
  · exact ⟨"/" ++ path, String.append_assoc⟩

/-- Names stand behind the text that they are joined to. -/
theorem exists_foldl_joinText_eq {names : List String} (h : ∀ n ∈ names, IsName n) :
    ∀ text : String, ∃ more, names.foldl joinText text = text ++ more := by
  induction names with
  | nil => exact fun text => ⟨"", String.append_empty.symm⟩
  | cons name rest ih =>
      obtain ⟨hname, hrest⟩ := List.forall_mem_cons.mp h
      intro text
      obtain ⟨first, hfirst⟩ := exists_joinText_eq text hname.startsWith_eq_false
      obtain ⟨more, hmore⟩ := ih hrest (joinText text name)
      refine ⟨first ++ more, ?_⟩
      rw [List.foldl_cons, hmore, hfirst, String.append_assoc]

/-! ## Plain texts -/

/-- A text is the one that its path is written as. -/
def IsPlain (text : String) : Prop :=
  (ofText text).text = text

/-- A name behind the text of a path that has been read, but for the empty path and the root, is its
    last piece. -/
theorem text_concat_of_head {head : List PathComponent} (hhead : head ∈ heads)
    {pieces : List String} (hpieces : ∀ q ∈ pieces, takesStep q = true ∧ '/' ∉ q.toList)
    (hroot : head = [.root] → pieces ≠ []) (hempty : head = [] → pieces ≠ []) {n : String}
    (hn : IsName n) : (⟨head ++ (pieces ++ [n]).map component⟩ : Path).text =
      joinText (⟨head ++ pieces.map component⟩ : Path).text n := by
  have hconcat : ∀ q ∈ pieces ++ [n], takesStep q = true ∧ '/' ∉ q.toList := by
    intro q hq
    rcases List.mem_append.mp hq with hq | hq
    · exact hpieces q hq
    · rw [List.mem_singleton.mp hq]
      exact hn.isStep
  have hne : pieces ++ [n] ≠ [] := List.append_ne_nil_of_right_ne_nil _ (List.cons_ne_nil n [])
  have hsplit := splitOn_text_of_head hhead hpieces hroot hempty
  obtain ⟨front, hbase, hfront⟩ := exists_front_joinText (⟨head ++ pieces.map component⟩ : Path).text
  -- The last piece is not empty, so none is lost where the name is joined.
  have hfront_eq : front = head.map piece ++ pieces := by
    rcases hbase with hbase | hbase
    · exact hbase.symm.trans hsplit
    · exfalso
      have hlast := congrArg List.getLast? (hbase.symm.trans hsplit)
      rw [List.getLast?_concat] at hlast
      rcases List.eq_nil_or_concat' pieces with rfl | ⟨before, last, rfl⟩
      · rcases eq_of_mem_heads hhead with rfl | rfl | rfl
        · exact hempty rfl rfl
        · exact absurd hlast (by decide)
        · exact hroot rfl rfl
      · rw [← List.append_assoc, List.getLast?_concat, Option.some.injEq] at hlast
        have hstep := (hpieces last (by simp)).1
        rw [← hlast] at hstep
        exact absurd hstep (by decide)
  rw [← Text.intercalate_splitOn_slash (⟨head ++ (pieces ++ [n]).map component⟩ : Path).text,
    splitOn_text_of_head hhead hconcat (fun _ => hne) fun _ => hne,
    ← Text.intercalate_splitOn_slash (joinText _ n), hfront n hn.startsWith_eq_false, hn.splitOn_eq,
    hfront_eq, List.append_assoc]

/-- A name behind a path that has been read is joined to its text. -/
theorem IsSpelled.text_concat {p : Path} (h : p.IsSpelled) {n : String} (hn : IsName n) :
    (⟨p.components ++ [.name n]⟩ : Path).text = joinText p.text n := by
  have hrelative : ¬n.startsWith "/" = true := ne_true_of_eq_false hn.startsWith_eq_false
  obtain ⟨head, hhead, pieces, hpieces, rfl⟩ := h
  have hconcat : (⟨head ++ pieces.map component ++ [.name n]⟩ : Path) =
      ⟨head ++ (pieces ++ [n]).map component⟩ := by
    rw [List.map_append, List.map_singleton, component_of_isName hn, List.append_assoc]
  by_cases hnil : pieces = []
  · subst hnil
    rcases eq_of_mem_heads hhead with rfl | rfl | rfl
    · show n = joinText "" n
      rw [joinText, if_neg hrelative, if_pos (by decide), String.empty_append]
    · rw [hconcat]
      exact text_concat_of_head (by decide) hpieces (by simp) (by simp) hn
    · show "/" ++ n = joinText "/" n
      rw [joinText, if_neg hrelative, if_pos (by decide +kernel)]
  · rw [hconcat]
    exact text_concat_of_head hhead hpieces (fun _ => hnil) (fun _ => hnil) hn

/-- A name behind a plain text makes a plain text. -/
theorem IsPlain.joinText_name {text : String} (h : IsPlain text) {n : String} (hn : IsName n) :
    IsPlain (joinText text n) := by
  rw [IsPlain] at h ⊢
  rw [hn.ofText_joinText, (isSpelled_ofText text).text_concat hn, h]

/-- Names behind a plain text make a plain text. -/
theorem IsPlain.foldl_joinText {names : List String} (hnames : ∀ n ∈ names, IsName n) :
    ∀ {text : String}, IsPlain text → IsPlain (names.foldl joinText text) := by
  induction names with
  | nil =>
      intro text h
      exact h
  | cons name rest ih =>
      obtain ⟨hname, hrest⟩ := List.forall_mem_cons.mp hnames
      intro text h
      exact ih hrest (h.joinText_name hname)

end Path

end ElementCatalog
