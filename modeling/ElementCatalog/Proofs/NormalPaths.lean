import ElementCatalog.Proofs.JoinedTexts
import ElementCatalog.Proofs.SpecifierTargets

/-!
# Normal paths — names behind a start

A normal path is a start and names behind it.  The start tells whether the path is absolute, and
whether it first leaves the place that it is read from.  Toward: normalization always leaves a
normal path, a normal path is read back from its text, and every file that a specifier may mean has
a normal path.  The route:

* stepping through components keeps a start with names behind it;
* a start is a head with the steps of its double dots, so a normal path is one that may be read from
  a text, and it is read back from its own (`IsNormal.isSpelled`);
* extensions and file names only change or add a last name.
-/

namespace ElementCatalog.Path

open Text (intercalate_splitOn_dot)

/-! ## Names -/

/-- A text has no slash and more than dots, so that it makes a name behind any text without
    slashes. -/
def IsEnding (text : String) : Prop :=
  '/' ∉ text.toList ∧ ∃ c ∈ text.toList, c ≠ '.'

instance (text : String) : Decidable (IsEnding text) :=
  have : Decidable (∃ c ∈ text.toList, c ≠ '.') := List.decidableBEx (· ≠ '.') text.toList
  inferInstanceAs (Decidable (_ ∧ _))

/-- An ending makes a text without slashes a name. -/
theorem IsEnding.isName_append {stem ending : String} (hending : IsEnding ending)
    (hstem : '/' ∉ stem.toList) : IsName (stem ++ ending) := by
  obtain ⟨hslash, c, hc, hdot⟩ := hending
  have hmem : c ∈ (stem ++ ending).toList := by
    rw [String.toList_append]
    exact List.mem_append_right _ hc
  refine ⟨?_, ?_, ?_, ?_⟩
  · intro heq
    rw [heq] at hmem
    cases hmem
  · intro heq
    rw [heq] at hmem
    exact hdot (List.mem_singleton.mp hmem)
  · intro heq
    rw [heq] at hmem
    have hdots : c ∈ ['.', '.'] := hmem
    simp_all
  · rw [String.toList_append, List.mem_append]
    exact not_or.mpr ⟨hstem, hslash⟩

/-- What can end a name is one. -/
theorem IsEnding.isName {ending : String} (h : IsEnding ending) : IsName ending := by
  have hname : IsName ("" ++ ending) := h.isName_append (by decide)
  rwa [String.empty_append] at hname

/-! ## Normal form -/

/-- The starts of normal paths: absolute or not, and with or without a double dot that has nothing
    to remove. -/
def starts : List (List PathComponent) :=
  [[], [.root], [.up], [.root, .up]]

/-- A start with names behind it. -/
def IsNormal (p : Path) : Prop :=
  ∃ start ∈ starts, ∃ names : List String, (∀ n ∈ names, IsName n) ∧
    p = ⟨start ++ names.map .name⟩

/-- A component is a name or none, but no other text. -/
def NamesOnly (components : List PathComponent) : Prop :=
  ∀ n, .name n ∈ components → IsName n

/-- A start is a normal path. -/
theorem isNormal_start (start : List PathComponent) (h : start ∈ starts) : IsNormal ⟨start⟩ :=
  ⟨start, h, [], fun _ hn => absurd hn List.not_mem_nil, by simp⟩

/-- A name behind a normal path. -/
theorem IsNormal.append_name {p : Path} (h : p.IsNormal) {n : String} (hn : IsName n) :
    IsNormal ⟨p.components ++ [.name n]⟩ := by
  obtain ⟨start, hstart, names, hnames, rfl⟩ := h
  refine ⟨start, hstart, names ++ [n], ?_, by simp⟩
  intro m hm
  rcases List.mem_append.mp hm with hm | hm
  · exact hnames m hm
  · rw [List.mem_singleton.mp hm]
    exact hn

/-- A normal path is a start, or a name behind a normal path. -/
theorem IsNormal.cases_last {p : Path} (h : p.IsNormal) :
    p.components ∈ starts ∨ ∃ directory last, IsNormal directory ∧ IsName last ∧
      p = ⟨directory.components ++ [.name last]⟩ := by
  obtain ⟨start, hstart, names, hnames, rfl⟩ := h
  rcases List.eq_nil_or_concat' names with rfl | ⟨init, last, rfl⟩
  · left
    simpa using hstart
  · right
    refine ⟨⟨start ++ init.map .name⟩, last, ⟨start, hstart, init, ?_, rfl⟩, ?_, by simp⟩
    · exact fun n hn => hnames n (List.mem_append_left _ hn)
    · exact hnames last (List.mem_append_right _ (List.mem_singleton.mpr rfl))

/-- A step from a normal path leads to a normal path. -/
theorem IsNormal.step {collected : List PathComponent} (h : IsNormal ⟨collected⟩)
    {c : PathComponent} (hc : ∀ n, c = .name n → IsName n) : IsNormal ⟨step collected c⟩ := by
  cases c with
  | root => exact isNormal_start [.root] (by decide)
  | here => exact h
  | name n => exact h.append_name (hc n rfl)
  | up =>
      rcases h.cases_last with hstart | ⟨directory, last, hdirectory, -, heq⟩
      · simp only [starts, List.mem_cons, List.not_mem_nil, or_false] at hstart
        rcases hstart with rfl | rfl | rfl | rfl
        all_goals exact isNormal_start _ (by decide)
      · cases heq
        simp only [Path.step, List.getLast?_append, List.getLast?_singleton, Option.some_or,
          List.dropLast_concat]
        exact hdirectory

/-- Normalization leaves a normal path. -/
theorem normalize_isNormal {p : Path} (h : NamesOnly p.components) : p.normalize.IsNormal := by
  have hfold : ∀ (components collected : List PathComponent), NamesOnly components →
      IsNormal ⟨collected⟩ → IsNormal ⟨components.foldl Path.step collected⟩ := by
    intro components
    induction components with
    | nil => exact fun _ _ h => h
    | cons c rest ih =>
        intro collected hnames hcollected
        refine ih _ (fun n hn => hnames n (List.mem_cons_of_mem _ hn)) (hcollected.step ?_)
        rintro n rfl
        exact hnames n List.mem_cons_self
  exact hfold p.components [] h (isNormal_start _ (by decide))

/-! ## Text -/

/-- A path that is read from a text has names, apart from dots. -/
theorem namesOnly_ofText (text : String) : NamesOnly (ofText text).components := by
  intro n hn
  obtain ⟨hstep, hup⟩ := mem_stepPieces_of_name hn
  exact isName_of_mem_stepPieces hstep hup

/-- What is read from a directory is normal. -/
theorem resolveFrom_isNormal (directory : Path) (relative : String) :
    (resolveFrom directory relative).IsNormal :=
  normalize_isNormal (namesOnly_ofText _)

/-- A start is a head with the steps of its double dots. -/
theorem exists_head_of_start {start : List PathComponent} (h : start ∈ starts) :
    ∃ head ∈ heads, ∃ ups : List String,
      (∀ q ∈ ups, takesStep q = true ∧ '/' ∉ q.toList) ∧ start = head ++ ups.map component := by
  simp only [starts, List.mem_cons, List.not_mem_nil, or_false] at h
  rcases h with rfl | rfl | rfl | rfl
  · exact ⟨[], by decide, [], by decide, rfl⟩
  · exact ⟨[.root], by decide, [], by decide, rfl⟩
  · exact ⟨[], by decide, [".."], by decide, rfl⟩
  · exact ⟨[.root], by decide, [".."], by decide, rfl⟩

/-- A normal path is spelled as a text. -/
theorem IsNormal.isSpelled {p : Path} (h : p.IsNormal) : p.IsSpelled := by
  obtain ⟨start, hstart, names, hnames, rfl⟩ := h
  obtain ⟨head, hhead, ups, hups, rfl⟩ := exists_head_of_start hstart
  refine ⟨head, hhead, ups ++ names, ?_, ?_⟩
  · intro q hq
    rcases List.mem_append.mp hq with hq | hq
    · exact hups q hq
    · exact (hnames q hq).isStep
  · rw [List.map_append, map_component_of_isName hnames, List.append_assoc]

/-- **Text of normal paths**: a normal path is read back from its text. -/
theorem IsNormal.ofText_text {p : Path} (h : p.IsNormal) : ofText p.text = p :=
  h.isSpelled.ofText_text

/-! ## Candidates -/

/-- The last of several texts stands at the end. -/
theorem exists_intercalate_concat (texts : List String) :
    ∃ before, ∀ n, "/".intercalate (texts ++ [n]) = before ++ n := by
  by_cases h : texts = []
  · subst h
    exact ⟨"", fun n => by simp⟩
  · refine ⟨"/".intercalate texts ++ "/", fun n => ?_⟩
    rw [String.intercalate_append_of_ne_nil h (List.cons_ne_nil n []), String.intercalate_singleton]

/-- A last name is written at the end. -/
theorem exists_text_append_name (components : List PathComponent) :
    ∃ before, ∀ n, (⟨components ++ [.name n]⟩ : Path).text = before ++ n := by
  cases components with
  | nil => exact ⟨"", fun n => by simp [text, render, PathComponent.text]⟩
  | cons c rest =>
      obtain ⟨before, hbefore⟩ := exists_intercalate_concat (rest.map PathComponent.text)
      obtain ⟨before', hbefore'⟩ := exists_intercalate_concat ((c :: rest).map PathComponent.text)
      cases c with
      | root =>
          refine ⟨"/" ++ before, fun n => ?_⟩
          rw [String.append_assoc, ← hbefore n]
          simp [text, render, PathComponent.text]
      | here | up | name =>
          refine ⟨before', fun n => ?_⟩
          rw [← hbefore' n]
          simp [text, render, PathComponent.text]

/-- Where the name at the end of a normal path goes on. -/
theorem IsNormal.ofText_name_append {front : List PathComponent} (h : (⟨front⟩ : Path).IsNormal)
    {n ending : String} (hname : IsName (n ++ ending)) :
    ofText ((⟨front ++ [.name n]⟩ : Path).text ++ ending) = ⟨front ++ [.name (n ++ ending)]⟩ := by
  obtain ⟨before, hbefore⟩ := exists_text_append_name front
  rw [hbefore, String.append_assoc, ← hbefore]
  exact (h.append_name hname).ofText_text

/-- An ending behind a normal path makes a name that ends in it, in a normal directory. -/
theorem IsNormal.exists_ofText_append {p : Path} (h : p.IsNormal) {ending : String}
    (hending : IsEnding ending) : ∃ directory stem, IsNormal directory ∧ IsName (stem ++ ending) ∧
      ofText (p.text ++ ending) = ⟨directory.components ++ [.name (stem ++ ending)]⟩ := by
  -- The text is that of a normal path, which is read back.
  suffices hq : ∃ directory stem, IsNormal directory ∧ IsName (stem ++ ending) ∧
      (⟨directory.components ++ [.name (stem ++ ending)]⟩ : Path).text = p.text ++ ending by
    obtain ⟨directory, stem, hdirectory, hname, htext⟩ := hq
    refine ⟨directory, stem, hdirectory, hname, ?_⟩
    rw [← htext, (hdirectory.append_name hname).ofText_text]
  have hdots : IsName ("" ++ ending) ∧ IsName (".." ++ ending) :=
    ⟨hending.isName_append (by decide), hending.isName_append (by decide)⟩
  rcases h.cases_last with hstart | ⟨directory, last, hdirectory, hlast, rfl⟩
  · -- The ending is the first name itself, or it stands behind the dots of the start.
    obtain ⟨components⟩ := p
    simp only [starts, List.mem_cons, List.not_mem_nil, or_false] at hstart
    rcases hstart with rfl | rfl | rfl | rfl
    · exact ⟨⟨[]⟩, "", isNormal_start [] (by decide), hdots.1, by
        simp [text, render, PathComponent.text]⟩
    · exact ⟨⟨[.root]⟩, "", isNormal_start [.root] (by decide), hdots.1, by
        simp [text, render, PathComponent.text]⟩
    · exact ⟨⟨[]⟩, "..", isNormal_start [] (by decide), hdots.2, by
        simp [text, render, PathComponent.text]⟩
    · refine ⟨⟨[.root]⟩, "..", isNormal_start [.root] (by decide), hdots.2, ?_⟩
      simp only [text, render, List.cons_append, List.nil_append, List.map_cons, List.map_nil,
        String.intercalate_singleton, PathComponent.text, ← String.append_assoc]
  · obtain ⟨before, hbefore⟩ := exists_text_append_name directory.components
    refine ⟨directory, last, hdirectory, hending.isName_append hlast.noSlash, ?_⟩
    rw [hbefore, hbefore, String.append_assoc]

/-- An ending behind a normal path makes a normal path again. -/
theorem IsNormal.ofText_append {p : Path} (h : p.IsNormal) {ending : String}
    (hending : IsEnding ending) : (ofText (p.text ++ ending)).IsNormal := by
  obtain ⟨directory, stem, hdirectory, hname, heq⟩ := h.exists_ofText_append hending
  rw [heq]
  exact hdirectory.append_name hname

/-- A name that is joined to a normal path makes a normal path. -/
theorem IsNormal.ofText_joinText {p : Path} (h : p.IsNormal) {n : String} (hending : IsEnding n) :
    (ofText (joinText p.text n)).IsNormal := by
  have hn : IsName n := hending.isName
  rw [hn.ofText_joinText, h.ofText_text]
  exact h.append_name hn

/-- A name is its stem, or has its stem at the start. -/
theorem exists_splitName_append (name : String) :
    ∃ ending, (splitName name).1 ++ ending = name := by
  cases hlast : (name.splitOn ".").getLast? with
  | none => exact ⟨"", by rw [splitName, hlast, String.append_empty]⟩
  | some last =>
      obtain ⟨front, hfront⟩ : ∃ front, name.splitOn "." = front ++ [last] :=
        ⟨_, (List.dropLast_append_getLast? last hlast).symm⟩
      rw [splitName, hlast]
      dsimp only
      split
      · exact ⟨"", String.append_empty⟩
      · rename_i hstem
        refine ⟨"." ++ last, ?_⟩
        have hname := intercalate_splitOn_dot name
        have hne : front ≠ [] := by
          rintro rfl
          rw [hfront] at hstem
          exact hstem rfl
        rw [hfront, String.intercalate_append_of_ne_nil hne (List.cons_ne_nil last []),
          String.intercalate_singleton] at hname
        rw [hfront, List.dropLast_concat, ← String.append_assoc]
        exact hname

/-- The part of a name before its extension has no slash. -/
theorem slash_notMem_splitName {name : String} (h : '/' ∉ name.toList) :
    '/' ∉ (splitName name).1.toList := by
  obtain ⟨ending, hname⟩ := exists_splitName_append name
  intro hslash
  rw [← hname, String.toList_append] at h
  exact h (List.mem_append_left _ hslash)

/-- Another extension leaves a path normal. -/
theorem IsNormal.withExtension {p : Path} (h : p.IsNormal) {e : String}
    (hending : IsEnding ("." ++ e)) : (p.withExtension e).IsNormal := by
  rcases h.cases_last with hstart | ⟨directory, last, hdirectory, hlast, rfl⟩
  · have hnone : p.withExtension e = p := by
      obtain ⟨components⟩ := p
      simp only [starts, List.mem_cons, List.not_mem_nil, or_false] at hstart
      rcases hstart with rfl | rfl | rfl | rfl <;> rfl
    rw [hnone]
    exact h
  · rw [Path.withExtension, List.getLast?_concat]
    dsimp only
    rw [List.dropLast_concat, String.append_assoc]
    exact hdirectory.append_name (hending.isName_append (slash_notMem_splitName hlast.noSlash))

/-- The location that a specifier names is normal. -/
theorem specifierBase?_isNormal {fromFile base : Path} {specifier : String}
    (h : specifierBase? fromFile specifier = some base) : base.IsNormal := by
  rw [specifierBase?] at h
  split at h
  · obtain ⟨directory, -, rfl⟩ := Option.map_eq_some_iff.mp h
    exact resolveFrom_isNormal directory specifier
  · cases h

/-- The extensions that are tried make names. -/
theorem moduleExtensions_endings :
    ∀ e ∈ moduleExtensions, IsEnding ("." ++ e) ∧ IsEnding ("index." ++ e) := by
  decide

/-- The extensions of sources make names. -/
theorem sourceExtensions_endings (emitted : Option String) :
    ∀ e ∈ sourceExtensions emitted, IsEnding ("." ++ e) := by
  unfold sourceExtensions
  split <;> decide

/-- **Candidates**: every file that a specifier may mean has a normal path. -/
theorem isNormal_of_mem_fallbackCandidates {fromFile p : Path} {specifier : String}
    (h : p ∈ fallbackCandidates fromFile specifier) : p.IsNormal := by
  obtain ⟨sources, heq, hsources⟩ := fallbackCandidates_eq fromFile specifier
  rw [heq] at h
  rcases List.mem_append.mp h with hmodule | hsource
  · rw [moduleCandidates] at hmodule
    cases hbase : specifierBase? fromFile specifier with
    | none =>
        rw [hbase] at hmodule
        cases hmodule
    | some base =>
        have hnormal := specifierBase?_isNormal hbase
        rw [hbase] at hmodule
        rcases List.mem_append.mp hmodule with hmodule | hindex
        · rcases List.mem_cons.mp hmodule with rfl | happended
          · exact hnormal
          · obtain ⟨e, he, rfl⟩ := List.mem_map.mp happended
            rw [String.append_assoc]
            exact hnormal.ofText_append (moduleExtensions_endings e he).1
        · obtain ⟨e, he, rfl⟩ := List.mem_map.mp hindex
          exact hnormal.ofText_joinText (moduleExtensions_endings e he).2
  · obtain ⟨-, base, hbase, e, he, rfl⟩ := hsources p hsource
    exact (specifierBase?_isNormal hbase).withExtension (sourceExtensions_endings _ e he)

end ElementCatalog.Path
