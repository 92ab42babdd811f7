import ElementCatalog.Component.Assembly
import ElementCatalog.Proofs.RegistrationReading
import Mathlib.Data.List.Forall2
import Mathlib.Data.List.Induction

/-!
# Assembly — the last registration of a tag that succeeds makes its component

Toward: whatever the order of successes, failures and replacements, the catalog lists for each tag
the component of the last registration that succeeds, in the order of these registrations, and every
registration is either a component or one diagnostic.  The route:

* `outcome?` is what a registration makes by itself; one registration changes the components only
  through its outcome (`components_add`);
* `winners` lists the outcomes that no later one of their tag replaces; a run over registrations
  ends with exactly these components (`components_foldl`);
* one registration adds exactly one to the books (`total_add`), as a component or as a diagnostic.
-/

namespace ElementCatalog

namespace Dictionary

variable {α : Type}

/-- Where every name stands once, erasing a name drops exactly its entry. -/
theorem erase_eq_filter {entries : Dictionary α} (h : (names entries).Nodup) (name : String) :
    erase entries name = entries.filter fun entry => entry.1 ≠ name := by
  induction entries with
  | nil => rfl
  | cons entry rest ih =>
      obtain ⟨n, v⟩ := entry
      obtain ⟨hn, hrest⟩ := List.nodup_cons.mp h
      rw [erase]
      by_cases hname : n = name
      · subst hname
        have hall : ∀ e ∈ rest, e.1 ≠ n := by
          intro e he heq
          exact hn (List.mem_map.mpr ⟨e, he, heq⟩)
        rw [if_pos rfl, List.filter_cons_of_neg (by simp)]
        exact (List.filter_eq_self.mpr (by simpa using hall)).symm
      · rw [if_neg hname, List.filter_cons_of_pos (by simpa using hname), ih hrest]

/-- Erasing a name that is there makes a dictionary shorter by one. -/
theorem length_erase_of_find?_some {entries : Dictionary α} {name : String} {value : α}
    (h : find? entries name = some value) :
    (erase entries name).length + 1 = entries.length := by
  induction entries with
  | nil => exact nomatch h
  | cons entry rest ih =>
      obtain ⟨n, v⟩ := entry
      rw [find?] at h
      rw [erase]
      by_cases hname : n = name
      · rw [if_pos hname, List.length_cons]
      · rw [if_neg hname] at h ⊢
        rw [List.length_cons, List.length_cons, ih h]

/-- Erasing a name that is not there changes nothing. -/
theorem erase_of_find?_none {entries : Dictionary α} {name : String}
    (h : find? entries name = none) : erase entries name = entries := by
  induction entries with
  | nil => rfl
  | cons entry rest ih =>
      obtain ⟨n, v⟩ := entry
      rw [find?] at h
      rw [erase]
      by_cases hname : n = name
      · rw [if_pos hname] at h
        cases h
      · rw [if_neg hname] at h ⊢
        rw [ih h]

end Dictionary

namespace Workspace

variable {w : Workspace}

/-! ## One registration -/

/-- The component that a registration makes, if it can be resolved and read. -/
def outcome? (w : Workspace) (r : Registration) : Option Component :=
  w.program.files[r.fileId]?.bind fun file => (w.registered file r).toOption

/-- A registration that succeeds makes a component of its tag. -/
theorem tagName_of_outcome? {r : Registration} {c : Component} (h : w.outcome? r = some c) :
    c.tagName = r.tagName := by
  obtain ⟨file, -, hfile⟩ := Option.bind_eq_some_iff.mp h
  rw [registered] at hfile
  cases hs : w.surfaceOf file r with
  | error diagnostic =>
      rw [hs] at hfile
      exact nomatch hfile
  | ok s =>
      rw [hs] at hfile
      rw [← Option.some.inj hfile]
      rfl

/-- A registration changes the components only through its outcome: a component goes to the end, and
    one of the same tag leaves. -/
theorem components_add (books : Books) (r : Registration) :
    (Books.add w books r).components =
      match w.outcome? r with
      | some c => Dictionary.erase books.components c.tagName ++ [(c.tagName, c)]
      | none => books.components := by
  rw [Books.add, outcome?]
  cases w.program.files[r.fileId]? with
  | none => rfl
  | some file =>
      dsimp only [Option.bind_some]
      cases w.registered file r with
      | ok component => rfl
      | error diagnostic => rfl

/-! ## The components of a run -/

/-- The outcomes that no later one of their tag replaces, in order. -/
def winners (w : Workspace) : List Registration → List Component
  | [] => []
  | r :: rest =>
    match w.outcome? r with
    | some c =>
      if ∃ later ∈ rest, later.tagName = r.tagName ∧ (w.outcome? later).isSome then
        winners w rest
      else c :: winners w rest
    | none => winners w rest

/-- A winner is the outcome of one of the registrations. -/
theorem exists_of_mem_winners {rs : List Registration} {c : Component} (h : c ∈ w.winners rs) :
    ∃ r ∈ rs, w.outcome? r = some c := by
  induction rs with
  | nil => exact absurd h List.not_mem_nil
  | cons r rest ih =>
      have hlater (hrest : c ∈ w.winners rest) : ∃ r' ∈ r :: rest, w.outcome? r' = some c := by
        obtain ⟨r', hr', hc⟩ := ih hrest
        exact ⟨r', List.mem_cons_of_mem _ hr', hc⟩
      rw [winners] at h
      cases hr : w.outcome? r with
      | none =>
          rw [hr] at h
          exact hlater h
      | some first =>
          rw [hr] at h
          dsimp only at h
          split at h
          · exact hlater h
          · rcases List.mem_cons.mp h with heq | hrest
            · exact ⟨r, List.mem_cons_self, by rw [hr, heq]⟩
            · exact hlater hrest

/-- No two winners are of one tag. -/
theorem nodup_tagNames_winners (w : Workspace) (rs : List Registration) :
    ((w.winners rs).map (·.tagName)).Nodup := by
  induction rs with
  | nil => exact List.nodup_nil
  | cons r rest ih =>
      rw [winners]
      cases hr : w.outcome? r with
      | none => exact ih
      | some c =>
          dsimp only
          split
          · exact ih
          · rename_i hlast
            refine List.nodup_cons.mpr ⟨fun hmem => hlast ?_, ih⟩
            obtain ⟨other, hother, htag⟩ := List.mem_map.mp hmem
            obtain ⟨later, hlater, houtcome⟩ := exists_of_mem_winners hother
            refine ⟨later, hlater, ?_, by rw [houtcome]; rfl⟩
            exact (tagName_of_outcome? houtcome).symm.trans (htag.trans (tagName_of_outcome? hr))

/-- With one more registration a tag succeeds later if it did before, or if that registration is of
    the tag and succeeds. -/
theorem exists_success_append_singleton {rest : List Registration} {r : Registration}
    {tag : String} :
    (∃ later ∈ rest ++ [r], later.tagName = tag ∧ (w.outcome? later).isSome) ↔
      (∃ later ∈ rest, later.tagName = tag ∧ (w.outcome? later).isSome) ∨
        (r.tagName = tag ∧ (w.outcome? r).isSome) := by
  simp only [List.mem_append, List.mem_singleton, or_and_right, exists_or, exists_eq_left]

/-- One registration more: its outcome goes to the end, and a winner of its tag leaves. -/
theorem winners_append_singleton (rs : List Registration) (r : Registration) :
    w.winners (rs ++ [r]) =
      match w.outcome? r with
      | some c => (w.winners rs).filter (fun other => other.tagName ≠ c.tagName) ++ [c]
      | none => w.winners rs := by
  induction rs with
  | nil =>
      cases hr : w.outcome? r <;> simp [winners, hr]
  | cons first rest ih =>
      rw [List.cons_append, winners, winners, ih]
      cases hr : w.outcome? r with
      | none =>
          -- a registration that fails is no later success of any tag
          cases hfirst : w.outcome? first with
          | none => rfl
          | some c =>
              simp only [exists_success_append_singleton, hr, Option.isSome_none,
                Bool.false_eq_true, and_false, or_false]
      | some c =>
          have htag : c.tagName = r.tagName := tagName_of_outcome? hr
          have hlater : (∃ later ∈ rest ++ [r],
                later.tagName = first.tagName ∧ (w.outcome? later).isSome) ↔
              (∃ later ∈ rest, later.tagName = first.tagName ∧ (w.outcome? later).isSome) ∨
                r.tagName = first.tagName := by
            rw [exists_success_append_singleton, hr, Option.isSome_some, eq_self, and_true]
          cases hfirst : w.outcome? first with
          | none => rfl
          | some c' =>
              have htag' : c'.tagName = first.tagName := tagName_of_outcome? hfirst
              simp only [hlater]
              by_cases hrest : ∃ later ∈ rest,
                  later.tagName = first.tagName ∧ (w.outcome? later).isSome
              · rw [if_pos (Or.inl hrest), if_pos hrest]
              · rw [if_neg hrest]
                by_cases hsame : r.tagName = first.tagName
                · rw [if_pos (Or.inr hsame), List.filter_cons_of_neg (by simp [htag, htag', hsame])]
                · have hne : c'.tagName ≠ c.tagName := by
                    rw [htag, htag']
                    exact fun heq => hsame heq.symm
                  rw [if_neg (not_or.mpr ⟨hrest, hsame⟩),
                    List.filter_cons_of_pos (by simpa using hne), List.cons_append]

/-- A run over registrations ends with the components of the winners, under their tags. -/
theorem components_foldl (rs : List Registration) (diagnostics : List Diagnostic) :
    (rs.foldl (Books.add w) ⟨[], diagnostics⟩).components =
      (w.winners rs).map fun c => (c.tagName, c) := by
  induction rs using List.reverseRecOn with
  | nil => rfl
  | append_singleton rs r ih =>
      have hnames : Dictionary.names ((w.winners rs).map fun c => (c.tagName, c)) =
          (w.winners rs).map (·.tagName) := by
        rw [Dictionary.names, List.map_map]
        rfl
      rw [List.foldl_append, List.foldl_cons, List.foldl_nil, components_add, ih,
        winners_append_singleton]
      cases w.outcome? r with
      | none => rfl
      | some c =>
          dsimp only
          rw [Dictionary.erase_eq_filter (by rw [hnames]; exact w.nodup_tagNames_winners rs),
            List.filter_map, List.map_append]
          rfl

/-- Registrations that fail do not matter to the winners. -/
theorem winners_filter (rs : List Registration) :
    w.winners (rs.filter fun r => (w.outcome? r).isSome) = w.winners rs := by
  induction rs with
  | nil => rfl
  | cons r rest ih =>
      cases hr : w.outcome? r with
      | none =>
          rw [List.filter_cons_of_neg (by simp [hr]), ih, winners, hr]
      | some c =>
          have hlater : (∃ later ∈ rest.filter fun r => (w.outcome? r).isSome,
                later.tagName = r.tagName ∧ (w.outcome? later).isSome) ↔
              ∃ later ∈ rest, later.tagName = r.tagName ∧ (w.outcome? later).isSome := by
            constructor
            · rintro ⟨later, hmem, hlater⟩
              exact ⟨later, List.mem_of_mem_filter hmem, hlater⟩
            · rintro ⟨later, hmem, hlater⟩
              exact ⟨later, List.mem_filter.mpr ⟨hmem, hlater.2⟩, hlater⟩
          rw [List.filter_cons_of_pos (by simp [hr]), winners, winners, hr, ih]
          simp only [hlater]

/-! ## The places of the winners -/

/-- The registration at a place is the last one of its tag that succeeds, and makes the
    component. -/
def WinsAt (w : Workspace) (rs : List Registration) (place : Nat) (c : Component) : Prop :=
  ∃ r, rs[place]? = some r ∧ w.outcome? r = some c ∧ c.tagName = r.tagName ∧
    ∀ place' r', place < place' → rs[place']? = some r' → r'.tagName = r.tagName →
      w.outcome? r' = none

/-- A first registration does not matter to the places after it. -/
theorem winsAt_cons_succ {r : Registration} {rest : List Registration} {place : Nat}
    {c : Component} : WinsAt w (r :: rest) (place + 1) c ↔ WinsAt w rest place c := by
  constructor
  · rintro ⟨r', hplace, hr', htag, hlast⟩
    refine ⟨r', hplace, hr', htag, fun place' r'' hlt hplace' => ?_⟩
    exact hlast (place' + 1) r'' (Nat.succ_lt_succ hlt) hplace'
  · rintro ⟨r', hplace, hr', htag, hlast⟩
    refine ⟨r', hplace, hr', htag, fun place' r'' hlt hplace' => ?_⟩
    obtain ⟨before, rfl⟩ := Nat.exists_eq_add_of_lt hlt
    rw [show place + 1 + before + 1 = (place + before + 1) + 1 by omega] at hplace'
    exact hlast (place + before + 1) r'' (by omega) hplace'

/-- The first registration wins if it succeeds and no later one of its tag does. -/
theorem winsAt_cons_zero {r : Registration} {rest : List Registration} {c : Component} :
    WinsAt w (r :: rest) 0 c ↔ w.outcome? r = some c ∧
      ¬ ∃ later ∈ rest, later.tagName = r.tagName ∧ (w.outcome? later).isSome := by
  constructor
  · rintro ⟨r', hplace, hr', -, hlast⟩
    obtain rfl : r = r' := Option.some.inj hplace
    refine ⟨hr', ?_⟩
    rintro ⟨later, hlater, htag, hsome⟩
    obtain ⟨place, hplace'⟩ := List.mem_iff_getElem?.mp hlater
    rw [hlast (place + 1) later (Nat.succ_pos _) hplace' htag] at hsome
    exact absurd hsome Bool.false_ne_true
  · rintro ⟨hr, hlast⟩
    refine ⟨r, rfl, hr, tagName_of_outcome? hr, fun place' r' hlt hplace' htag => ?_⟩
    obtain ⟨before, rfl⟩ := Nat.exists_eq_add_of_lt hlt
    rw [Nat.zero_add] at hplace'
    by_contra hne
    refine hlast ⟨r', List.mem_of_getElem? hplace', htag, ?_⟩
    exact Option.ne_none_iff_isSome.mp hne

/-- The winners are the components of the winning places, in their order. -/
theorem exists_places_of_winners (w : Workspace) (rs : List Registration) :
    ∃ places : List Nat, places.Pairwise (· < ·) ∧
      (∀ place, place ∈ places ↔ ∃ c, WinsAt w rs place c) ∧
      List.Forall₂ (WinsAt w rs) places (w.winners rs) := by
  induction rs with
  | nil =>
      refine ⟨[], .nil, fun place => ⟨fun h => absurd h List.not_mem_nil, ?_⟩, .nil⟩
      rintro ⟨c, r, hplace, -⟩
      exact nomatch hplace
  | cons r rest ih =>
      obtain ⟨places, hsorted, hplaces, hcomponents⟩ := ih
      have hsorted' : (places.map (· + 1)).Pairwise (· < ·) :=
        List.pairwise_map.mpr (hsorted.imp fun h => Nat.succ_lt_succ h)
      have hcomponents' :
          List.Forall₂ (WinsAt w (r :: rest)) (places.map (· + 1)) (w.winners rest) :=
        List.forall₂_map_left_iff.mpr (hcomponents.imp fun _ _ h => winsAt_cons_succ.mpr h)
      have hplaces' (place : Nat) :
          place + 1 ∈ places.map (· + 1) ↔ ∃ c, WinsAt w (r :: rest) (place + 1) c := by
        simp only [List.mem_map, Nat.add_right_cancel_iff, exists_eq_right, hplaces,
          winsAt_cons_succ]
      by_cases hfirst : ∃ c, WinsAt w (r :: rest) 0 c
      · obtain ⟨c, hc⟩ := hfirst
        obtain ⟨hr, hlast⟩ := winsAt_cons_zero.mp hc
        refine ⟨0 :: places.map (· + 1), List.pairwise_cons.mpr ⟨?_, hsorted'⟩, ?_, ?_⟩
        · intro place hplace
          obtain ⟨before, -, rfl⟩ := List.mem_map.mp hplace
          exact Nat.succ_pos before
        · intro place
          cases place with
          | zero => exact ⟨fun _ => ⟨c, hc⟩, fun _ => List.mem_cons_self⟩
          | succ place => rw [List.mem_cons, ← hplaces' place]; simp
        · rw [winners, hr]
          dsimp only
          rw [if_neg hlast]
          exact .cons hc hcomponents'
      · refine ⟨places.map (· + 1), hsorted', ?_, ?_⟩
        · intro place
          cases place with
          | zero => exact ⟨fun h => by simp at h, fun h => absurd h hfirst⟩
          | succ place => exact hplaces' place
        · rw [winners]
          cases hr : w.outcome? r with
          | none => exact hcomponents'
          | some c =>
              dsimp only
              rw [if_pos ?_]
              · exact hcomponents'
              · by_contra hlast
                exact hfirst ⟨c, winsAt_cons_zero.mpr ⟨hr, hlast⟩⟩

/-! ## The balance of the books -/

/-- What the books hold: a component or a diagnostic for every registration. -/
def Books.total (books : Books) : Nat :=
  books.components.length + Diagnostic.countOf .unresolvedSymbol books.diagnostics +
    Diagnostic.countOf .extractionFailed books.diagnostics +
    Diagnostic.countOf .duplicateTagName books.diagnostics

/-- A registration fails because its implementation is not found or cannot be read. -/
theorem kind_of_registered_error {file : SourceFile} {r : Registration} {d : Diagnostic}
    (h : w.registered file r = .error d) :
    d.kind = .unresolvedSymbol ∨ d.kind = .extractionFailed := by
  have hs : w.surfaceOf file r = .error d := by
    rw [registered] at h
    cases hs : w.surfaceOf file r with
    | ok s => rw [hs] at h; exact nomatch h
    | error d' => rw [hs] at h; exact congrArg _ (Except.error.inj h)
  rw [surfaceOf] at hs
  split at hs
  · exact nomatch hs
  · split at hs
    · rw [← Except.error.inj hs]
      exact Or.inl rfl
    · split at hs
      · exact nomatch hs
      · rw [← Except.error.inj hs]
        exact Or.inr rfl

/-- Entering a component adds one to the books: the component, or the diagnostic that tells of the
    one it replaces. -/
theorem total_enter (books : Books) (file : SourceFile) (r : Registration) (c : Component) :
    (books.enter file r c).total = books.total + 1 := by
  rw [Books.enter]
  cases hfound : Dictionary.find? books.components c.tagName with
  | none =>
      simp only [Books.total, Dictionary.erase_of_find?_none hfound, List.length_append,
        List.length_singleton, List.append_nil]
      omega
  | some previous =>
      have hlength := Dictionary.length_erase_of_find?_some hfound
      simp only [Books.total, Diagnostic.countOf, List.countP_append, List.length_append,
        List.length_singleton, List.countP_singleton, registrationWarning, Diagnostic.warningAt]
      simp only [beq_iff_eq, reduceCtorEq, if_false, if_true]
      omega

/-- A registration of a file of the program adds one to the books. -/
theorem total_add {books : Books} {r : Registration} {file : SourceFile}
    (hfile : w.program.files[r.fileId]? = some file) :
    (Books.add w books r).total = books.total + 1 := by
  rw [Books.add, hfile]
  dsimp only
  cases hr : w.registered file r with
  | ok c => exact total_enter books file r c
  | error d =>
      simp only [Books.total, Diagnostic.countOf, List.countP_append, List.countP_singleton]
      rcases kind_of_registered_error hr with hkind | hkind
      · simp only [hkind, beq_iff_eq, reduceCtorEq, if_false, if_true]
        omega
      · simp only [hkind, beq_iff_eq, reduceCtorEq, if_false, if_true]
        omega

/-- Registrations of files of the program add one each. -/
theorem total_foldl {rs : List Registration}
    (h : ∀ r ∈ rs, ∃ file, w.program.files[r.fileId]? = some file) (books : Books) :
    (rs.foldl (Books.add w) books).total = books.total + rs.length := by
  induction rs generalizing books with
  | nil => rfl
  | cons r rest ih =>
      obtain ⟨file, hfile⟩ := h r List.mem_cons_self
      rw [List.foldl_cons, ih (fun r' hr' => h r' (List.mem_cons_of_mem _ hr')), total_add hfile,
        List.length_cons]
      omega

/-- Every collected registration belongs to a file of the program. -/
theorem exists_file_of_mem_discovered {r : Registration} (h : r ∈ w.discovered.1) :
    ∃ file, w.program.files[r.fileId]? = some file := by
  rw [discovered, List.mem_flatMap] at h
  obtain ⟨found, hfound, hr⟩ := h
  obtain ⟨file, hfile, rfl⟩ := List.mem_map.mp hfound
  obtain ⟨place, hplace⟩ := List.mem_iff_getElem?.mp (List.mem_of_mem_filter hfile)
  refine ⟨file, ?_⟩
  rw [Registration.fileId_of_mem_ofFile hr, w.program.id_eq_place place file hplace]
  exact hplace

/-- Collecting registrations only reports malformed ones. -/
theorem countOf_discovered {kind : DiagnosticKind} (h : kind ≠ .malformedRegistration) :
    Diagnostic.countOf kind w.discovered.2 = 0 := by
  rw [Diagnostic.countOf, List.countP_eq_zero]
  intro d hd
  rw [discovered, List.mem_flatMap] at hd
  obtain ⟨found, hfound, hd⟩ := hd
  obtain ⟨file, -, rfl⟩ := List.mem_map.mp hfound
  rw [(Registration.of_mem_diagnostics_ofFile hd).1, beq_iff_eq]
  exact fun heq => h heq.symm

/-! ## The catalog -/

/-- The catalog lists the components of the winners among the collected registrations. -/
theorem components_assemble (w : Workspace) (runtime : Runtime) :
    (w.assemble runtime).1.components = w.winners w.discovered.1 := by
  show Dictionary.values (w.discovered.1.foldl (Books.add w) ⟨[], w.discovered.2⟩).components = _
  rw [components_foldl, Dictionary.values, List.map_map]
  exact List.map_id _

/-- **Assembly**: registrations are collected file by file and node by node; the catalog lists, in
    their order, the components of exactly those that are the last of their tag to succeed, as if
    those that fail were not there; and every registration is a component of the catalog or one
    diagnostic. -/
theorem assemble_keeps_last_successes (w : Workspace) (runtime : Runtime) :
    (w.discovered.1 = w.program.discoverableFiles.flatMap fun file =>
        (Registration.ofFile w.conventions file).1) ∧
      (∀ file, ∃ wrapped, (Registration.ofFile w.conventions file).1 =
        (file.module.nodes.flatMap (Registration.atNode w.conventions file)).map
          (Registration.settled wrapped)) ∧
      (∃ places : List Nat, places.Pairwise (· < ·) ∧
        (∀ place, place ∈ places ↔ ∃ c, WinsAt w w.discovered.1 place c) ∧
        List.Forall₂ (WinsAt w w.discovered.1) places (w.assemble runtime).1.components) ∧
      (w.assemble runtime).1.components = Dictionary.values
        ((w.discovered.1.filter fun r => (w.outcome? r).isSome).foldl (Books.add w)
          ⟨[], []⟩).components ∧
      w.discovered.1.length = (w.assemble runtime).1.components.length +
        Diagnostic.countOf .unresolvedSymbol (w.assemble runtime).2 +
        Diagnostic.countOf .extractionFailed (w.assemble runtime).2 +
        Diagnostic.countOf .duplicateTagName (w.assemble runtime).2 := by
  refine ⟨?_, Registration.registrations_ofFile _, ?_, ?_, ?_⟩
  · rw [discovered, List.flatMap_map]
  · rw [components_assemble]
    exact w.exists_places_of_winners _
  · rw [components_assemble, components_foldl, winners_filter, Dictionary.values, List.map_map]
    exact (List.map_id _).symm
  · have htotal := total_foldl (w := w) (fun r hr => exists_file_of_mem_discovered hr)
      ⟨[], w.discovered.2⟩
    have hstart : Books.total ⟨[], w.discovered.2⟩ = 0 := by
      simp [Books.total, countOf_discovered]
    have hlength : (w.assemble runtime).1.components.length =
        (w.discovered.1.foldl (Books.add w) ⟨[], w.discovered.2⟩).components.length :=
      List.length_map _
    rw [hstart, Nat.zero_add] at htotal
    rw [← htotal, hlength]
    rfl

end Workspace

end ElementCatalog
