import ElementCatalog.Config.Basic
import ElementCatalog.Proofs.ScannedLocations

/-!
# Default ignores — what an unconfigured scan leaves out

Without a configuration a scan leaves out what lies in some directories, and files with the ending of
a test.  Toward: a file that is listed beside another one has no such ending.  The route:

* two stars cover any leading components, a star any text, and literals themselves (`covers_literals`
  and the lemmas behind it);
* so a pattern for a directory covers every file of a directory if it covers one of them
  (`covers_beside`), and a pattern for an ending covers only texts that end so (`suffix_of_covers`);
* the default patterns are of these two kinds (`defaultPatterns_kinds`).
-/

namespace ElementCatalog

namespace Glob

/-! ## Tokens -/

/-- The tails of a text are its ends. -/
theorem mem_tails {text tail : List Char} : tail ∈ tails text ↔ tail <:+ text := by
  induction text with
  | nil => rw [tails, List.mem_singleton, List.suffix_nil]
  | cons c rest ih => rw [tails, List.mem_cons, ih, List.suffix_cons_iff]

/-- What follows a separator follows a text that ends in one. -/
theorem mem_tailsAfterSeparators {text tail : List Char} :
    tail ∈ tailsAfterSeparators text ↔ ∃ before, text = before ++ '/' :: tail := by
  induction text with
  | nil =>
      constructor
      · intro h
        cases h
      · rintro ⟨before, h⟩
        cases before <;> cases h
  | cons c rest ih =>
      have hlater : (∃ before, c :: rest = before ++ '/' :: tail) ↔
          (c = '/' ∧ rest = tail) ∨ ∃ before, rest = before ++ '/' :: tail := by
        constructor
        · rintro ⟨before, h⟩
          cases before with
          | nil =>
              cases h
              exact Or.inl ⟨rfl, rfl⟩
          | cons b before =>
              cases h
              exact Or.inr ⟨before, rfl⟩
        · rintro (⟨rfl, rfl⟩ | ⟨before, rfl⟩)
          · exact ⟨[], rfl⟩
          · exact ⟨c :: before, rfl⟩
      rw [hlater, tailsAfterSeparators, ← ih]
      by_cases hc : c = '/'
      · rw [if_pos hc, List.mem_cons]
        exact or_congr_left ⟨fun h => ⟨hc, h.symm⟩, fun h => h.2.symm⟩
      · rw [if_neg hc]
        exact ⟨Or.inr, fun h => h.resolve_left fun hslash => hc hslash.1⟩

/-- Literals cover themselves. -/
theorem covers_literals (literals : List Char) (tokens : List Token) (text : List Char) :
    covers (literals.map .literal ++ tokens) text = true ↔
      ∃ rest, text = literals ++ rest ∧ covers tokens rest = true := by
  induction literals generalizing text with
  | nil =>
      constructor
      · exact fun h => ⟨text, rfl, h⟩
      · rintro ⟨rest, rfl, h⟩
        exact h
  | cons l literals ih =>
      cases text with
      | nil =>
          constructor
          · intro h
            cases h
          · rintro ⟨rest, h, -⟩
            cases h
      | cons c rest =>
          show (c == l && covers (literals.map .literal ++ tokens) rest) = true ↔ _
          rw [Bool.and_eq_true, ih, beq_iff_eq]
          constructor
          · rintro ⟨rfl, more, rfl, h⟩
            exact ⟨more, rfl, h⟩
          · rintro ⟨more, heq, h⟩
            cases heq
            exact ⟨rfl, more, rfl, h⟩

/-- A star covers any text. -/
theorem covers_anyText (tokens : List Token) (text : List Char) :
    covers (.anyText :: tokens) text = true ↔
      ∃ tail, tail <:+ text ∧ covers tokens tail = true := by
  rw [covers, List.any_eq_true]
  exact exists_congr fun tail => and_congr_left fun _ => mem_tails

/-- Two stars cover any leading components. -/
theorem covers_anyComponents {tokens : List Token} (htokens : tokens ≠ []) (text : List Char) :
    covers (.anyComponents :: tokens) text = true ↔
      covers tokens text = true ∨
        ∃ before tail, text = before ++ '/' :: tail ∧ covers tokens tail = true := by
  rw [covers, List.isEmpty_eq_false_iff.mpr htokens, Bool.false_or, List.any_cons, Bool.or_eq_true,
    List.any_eq_true]
  refine or_congr_right ⟨?_, ?_⟩
  · rintro ⟨tail, htail, h⟩
    obtain ⟨before, hbefore⟩ := mem_tailsAfterSeparators.mp htail
    exact ⟨before, tail, hbefore, h⟩
  · rintro ⟨before, tail, hbefore, h⟩
    exact ⟨tail, mem_tailsAfterSeparators.mpr ⟨before, hbefore⟩, h⟩

/-! ## Two kinds of patterns -/

/-- The tokens of a pattern that covers everything in the directories of a name. -/
def inDirectory (directory : String) : List Token :=
  .anyComponents :: ((directory.toList ++ ['/']).map .literal ++ [.anyComponents])

/-- The tokens of a pattern that covers the files with an ending. -/
def withEnding (ending : String) : List Token :=
  .anyComponents :: .anyText :: (ending.toList.map .literal ++ [])

/-- A directory is covered where its name stands as a component with something behind it. -/
theorem covers_inDirectory (directory : String) (text : List Char) :
    covers (inDirectory directory) text = true ↔
      ∃ before rest, (before = [] ∨ ∃ front, before = front ++ ['/']) ∧
        text = before ++ (directory.toList ++ ['/']) ++ rest := by
  have hinside (inside : List Char) :
      covers ((directory.toList ++ ['/']).map .literal ++ [.anyComponents]) inside = true ↔
        ∃ rest, inside = directory.toList ++ ['/'] ++ rest := by
    rw [covers_literals]
    exact exists_congr fun rest => and_iff_left rfl
  rw [inDirectory, covers_anyComponents (by simp), hinside]
  constructor
  · rintro (⟨rest, rfl⟩ | ⟨front, tail, rfl, h⟩)
    · exact ⟨[], rest, Or.inl rfl, rfl⟩
    · obtain ⟨rest, rfl⟩ := (hinside tail).mp h
      refine ⟨front ++ ['/'], rest, Or.inr ⟨front, rfl⟩, ?_⟩
      simp
  · rintro ⟨before, rest, rfl | ⟨front, rfl⟩, rfl⟩
    · exact Or.inl ⟨rest, rfl⟩
    · refine Or.inr ⟨front, directory.toList ++ ['/'] ++ rest, ?_, (hinside _).mpr ⟨rest, rfl⟩⟩
      simp

/-- Where a file of a directory is covered because of a directory above it, all files are. -/
theorem covers_beside {directory : String} {base name : List Char} (hname : '/' ∉ name)
    (h : covers (inDirectory directory) (base ++ name) = true) (other : List Char) :
    covers (inDirectory directory) (base ++ other) = true := by
  obtain ⟨before, rest, hbefore, heq⟩ := (covers_inDirectory _ _).mp h
  rcases List.append_eq_append_iff.mp heq with ⟨more, hmore, hrest⟩ | ⟨more, hbase, -⟩
  · -- The slash behind the directory would stand in the name, unless nothing of it does.
    rcases List.eq_nil_or_concat' more with rfl | ⟨front, last, rfl⟩
    · rw [List.append_nil] at hmore
      exact (covers_inDirectory _ _).mpr ⟨before, other, hbefore, by rw [hmore]⟩
    · have hlast : '/' = last := by
        have hends := congrArg List.getLast? hmore
        rw [← List.append_assoc, ← List.append_assoc, List.getLast?_concat, List.getLast?_concat]
          at hends
        exact Option.some.inj hends
      refine absurd ?_ hname
      rw [hrest, hlast]
      simp
  · refine (covers_inDirectory _ _).mpr ⟨before, more ++ other, hbefore, ?_⟩
    rw [hbase, List.append_assoc]

/-- What is covered because of its ending ends so. -/
theorem suffix_of_covers {ending : String} {text : List Char}
    (h : covers (withEnding ending) text = true) : ending.toList <:+ text := by
  have hends (tail : List Char) (hsuffix : tail <:+ text)
      (htail : covers (.anyText :: (ending.toList.map .literal ++ [])) tail = true) :
      ending.toList <:+ text := by
    obtain ⟨last, hlast, hcovers⟩ := (covers_anyText _ _).mp htail
    obtain ⟨rest, rfl, hrest⟩ := (covers_literals _ _ _).mp hcovers
    rw [covers, List.isEmpty_iff] at hrest
    rw [hrest, List.append_nil] at hlast
    exact hlast.trans hsuffix
  rcases (covers_anyComponents (by simp) _).mp h with htext | ⟨before, tail, rfl, htail⟩
  · exact hends text List.suffix_rfl htext
  · exact hends tail ((List.suffix_cons _ _).trans (List.suffix_append _ _)) htail

end Glob

namespace Scan

/-! ## Default patterns -/

/-- The directories that are left out without a configuration. -/
def ignoredDirectories : List String :=
  ["node_modules", "dist", "build", "__tests__"]

/-- The endings of tests and stories. -/
def testEndings : List String :=
  [ ".test.tsx", ".test.ts", ".test.jsx", ".test.js", ".spec.tsx", ".spec.ts", ".spec.jsx",
    ".spec.js", ".stories.tsx", ".stories.ts" ]

/-- A default pattern is for a directory or for an ending. -/
theorem defaultPatterns_kinds : ∀ pattern ∈ patterns {}, Glob.hasWildcard pattern = true ∧
    ((∃ directory ∈ ignoredDirectories,
        Glob.Pattern.ofText? pattern = some ⟨Glob.inDirectory directory⟩) ∨
      ∃ ending ∈ testEndings, Glob.Pattern.ofText? pattern = some ⟨Glob.withEnding ending⟩) := by
  decide +kernel

/-- **Files side by side**: where a file is kept without a configuration, every file of the same
    directory is kept whose name has no ending of a test. -/
theorem kept_beside {d : Disk} {root base name other : String} (hslash : '/' ∉ name.toList)
    (hending : ∀ ending ∈ testEndings,
      ending.toList.length ≤ name.toList.length ∧ ¬ending.toList <:+ name.toList)
    (hkept : ∀ pattern ∈ patterns {}, ignoredBy (.onDisk d) root pattern (base ++ other) = false) :
    ∀ pattern ∈ patterns {}, ignoredBy (.onDisk d) root pattern (base ++ name) = false := by
  intro pattern hpattern
  obtain ⟨hwild, hkind⟩ := defaultPatterns_kinds pattern hpattern
  have hother := hkept pattern hpattern
  rw [← Bool.not_eq_true, ignoredBy_onDisk hwild] at hother ⊢
  rintro ⟨read, hread, hcovers⟩
  rw [Glob.Pattern.covers, String.toList_append] at hcovers
  rcases hkind with ⟨directory, -, htokens⟩ | ⟨ending, hmem, htokens⟩
  · rw [htokens] at hread
    cases hread
    refine hother ⟨_, htokens, ?_⟩
    rw [Glob.Pattern.covers, String.toList_append]
    exact Glob.covers_beside hslash hcovers other.toList
  · rw [htokens] at hread
    cases hread
    obtain ⟨hlength, hnot⟩ := hending ending hmem
    exact hnot (List.suffix_of_suffix_length_le (Glob.suffix_of_covers hcovers)
      (List.suffix_append _ _) hlength)

end Scan

end ElementCatalog
