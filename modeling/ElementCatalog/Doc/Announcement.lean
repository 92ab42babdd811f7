import ElementCatalog.Doc.Sections

/-!
# Announcements — how a block names an event

An event is announced by its name, before which its type may stand in braces.  Its description
follows after a hyphen or directly.
-/

namespace ElementCatalog.DocBlock

open Text (AllBlank isBlank trim)

/-- A text whose braces match. -/
inductive Balanced : List Char → Prop where
  | nil : Balanced []
  | plain {c : Char} {rest : List Char} (hopen : c ≠ '{') (hclose : c ≠ '}')
    (h : Balanced rest) : Balanced (c :: rest)
  | nested {inner rest : List Char} (hinner : Balanced inner) (h : Balanced rest) :
    Balanced ('{' :: inner ++ '}' :: rest)

/-- The name of an event: without blanks, and not mistaken for the start of a type. -/
structure IsEventName (name : List Char) : Prop where
  nonempty : name ≠ []
  noBlank : ∀ c ∈ name, isBlank c = false
  noBrace : name.head? ≠ some '{'

/-- A description of an event: not mistaken for the hyphen before one. -/
def IsDescription (description : List Char) : Prop :=
  (trim description).head? ≠ some '-'

/-- A text announces an event with a description, after a type if there is one. -/
inductive Announces (name description : List Char) : Option (List Char) → List Char → Prop where
  /-- The description follows after a hyphen. -/
  | hyphen {gap gap' : List Char} (hgap : AllBlank gap) (hne : gap ≠ []) (hgap' : AllBlank gap') :
    Announces name description none (name ++ (gap ++ '-' :: (gap' ++ description)))
  /-- The description follows directly. -/
  | direct {gap : List Char} (hgap : AllBlank gap) (hne : gap ≠ []) :
    Announces name description none (name ++ (gap ++ description))
  | typed {type gap text : List Char} (hgap : AllBlank gap)
    (h : Announces name description none text) :
    Announces name description (some type) ('{' :: type ++ '}' :: (gap ++ text))

end ElementCatalog.DocBlock
