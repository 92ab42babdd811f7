import ElementCatalog.Doc.Announcement
import ElementCatalog.Proofs.DocSections

/-!
# Announced events — a name is found behind a type without braces

Toward: the tag that announces an event is read as its name and its description, with or without a
type before the name, exactly if no braces are nested in the type.  The route:

* reading past the type and reading the announcement are two steps (`firedEvent?_eq`);
* the type ends at the first closing brace, so a flat type is passed over and a nested one leaves a
  closing brace in front of the name (`passType_eq`);
* what is read of an announcement keeps every closing brace of it (`count_announced`), and so the one
  that is left in front of the name never gets lost.
-/

namespace ElementCatalog.DocBlock

open Text (AllBlank isBlank trim trimStart joinWith)

/-! ## Braces -/

/-- A balanced text closes a brace exactly if it opens one. -/
theorem Balanced.closing_mem_iff {text : List Char} (h : Balanced text) :
    '}' ∈ text ↔ '{' ∈ text := by
  induction h with
  | nil => simp
  | plain hopen hclose _ ih => simp [ih, hopen.symm, hclose.symm]
  | nested _ _ _ _ => simp

/-- Characters that are no braces do not matter for the balance. -/
theorem Balanced.append_left {rest : List Char} (h : Balanced rest) {front : List Char}
    (hopen : '{' ∉ front) (hclose : '}' ∉ front) : Balanced (front ++ rest) := by
  induction front with
  | nil => exact h
  | cons c more ih =>
      rw [List.mem_cons, not_or] at hopen hclose
      exact .plain (Ne.symm hopen.1) (Ne.symm hclose.1) (ih hopen.2 hclose.2)

/-! ## Reading in two steps -/

/-- What is left of a text behind the type in braces at its start, if something is. -/
def passType (text : List Char) : List Char :=
  match afterType? text with
  | some (c :: rest) => c :: rest
  | _ => text

/-- A text without the hyphen at its start. -/
def withoutHyphen (text : List Char) : List Char :=
  match text with
  | '-' :: after => after
  | after => after

/-- The event that a text without a type names. -/
def announced? (text : List Char) : Option FiredEvent :=
  let name := text.takeWhile (!isBlank ·)
  if name.isEmpty then none
  else
    let rest := (text.dropWhile (!isBlank ·)).dropWhile isBlank
    some ⟨String.ofList name, nonEmpty? (trim (withoutHyphen rest))⟩

/-- An event is read behind the type of the trimmed text. -/
theorem firedEvent?_eq (text : List Char) :
    firedEvent? text = announced? (passType (trim text)) :=
  rfl

/-! ## Announcements -/

section

variable {name description text : List Char}

/-- The event that an announcement is about. -/
def announcedEvent (name description : List Char) : FiredEvent :=
  ⟨String.ofList name, nonEmpty? (trim description)⟩

/-- A name up to the first blank, and what stands behind the blanks. -/
theorem announced?_append (hname : IsEventName name) {gap rest : List Char} (hgap : AllBlank gap)
    (hne : gap ≠ []) : announced? (name ++ (gap ++ rest)) =
      some ⟨String.ofList name, nonEmpty? (trim (withoutHyphen (trimStart rest)))⟩ := by
  have hlong : ∀ c ∈ name, (!isBlank c) = true := fun c hc => by rw [hname.noBlank c hc]; rfl
  have hstop : (gap ++ rest).takeWhile (!isBlank ·) = [] ∧
      (gap ++ rest).dropWhile (!isBlank ·) = gap ++ rest := by
    cases gap with
    | nil => exact absurd rfl hne
    | cons c gap =>
        have hc : ¬(!isBlank c) = true := by rw [hgap c List.mem_cons_self]; decide
        exact ⟨List.takeWhile_cons_of_neg hc, List.dropWhile_cons_of_neg hc⟩
  rw [announced?, List.takeWhile_append_of_pos hlong, hstop.1, List.append_nil,
    List.dropWhile_append_of_pos hlong, hstop.2]
  have hempty : name.isEmpty = false := by simpa using hname.nonempty
  have hrest : (gap ++ rest).dropWhile isBlank = trimStart rest := Text.trimStart_append hgap rest
  dsimp only
  rw [hempty, hrest]
  rfl

/-- A description keeps its start when it is trimmed at the start alone. -/
theorem IsDescription.withoutHyphen_trimStart (h : IsDescription description) :
    withoutHyphen (trimStart description) = trimStart description := by
  unfold withoutHyphen
  split
  · next after hstart =>
      obtain ⟨rest, hrest, -⟩ := Text.trim_cons (c := '-') (by decide) after
      rw [← hstart, Text.trim_trimStart] at hrest
      rw [IsDescription, hrest] at h
      exact absurd rfl h
  · rfl

/-- An announcement without a type is read. -/
theorem Announces.announced?_eq (h : Announces name description none text)
    (hname : IsEventName name) (hdescription : IsDescription description) :
    announced? text = some (announcedEvent name description) := by
  cases h with
  | @hyphen gap gap' hgap hne hgap' =>
      have hstart : trimStart ('-' :: (gap' ++ description)) = '-' :: (gap' ++ description) :=
        Text.trimStart_eq_self fun c hc => by cases hc; decide
      rw [announced?_append hname hgap hne, hstart]
      show some (⟨_, nonEmpty? (trim (gap' ++ description))⟩ : FiredEvent) = _
      rw [Text.trim_append_left hgap']
      rfl
  | direct hgap hne =>
      rw [announced?_append hname hgap hne, hdescription.withoutHyphen_trimStart,
        Text.trim_trimStart]
      rfl

/-- Blanks at the end do not matter for the description. -/
theorem description_append_blank {b : List Char} (hb : AllBlank b) (s : List Char) :
    trim (withoutHyphen (trimStart (s ++ b))) = trim (withoutHyphen (trimStart s)) := by
  cases hs : trimStart s with
  | nil =>
      have hall : AllBlank (s ++ b) := (Text.trimStart_eq_nil_iff.mp hs).append hb
      rw [Text.trimStart_eq_nil_iff.mpr hall]
  | cons c rest =>
      have hstart : trimStart (s ++ b) = c :: (rest ++ b) := by
        have hlong : (s ++ b).dropWhile isBlank = _ := List.dropWhile_append
        rw [show s.dropWhile isBlank = c :: rest from hs] at hlong
        exact hlong
      rw [hstart]
      unfold withoutHyphen
      split
      · next after heq =>
          cases heq
          exact Text.trim_append_right hb rest
      · next hc =>
          split
          · next after heq =>
              cases heq
              exact absurd rfl (hc _)
          · exact Text.trim_append_right hb (c :: rest)

/-- Blanks at the end do not matter for what is read. -/
theorem announced?_append_blank {b : List Char} (hb : AllBlank b) (s : List Char) :
    announced? (s ++ b) = announced? s := by
  have hstop : b.takeWhile (!isBlank ·) = [] ∧ b.dropWhile (!isBlank ·) = b := by
    cases b with
    | nil => exact ⟨rfl, rfl⟩
    | cons c rest =>
        have hc : ¬(!isBlank c) = true := by rw [hb c List.mem_cons_self]; decide
        exact ⟨List.takeWhile_cons_of_neg hc, List.dropWhile_cons_of_neg hc⟩
  have hname : (s ++ b).takeWhile (!isBlank ·) = s.takeWhile (!isBlank ·) := by
    rw [List.takeWhile_append, hstop.1, List.append_nil]
    split
    · next hlength => exact ((List.takeWhile_prefix _).eq_of_length hlength).symm
    · rfl
  have hrest : (s ++ b).dropWhile (!isBlank ·) = s.dropWhile (!isBlank ·) ++ b := by
    rw [List.dropWhile_append, hstop.2]
    split
    · next hempty => rw [List.isEmpty_iff.mp hempty, List.nil_append]
    · rfl
  have hdescription := description_append_blank hb (s.dropWhile (!isBlank ·))
  rw [announced?, announced?, hname, hrest]
  dsimp only
  rw [show (s.dropWhile (!isBlank ·) ++ b).dropWhile isBlank =
    trimStart (s.dropWhile (!isBlank ·) ++ b) from rfl, hdescription]
  rfl

/-- The text of an announcement starts with no blank and with no brace. -/
theorem Announces.head_eq (h : Announces name description none text) (hname : IsEventName name) :
    text.head? = name.head? := by
  obtain ⟨c, more, rfl⟩ := List.exists_cons_of_ne_nil hname.nonempty
  cases h <;> rfl

/-- The text of an announcement loses only blanks at its end. -/
theorem Announces.exists_trim (h : Announces name description none text)
    (hname : IsEventName name) : ∃ b, AllBlank b ∧ text = trim text ++ b ∧
      (trim text).head? = name.head? := by
  have hhead : ∀ c ∈ text.head?, isBlank c = false := by
    intro c hc
    rw [h.head_eq hname] at hc
    exact hname.noBlank c (List.mem_of_mem_head? hc)
  obtain ⟨c, more, rfl⟩ := List.exists_cons_of_ne_nil hname.nonempty
  have hfirst := h.head_eq hname
  cases text with
  | nil => cases hfirst
  | cons d rest =>
      obtain ⟨b, hb, hs⟩ := Text.exists_trim_append hhead
      obtain ⟨t, ht, -⟩ := Text.trim_cons (hhead d rfl) rest
      exact ⟨b, hb, hs, by rw [ht, ← hfirst]; rfl⟩

/-- An announcement is read when it is trimmed. -/
theorem Announces.announced?_trim (h : Announces name description none text)
    (hname : IsEventName name) (hdescription : IsDescription description) :
    announced? (trim text) = some (announcedEvent name description) := by
  obtain ⟨b, hb, hs, -⟩ := h.exists_trim hname
  rw [← announced?_append_blank hb (trim text), ← hs]
  exact h.announced?_eq hname hdescription

/-- A text with a type is trimmed behind it. -/
theorem Announces.trim_typed (h : Announces name description none text) (hname : IsEventName name)
    (front : List Char) : trim ('{' :: front ++ text) = '{' :: front ++ trim text := by
  obtain ⟨b, hb, hs, hhead⟩ := h.exists_trim hname
  have hne : trim text ≠ [] := by
    intro hnil
    rw [hnil, List.head?_nil] at hhead
    exact hname.nonempty (List.head?_eq_none_iff.mp hhead.symm)
  have htrimmed : Text.IsTrimmed ('{' :: front ++ trim text) :=
    (Text.isTrimmed_trim text).cons_append (by decide) front hne
  have hall : '{' :: front ++ text = [] ++ ('{' :: front ++ trim text) ++ b := by
    conv_lhs => rw [hs]
    simp only [List.append_assoc, List.nil_append, List.cons_append]
  rw [hall]
  exact Text.trim_eq Text.allBlank_nil hb htrimmed

end

/-! ## Types -/

/-- What follows the first closing brace of a text. -/
theorem dropWhile_closing {front : List Char} (h : '}' ∉ front) (rest : List Char) :
    (front ++ '}' :: rest).dropWhile (· != '}') = '}' :: rest := by
  have hfront : ∀ c ∈ front, (c != '}') = true := fun c hc =>
    bne_iff_ne.mpr fun heq => h (heq ▸ hc)
  rw [List.dropWhile_append_of_pos hfront]
  rfl

/-- A type ends at the first closing brace. -/
theorem passType_eq {front : List Char} (h : '}' ∉ front) {rest : List Char}
    (hrest : trimStart rest ≠ []) : passType ('{' :: (front ++ '}' :: rest)) = trimStart rest := by
  have hafter : afterType? ('{' :: (front ++ '}' :: rest)) = some (trimStart rest) := by
    rw [afterType?, dropWhile_closing h]
    rfl
  obtain ⟨c, more, hcons⟩ := List.exists_cons_of_ne_nil hrest
  rw [passType, hafter, hcons]

/-- Every closing brace of a text is found again in the event that is read of it. -/
theorem count_announced {text : List Char} {event : FiredEvent} (h : announced? text = some event) :
    text.count '}' = event.name.toList.count '}' +
      ((event.description.map String.toList).getD []).count '}' := by
  have hbrace : isBlank '}' = false := by decide
  have hgetD (s : List Char) : ((nonEmpty? s).map String.toList).getD [] = s := by
    cases s <;> simp [nonEmpty?]
  have hhyphen (s : List Char) : (withoutHyphen s).count '}' = s.count '}' := by
    unfold withoutHyphen
    split
    · exact (List.count_cons_of_ne (by decide)).symm
    · rfl
  rw [announced?] at h
  dsimp only at h
  split at h
  · cases h
  · cases h
    rw [String.toList_ofList, hgetD, Text.count_trim hbrace, hhyphen]
    show _ = _ + (trimStart (text.dropWhile (!isBlank ·))).count '}'
    rw [Text.count_trimStart hbrace, ← List.count_append, List.takeWhile_append_dropWhile]

/-! ## Events -/

section

variable {name description text : List Char} {type : Option (List Char)}

/-- A text that starts with no brace has no type to read past. -/
theorem passType_of_head_ne (h : text.head? ≠ some '{') : passType text = text := by
  have hafter : afterType? text = none := by
    unfold afterType?
    split
    · exact absurd rfl h
    · rfl
  rw [passType, hafter]

/-- An announcement without a type is read as its event. -/
theorem Announces.firedEvent?_untyped (h : Announces name description none text)
    (hname : IsEventName name) (hdescription : IsDescription description) :
    firedEvent? text = some (announcedEvent name description) := by
  obtain ⟨-, -, -, hhead⟩ := h.exists_trim hname
  rw [firedEvent?_eq, passType_of_head_ne (hhead ▸ hname.noBrace)]
  exact h.announced?_trim hname hdescription

/-- An announcement with a type is read as its event exactly if the type closes no brace. -/
theorem Announces.firedEvent?_typed_iff {t gap : List Char} (hgap : AllBlank gap)
    (h : Announces name description none text) (hname : IsEventName name)
    (hdescription : IsDescription description) :
    firedEvent? ('{' :: t ++ '}' :: (gap ++ text)) = some (announcedEvent name description) ↔
      '}' ∉ t := by
  have hevent := h.announced?_trim hname hdescription
  -- The blanks at the end go, and nothing else.
  have htrim : trim ('{' :: t ++ '}' :: (gap ++ text)) =
      '{' :: (t ++ '}' :: (gap ++ trim text)) := by
    have hfront := h.trim_typed hname (t ++ '}' :: gap)
    simp only [List.cons_append, List.append_assoc] at hfront ⊢
    exact hfront
  rw [firedEvent?_eq, htrim]
  constructor
  · -- The brace behind the first one that closes stands before the name and is read with it.
    intro hread hmem
    obtain ⟨front, inner, rfl, hfront⟩ := List.eq_append_cons_of_mem hmem
    have hbrace : isBlank '}' = false := by decide
    have hleft : trimStart (inner ++ '}' :: (gap ++ trim text)) ≠ [] := by
      intro hnil
      have hblank := Text.trimStart_eq_nil_iff.mp hnil '}'
        (List.mem_append_right _ List.mem_cons_self)
      exact absurd hblank (ne_true_of_eq_false hbrace)
    rw [List.append_assoc, List.cons_append, passType_eq hfront hleft] at hread
    have hcount := count_announced hread
    rw [Text.count_trimStart hbrace, List.count_append, List.count_cons_self, List.count_append,
      count_announced hevent] at hcount
    omega
  · intro hflat
    have hstart : trimStart (gap ++ trim text) = trim text := by
      rw [Text.trimStart_append hgap, Text.trimStart_eq_self (Text.isTrimmed_trim text).head]
    have hne : trim text ≠ [] := by
      intro hnil
      rw [hnil] at hevent
      cases hevent
    rw [passType_eq hflat (by rw [hstart]; exact hne), hstart]
    exact hevent

/-- An announcement is read as its event exactly if no closing brace stands in its type. -/
theorem Announces.firedEvent?_eq_iff (h : Announces name description type text)
    (hname : IsEventName name) (hdescription : IsDescription description) :
    firedEvent? text = some (announcedEvent name description) ↔ ∀ t ∈ type, '}' ∉ t := by
  cases type with
  | none =>
      simp only [h.firedEvent?_untyped hname hdescription, Option.mem_def, reduceCtorEq,
        false_implies, implies_true]
  | some t =>
      cases h with
      | typed hgap h =>
          rw [h.firedEvent?_typed_iff hgap hname hdescription]
          simp

/-- In a setting, the event that is read of a text is the only one of the comment. -/
theorem Setting.fires_comment (setting : Setting firesNames) (htext : '\n' ∉ text) :
    (parse (setting.comment text)).fires = (firedEvent? text).toList := by
  have hname := isTagName_of_mem (List.mem_append_left defaultNames setting.mem_names)
  obtain ⟨lines, hparse, htags⟩ := setting.exists_tags hname htext
  have htrim : firedEvent? (trim text) = firedEvent? text := by
    rw [firedEvent?_eq, firedEvent?_eq, Text.trim_trim]
  rw [hparse, fires_ofLines, htags, List.filterMap_cons]
  dsimp only
  rw [htrim]
  cases firedEvent? text <;> rfl

/-- **Events behind types**: a comment that announces one event, with or without a type before its
    name and with its description after a hyphen or directly, is read as exactly this event if and
    only if no braces are nested in the type. -/
theorem announced_event_read_iff (setting : Setting firesNames) (hline : '\n' ∉ text)
    (htype : ∀ t ∈ type, Balanced t) (hname : IsEventName name)
    (hdescription : IsDescription description) (htext : Announces name description type text) :
    (parse (setting.comment text)).fires =
        [⟨String.ofList name, nonEmpty? (trim description)⟩] ↔
      ∀ t ∈ type, '{' ∉ t := by
  have hflat : (∀ t ∈ type, '{' ∉ t) ↔ ∀ t ∈ type, '}' ∉ t :=
    forall₂_congr fun t ht => not_congr (htype t ht).closing_mem_iff.symm
  rw [hflat, ← htext.firedEvent?_eq_iff hname hdescription, setting.fires_comment hline]
  cases firedEvent? text with
  | none => simp
  | some event => simp [announcedEvent]

end

/-- The type of an event whose payload is an object. -/
def nestedType : List Char := "CustomEvent<{ id: string }>".toList

/-- Its braces match. -/
theorem balanced_nestedType : Balanced nestedType := by
  have hinner : Balanced " id: string ".toList := by
    have h : Balanced (" id: string ".toList ++ []) :=
      Balanced.nil.append_left (by decide) (by decide)
    rwa [List.append_nil] at h
  have hnested : Balanced "{ id: string }>".toList :=
    .nested hinner (.plain (by decide) (by decide) .nil)
  show Balanced ("CustomEvent<".toList ++ "{ id: string }>".toList)
  exact hnested.append_left (by decide) (by decide)

/-- An event with such a type is not read. -/
theorem event_behind_nested_type_lost :
    (parse "* @fires {CustomEvent<{ id: string }>} saved - Fired after saving.".toList).fires ≠
      [⟨"saved", some "Fired after saving."⟩] := by
  have hgap : AllBlank [' '] := by decide
  have htext : Announces "saved".toList "Fired after saving.".toList (some nestedType)
      "{CustomEvent<{ id: string }>} saved - Fired after saving.".toList :=
    .typed hgap (.hyphen hgap (List.cons_ne_nil _ _) hgap)
  have hdescription : IsDescription "Fired after saving.".toList := by
    unfold IsDescription
    decide
  have hname : IsEventName "saved".toList :=
    ⟨List.cons_ne_nil _ _, Text.noBlank_of_any (by decide), by decide⟩
  have hfires : "fires" ∈ firesNames := List.mem_cons_self
  have hread := announced_event_read_iff (.starred hfires) (by decide)
    (fun t ht => Option.mem_some.mp ht ▸ balanced_nestedType) hname hdescription htext
  have hcomment : "* @fires {CustomEvent<{ id: string }>} saved - Fired after saving.".toList =
      ['*', ' ', '@'] ++ "fires".toList ++
        ' ' :: "{CustomEvent<{ id: string }>} saved - Fired after saving.".toList := by decide
  rw [hcomment, ← Setting.comment_starred hfires]
  intro h
  exact hread.mp h nestedType rfl (by decide)

end ElementCatalog.DocBlock
