import ElementCatalog.Proofs.WrappedImplementations
import ElementCatalog.Source.Place
import Mathlib.Data.List.Forall2

/-!
# Registration outcomes — what every call and every decorator of a file comes to

An element is registered by a call or by a decorator, and both may fail to say what they register.
Toward: every call that registers comes to exactly one outcome, wherever it stands, and no other call
comes to any; outcomes stand in the order of their places.  The same is asked of the decorators that
carry a tag, where it fails: a tag that stands among options is only read if it is a literal, and a
decorator whose call is wrapped, in more than the parentheses of its own that the parser drops or in
a type note, is not read at all.  The route:

* what a call says is its tag literal and what its implementation stands for (`readCall_cases`);
* what a decorator says is one of two readings, the one of the file and the one that every tag
  counts in (`ReadsTag`, `CarriesTag`);
* what a node adds to the findings is the outcomes of its call or of its decorators
  (`findings_readNode`), so the outcomes of its places make up a file (`makesUp_outcomesAtPlace`).
-/

namespace ElementCatalog

open Source (Expr Node Place Property Decorator ClassDef StringLiteral Position TypeUse)

namespace Source

/-! ## Literals -/

/-- An expression is a literal with a text: a string, or a template without substitutions.  A literal
    that holds half a surrogate pair has no text. -/
inductive Expr.TextLiteral : Expr → String → Prop where
  | string {e : Expr} {literal : StringLiteral} (h : e.unwrapped = .string literal)
    (hwell : literal.wellFormed = true) : TextLiteral e literal.text
  | template {e : Expr} {piece : StringLiteral} {more : List (Option StringLiteral)}
    (h : e.unwrapped = .template (some piece :: more) []) (hwell : piece.wellFormed = true) :
    TextLiteral e piece.text

/-- The value of a literal is its text if it is well formed. -/
theorem StringLiteral.value?_eq_some_iff {literal : StringLiteral} {text : String} :
    literal.value? = some text ↔ literal.wellFormed = true ∧ literal.text = text := by
  rw [StringLiteral.value?, Option.ite_none_right_eq_some, Option.some.injEq]

/-- The text that is read of an expression is that of the literal that it is. -/
theorem Expr.string?_eq_some_iff {e : Expr} {text : String} :
    e.string? = some text ↔ e.TextLiteral text := by
  constructor
  · intro h
    rw [Expr.string?] at h
    split at h
    · next literal heq =>
        obtain ⟨hwell, rfl⟩ := StringLiteral.value?_eq_some_iff.mp h
        exact .string heq hwell
    · next pieces heq =>
        split at h
        · next piece more =>
            obtain ⟨hwell, rfl⟩ := StringLiteral.value?_eq_some_iff.mp h
            exact .template heq hwell
        · cases h
    · cases h
  · rintro (⟨heq, hwell⟩ | ⟨heq, hwell⟩)
    · rw [Expr.string?, heq]
      exact StringLiteral.value?_eq_some_iff.mpr ⟨hwell, rfl⟩
    · rw [Expr.string?, heq]
      exact StringLiteral.value?_eq_some_iff.mpr ⟨hwell, rfl⟩

/-- A spread argument is no literal. -/
theorem Expr.TextLiteral.isSpread {e : Expr} {text : String} (h : e.TextLiteral text) :
    e.isSpread = false := by
  cases e with
  | spread inner => cases h <;> contradiction
  | _ => rfl

end Source

/-- What an entry of an object literal says of a name, if it has this name: the text of its value, as
    far as this is a literal. -/
def Source.Property.textUnder? (name : String) : Property → Option (Option String)
  | .keyValue key value => if key.name? = some name then some value.string? else none
  | .shorthand other => if other = name then some none else none
  | .withDefault other _ => if other = name then some none else none
  | .method key _ => if key.name? = some name then some none else none
  | .accessor key _ _ _ => if key.name? = some name then some none else none
  | .spread _ => none

/-- What the last entry with a name says. -/
def Source.Property.lastTextUnder? (entries : List Property) (name : String) :
    Option (Option String) :=
  entries.reverse.findSome? (textUnder? name)

/-- What a call or a decorator comes to. -/
inductive Outcome where
  | registered (r : Registration)
  | refused (d : Diagnostic)

namespace Outcome

/-- The registration of an outcome. -/
def registered? : Outcome → Option Registration
  | .registered r => some r
  | .refused _ => none

/-- The diagnostic of an outcome. -/
def refused? : Outcome → Option Diagnostic
  | .registered _ => none
  | .refused d => some d

end Outcome

namespace Findings

/-- What was found, as outcomes. -/
def outcomes (found : Findings) : List Outcome :=
  found.registrations.map .registered ++ found.diagnostics.map .refused

/-- The registrations that were found are those of the outcomes. -/
theorem filterMap_registered?_outcomes (found : Findings) :
    found.outcomes.filterMap Outcome.registered? = found.registrations := by
  rw [outcomes, List.filterMap_append, List.filterMap_map, List.filterMap_map]
  exact (congrArg₂ (· ++ ·) List.filterMap_some (List.filterMap_none _)).trans (List.append_nil _)

/-- The diagnostics that were found are those of the outcomes. -/
theorem filterMap_refused?_outcomes (found : Findings) :
    found.outcomes.filterMap Outcome.refused? = found.diagnostics := by
  rw [outcomes, List.filterMap_append, List.filterMap_map, List.filterMap_map]
  exact congrArg₂ (· ++ ·) (List.filterMap_none _) List.filterMap_some

end Findings

namespace Registration

variable {c : Conventions} {file : SourceFile}

/-! ## Calls -/

/-- A call registers an element: `customElements.define`, also as a member of something, or a
    registration function with two arguments. -/
inductive RegistrationCall (c : Conventions) : Expr → List Expr → Prop where
  | define {callee owner : Expr} {args : List Expr} (h : callee.unwrapped = .member owner "define")
    (howner : owner.unwrapped = .ident "customElements" ∨
      ∃ outer, owner.unwrapped = .member outer "customElements") : RegistrationCall c callee args
  | function {callee first second : Expr} {name : String} (h : callee.unwrapped = .ident name)
    (hname : name ∈ c.registrationFunctions) : RegistrationCall c callee [first, second]

/-- The calls that are read are those that register. -/
theorem isCall_iff {callee : Expr} {args : List Expr} :
    isCall c callee args = true ↔ RegistrationCall c callee args := by
  constructor
  · intro h
    rw [isCall] at h
    split at h
    · next owner heq =>
        split at h
        · next name howner =>
            rw [beq_iff_eq] at h
            exact .define heq (Or.inl (h ▸ howner))
        · next outer name howner =>
            rw [beq_iff_eq] at h
            exact .define heq (Or.inr ⟨outer, h ▸ howner⟩)
        · cases h
    · next name heq =>
        obtain ⟨hname, hlength⟩ := Bool.and_eq_true_iff.mp h
        rw [beq_iff_eq, List.length_eq_two] at hlength
        obtain ⟨first, second, rfl⟩ := hlength
        exact .function heq (List.contains_iff_mem.mp hname)
    · cases h
  · rintro (⟨heq, howner | ⟨outer, howner⟩⟩ | ⟨heq, hname⟩)
    · simp only [isCall, heq, howner, beq_self_eq_true]
    · simp only [isCall, heq, howner, beq_self_eq_true]
    · rw [isCall, heq]
      exact Bool.and_eq_true_iff.mpr ⟨List.contains_iff_mem.mpr hname, rfl⟩

/-- Arguments say what is registered: the first one is a literal, and calls of wrapper factories lead
    from the second one to a name or a class.  Neither can be a spread argument. -/
inductive Registers (c : Conventions) : List Expr → String → RegistrationTarget → Prop where
  | mk {tag implementation : Expr} {rest : List Expr} {tagName : String}
    {target : RegistrationTarget} (htag : tag.TextLiteral tagName)
    (himplementation : StandsFor c implementation target) :
    Registers c (tag :: implementation :: rest) tagName target

/-- A spread argument stands for nothing. -/
theorem StandsFor.isSpread {e : Expr} {target : RegistrationTarget} (h : StandsFor c e target) :
    e.isSpread = false := by
  cases e with
  | spread inner => cases h <;> contradiction
  | _ => rfl

/-- Reading a call takes in what its arguments register, or refuses them if they register
    nothing. -/
theorem readCall_cases (c : Conventions) (file : SourceFile) (found : Findings) (line : Nat)
    (args : List Expr) :
    (∃ tagName target, Registers c args tagName target ∧
        readCall c file found line args = found.register file tagName target line) ∨
      ((∀ tagName target, ¬Registers c args tagName target) ∧
        ∃ message, readCall c file found line args = found.refuse file message line) := by
  rw [readCall]
  split
  -- The first argument is missing, spread or no literal.
  · next hnone =>
      refine Or.inr ⟨?_, _, rfl⟩
      rintro tagName target ⟨htag, -⟩
      have hstring := Expr.string?_eq_some_iff.mpr htag
      rw [List.head?_cons, Option.filter_some, htag.isSpread, Bool.not_false, if_pos rfl,
        Option.bind_some, hstring] at hnone
      cases hnone
  · next tagName htag =>
      obtain ⟨tag, hfirst, hstring⟩ := Option.bind_eq_some_iff.mp htag
      obtain ⟨hhead, -⟩ := Option.filter_eq_some_iff.mp hfirst
      obtain ⟨rest, rfl⟩ := List.head?_eq_some_iff.mp hhead
      have hliteral := Expr.string?_eq_some_iff.mp hstring
      rw [List.getElem?_cons_succ, ← List.head?_eq_getElem?]
      split
      -- The second argument is missing or spread.
      · next hnone =>
          refine Or.inr ⟨?_, _, rfl⟩
          rintro tagName target ⟨-, himplementation⟩
          rw [List.head?_cons, Option.filter_some, himplementation.isSpread] at hnone
          cases hnone
      · next implementation hsecond =>
          obtain ⟨hhead, -⟩ := Option.filter_eq_some_iff.mp hsecond
          obtain ⟨others, rfl⟩ := List.head?_eq_some_iff.mp hhead
          split
          · next target htarget =>
              exact Or.inl ⟨tagName, target, ⟨hliteral, targetOf?_eq_some_iff.mp htarget⟩, rfl⟩
          · next hnone =>
              refine Or.inr ⟨?_, _, rfl⟩
              rintro tagName target ⟨-, himplementation⟩
              rw [targetOf?_eq_some_iff.mpr himplementation] at hnone
              cases hnone

/-- What a call that registers comes to: the registration that its arguments say, or one refusal if
    they say none. -/
inductive OfCall (c : Conventions) (file : SourceFile) (line : Nat) (args : List Expr) :
    Outcome → Prop where
  | registered {tagName : String} {target : RegistrationTarget}
    (h : Registers c args tagName target) :
    OfCall c file line args (.registered ⟨tagName, target, file.id, line⟩)
  | refused {message : String} (h : ∀ tagName target, ¬Registers c args tagName target) :
    OfCall c file line args
      (.refused (.warningAt .malformedRegistration message file.shownPath line))

/-- Reading a call that registers adds exactly what the call comes to. -/
theorem exists_outcome_readCall (c : Conventions) (file : SourceFile) (line : Nat)
    (args : List Expr) :
    ∃ o, OfCall c file line args o ∧ (readCall c file {} line args).outcomes = [o] := by
  obtain ⟨tagName, target, hregisters, hread⟩ | ⟨hnone, message, hread⟩ :=
    readCall_cases c file {} line args
  · exact ⟨_, .registered hregisters, congrArg Findings.outcomes hread⟩
  · exact ⟨_, .refused hnone, congrArg Findings.outcomes hread⟩

/-! ## Decorators -/

/-- An expression is the call of an element decorator, with a value as its first argument. -/
inductive DecoratorCall (c : Conventions) (e : Expr) : Expr → Prop where
  | mk {start : Position} {callee arg : Expr} {typeArgs : List TypeUse} {rest : List Expr}
    {name : String} (h : e = .call start callee typeArgs (arg :: rest))
    (hname : callee.name? = some name) (hdecorator : name ∈ c.elementDecorators) :
    DecoratorCall c e arg.argument

/-- An element decorator has one first argument. -/
theorem DecoratorCall.unique {e value value' : Expr} (h : DecoratorCall c e value)
    (h' : DecoratorCall c e value') : value = value' := by
  obtain ⟨heq, -, -⟩ := h
  obtain ⟨heq', -, -⟩ := h'
  rw [heq] at heq'
  injection heq' with _ _ _ hargs
  rw [(List.cons.inj hargs).1]

/-- A call is not wrapped. -/
theorem DecoratorCall.unwrapped_eq {e value : Expr} (h : DecoratorCall c e value) :
    e.unwrapped = e := by
  obtain ⟨rfl, -, -⟩ := h
  rfl

/-- The tag that is read of a decorator, as far as it is a literal: the first argument of its call,
    or the first entry `tag: …` among options, which counts only if it is a literal. -/
inductive ReadsTag (c : Conventions) (d : Decorator) : Option String → Prop where
  | argument {value : Expr} (h : DecoratorCall c d.value value) (hvalue : value.entries? = none) :
    ReadsTag c d value.string?
  | entry {value : Expr} {entries : List Property} {tagName : String}
    (h : DecoratorCall c d.value value) (hvalue : value.entries? = some entries)
    (htag : Property.string? entries "tag" = some tagName) : ReadsTag c d (some tagName)

/-- The tag that a decorator carries, as far as it is a literal: the first argument of its call,
    wrapped or not, or the entry `tag` of options in any form.  Of several entries with this name the
    last one counts. -/
inductive CarriesTag (c : Conventions) (d : Decorator) : Option String → Prop where
  | argument {value : Expr} (h : DecoratorCall c d.value.unwrapped value)
    (hvalue : value.entries? = none) : CarriesTag c d value.string?
  | entry {value : Expr} {entries : List Property} {text : Option String}
    (h : DecoratorCall c d.value.unwrapped value) (hvalue : value.entries? = some entries)
    (hentry : Property.lastTextUnder? entries "tag" = some text) : CarriesTag c d text

/-- A decorator carries a tag that is not read: its call is wrapped, as in `@((element('x-a')))`, or
    the tag is an entry of options that is no literal, or that is not the first one `tag: …`. -/
inductive TagUnread (c : Conventions) (d : Decorator) : Prop where
  | wrapped {text : Option String} (h : CarriesTag c d text)
    (hvalue : d.value.unwrapped ≠ d.value)
  | entry {value : Expr} {entries : List Property} {text : Option String}
    (h : DecoratorCall c d.value.unwrapped value) (hvalue : value.entries? = some entries)
    (hentry : Property.lastTextUnder? entries "tag" = some text)
    (htext : text = none ∨ Property.string? entries "tag" ≠ text)

/-- What a decorator of a named class comes to if it has a tag by some reading: one registration of
    the class if the tag is a literal, otherwise one refusal; without a tag it comes to nothing. -/
inductive OfTag (file : SourceFile) (name : String) (line : Nat) (tag : Option String → Prop) :
    List Outcome → Prop where
  | registered {tagName : String} (h : tag (some tagName)) :
    OfTag file name line tag [.registered ⟨tagName, .named name, file.id, line⟩]
  | refused {message : String} (h : tag none) :
    OfTag file name line tag
      [.refused (.warningAt .malformedRegistration message file.shownPath line)]
  | nothing (h : ∀ text, ¬tag text) : OfTag file name line tag []

/-- Without the call of an element decorator no tag is read. -/
theorem not_readsTag {d : Decorator} (h : ∀ value, ¬DecoratorCall c d.value value)
    (text : Option String) : ¬ReadsTag c d text := by
  rintro (⟨hcall, -⟩ | ⟨hcall, -⟩)
  · exact h _ hcall
  · exact h _ hcall

/-- Reading a decorator adds exactly what it comes to by the tag that is read of it. -/
theorem ofTag_readDecorator (c : Conventions) (file : SourceFile) (name : String) (d : Decorator) :
    OfTag file name d.start.line (ReadsTag c d) (readDecorator c file name {} d).outcomes := by
  rw [readDecorator]
  split
  · next decoratorName start callee typeArgs arg rest hname hvalue =>
      have hcallee : callee.name? = some decoratorName := by
        rw [Decorator.name?, hvalue] at hname
        exact hname
      split
      -- Another decorator is called.
      · next hother =>
          refine .nothing (not_readsTag fun value hcall => ?_)
          obtain ⟨heq, hcallee', hdecorator⟩ := hcall
          rw [hvalue] at heq
          cases heq
          rw [hcallee] at hcallee'
          cases hcallee'
          rw [Conventions.isElementDecorator, List.contains_iff_mem.mpr hdecorator] at hother
          cases hother
      · next hdecorator =>
          have hcall : DecoratorCall c d.value arg.argument := by
            refine ⟨hvalue, hcallee, ?_⟩
            rwa [Bool.not_eq_true, Bool.not_eq_false', Conventions.isElementDecorator,
              List.contains_iff_mem] at hdecorator
          dsimp only
          split
          · next options hoptions =>
              split
              · next tagName htag => exact .registered (.entry hcall hoptions htag)
              -- Options without a literal tag look like options without a tag.
              · next hnone =>
                  refine .nothing fun text hreads => ?_
                  cases hreads with
                  | argument hcall' hvalue' =>
                      rw [hcall'.unique hcall, hoptions] at hvalue'
                      cases hvalue'
                  | entry hcall' hvalue' htag =>
                      rw [hcall'.unique hcall, hoptions] at hvalue'
                      cases hvalue'
                      rw [hnone] at htag
                      cases htag
          · next hoptions =>
              have hreads : ReadsTag c d arg.argument.string? := .argument hcall hoptions
              split
              · next tagName htag => exact .registered (htag ▸ hreads)
              · next hnone => exact .refused (hnone ▸ hreads)
  · next hother =>
      refine .nothing (not_readsTag fun value hcall => ?_)
      obtain ⟨heq, hcallee, -⟩ := hcall
      exact hother _ _ _ _ _ _ (by rw [Decorator.name?, heq]; exact hcallee) heq

/-- An entry that is read is an entry. -/
theorem exists_lastTextUnder? {entries : List Property} {name text : String}
    (h : Property.string? entries name = some text) :
    ∃ last, Property.lastTextUnder? entries name = some last := by
  obtain ⟨value, hvalue, -⟩ := Option.bind_eq_some_iff.mp h
  obtain ⟨entry, hentry, hfound⟩ := List.exists_of_findSome?_eq_some hvalue
  rw [← Option.isSome_iff_exists, Property.lastTextUnder?, List.isSome_findSome?, List.any_eq_true]
  refine ⟨entry, List.mem_reverse.mpr hentry, ?_⟩
  cases entry with
  | keyValue key other =>
      dsimp only at hfound
      rw [Property.textUnder?, if_pos (Option.ite_none_right_eq_some.mp hfound).1]
      rfl
  | _ => cases hfound

/-- A decorator carries at most one tag. -/
theorem CarriesTag.unique {d : Decorator} {text text' : Option String} (h : CarriesTag c d text)
    (h' : CarriesTag c d text') : text = text' := by
  cases h with
  | argument hcall hvalue =>
      cases h' with
      | argument hcall' hvalue' => rw [hcall.unique hcall']
      | entry hcall' hvalue' hentry' =>
          rw [hcall.unique hcall', hvalue'] at hvalue
          cases hvalue
  | entry hcall hvalue hentry =>
      cases h' with
      | argument hcall' hvalue' =>
          rw [hcall.unique hcall', hvalue'] at hvalue
          cases hvalue
      | entry hcall' hvalue' hentry' =>
          rw [hcall.unique hcall', hvalue'] at hvalue
          cases hvalue
          exact Option.some.inj (hentry.symm.trans hentry')

/-- A tag that is carried and not left unread is read. -/
theorem CarriesTag.readsTag {d : Decorator} {text : Option String} (h : CarriesTag c d text)
    (hread : ¬TagUnread c d) : ReadsTag c d text := by
  have hplain : d.value.unwrapped = d.value := by
    by_contra hvalue
    exact hread (.wrapped h hvalue)
  cases h with
  | argument hcall hvalue => exact .argument (hplain ▸ hcall) hvalue
  | @entry value entries _ hcall hvalue hentry =>
      by_cases htext : text = none ∨ Property.string? entries "tag" ≠ text
      · exact (hread (.entry hcall hvalue hentry htext)).elim
      · obtain ⟨hsome, htag⟩ := not_or.mp htext
        obtain ⟨tagName, rfl⟩ := Option.ne_none_iff_exists'.mp hsome
        exact .entry (hplain ▸ hcall) hvalue (Decidable.not_not.mp htag)

/-- What is read of a decorator with a tag that is not left unread is this tag. -/
theorem ReadsTag.carriesTag {d : Decorator} {text : Option String} (h : ReadsTag c d text)
    (hread : ¬TagUnread c d) : CarriesTag c d text := by
  cases h with
  | argument hcall hvalue => exact .argument (hcall.unwrapped_eq.symm ▸ hcall) hvalue
  | @entry value entries tagName hcall hvalue htag =>
      have hcall' : DecoratorCall c d.value.unwrapped value := hcall.unwrapped_eq.symm ▸ hcall
      obtain ⟨last, hlast⟩ := exists_lastTextUnder? htag
      have heq : some tagName = last := by
        by_contra hne
        exact hread (.entry hcall' hvalue hlast (Or.inr (htag ▸ hne)))
      exact .entry hcall' hvalue (heq ▸ hlast)

/-- A tag that is left unread is carried, and read as nothing or as another tag. -/
theorem TagUnread.exists_carriesTag {d : Decorator} (h : TagUnread c d) :
    ∃ text, CarriesTag c d text ∧ ¬ReadsTag c d text := by
  cases h with
  | @wrapped text hcarries hvalue =>
      refine ⟨text, hcarries, not_readsTag (fun value hcall => hvalue hcall.unwrapped_eq) text⟩
  | @entry value entries text hcall hvalue hentry htext =>
      refine ⟨text, .entry hcall hvalue hentry, fun hreads => ?_⟩
      cases hreads with
      | argument hcall' hvalue' =>
          have hsame : DecoratorCall c d.value value := hcall'.unwrapped_eq ▸ hcall
          rw [hcall'.unique hsame, hvalue] at hvalue'
          cases hvalue'
      | entry hcall' hvalue' htag =>
          have hsame : DecoratorCall c d.value value := hcall'.unwrapped_eq ▸ hcall
          rw [hcall'.unique hsame, hvalue] at hvalue'
          cases hvalue'
          rcases htext with hnone | hne
          · cases hnone
          · exact hne htag

/-- A decorator comes to what the tag that it carries asks for exactly if this tag is read. -/
theorem ofTag_carriesTag_iff {name : String} {line : Nat} {d : Decorator} {outcomes : List Outcome}
    (h : OfTag file name line (ReadsTag c d) outcomes) :
    OfTag file name line (CarriesTag c d) outcomes ↔ ¬TagUnread c d := by
  constructor
  · intro hcarries hunread
    obtain ⟨text, htext, hnot⟩ := hunread.exists_carriesTag
    cases h with
    | registered hreads =>
        cases hcarries with
        | registered hcarried => exact hnot (hcarried.unique htext ▸ hreads)
    | refused hreads =>
        cases hcarries with
        | refused hcarried => exact hnot (hcarried.unique htext ▸ hreads)
    | nothing =>
        cases hcarries with
        | nothing hcarried => exact hcarried text htext
  · intro hread
    cases h with
    | registered hreads => exact .registered (hreads.carriesTag hread)
    | refused hreads => exact .refused (hreads.carriesTag hread)
    | nothing hnot => exact .nothing fun text htext => hnot text (htext.readsTag hread)

/-! ## Nodes -/

/-- The class that a node declares, with the name that its decorators register it by. -/
def declaredClass? : Node → Option (String × ClassDef)
  | .stmt (.classDecl name value) => some (name, value)
  | .stmt (.exportClass _ name value) => some (name.getD "default", value)
  | _ => none

/-- What a node comes to, apart for its call and for each of its decorators: a call that registers
    has one outcome, a decorated class what its decorators have by the tags that are read of them,
    and every other node has none. -/
inductive OfNode (c : Conventions) (file : SourceFile) : Node → List (List Outcome) → Prop where
  | registrationCall {start : Position} {callee : Expr} {typeArgs : List TypeUse}
    {args : List Expr} {o : Outcome} (hcall : RegistrationCall c callee args)
    (ho : OfCall c file start.line args o) :
    OfNode c file (.expr (.call start callee typeArgs args)) [[o]]
  | otherCall {start : Position} {callee : Expr} {typeArgs : List TypeUse} {args : List Expr}
    (hcall : ¬RegistrationCall c callee args) :
    OfNode c file (.expr (.call start callee typeArgs args)) []
  | decorated {node : Node} {name : String} {value : ClassDef} {outcomes : List (List Outcome)}
    (hclass : declaredClass? node = some (name, value))
    (houtcomes : List.Forall₂ (fun d => OfTag file name d.start.line (ReadsTag c d))
      value.decorators outcomes) : OfNode c file node outcomes
  | other {node : Node}
    (hcall : ∀ start callee typeArgs args, node ≠ .expr (.call start callee typeArgs args))
    (hclass : declaredClass? node = none) : OfNode c file node []

/-- What reading the decorators of a class adds, apart for each of them. -/
def decoratorOutcomes (c : Conventions) (file : SourceFile) (name : String) (value : ClassDef) :
    List (List Outcome) :=
  value.decorators.map fun d => (readDecorator c file name {} d).outcomes

/-- What reading a node adds, apart for its call and for each of its decorators. -/
def outcomesAt (c : Conventions) (file : SourceFile) : Node → List (List Outcome)
  | .expr (.call start callee _ args) =>
    if isCall c callee args then [(readCall c file {} start.line args).outcomes] else []
  | .stmt (.classDecl name value) => decoratorOutcomes c file name value
  | .stmt (.exportClass _ name value) => decoratorOutcomes c file (name.getD "default") value
  | _ => []

/-- The decorators of a class come to what the tags that are read of them ask for. -/
theorem forall₂_decoratorOutcomes (c : Conventions) (file : SourceFile) (name : String)
    (value : ClassDef) :
    List.Forall₂ (fun d => OfTag file name d.start.line (ReadsTag c d)) value.decorators
      (decoratorOutcomes c file name value) := by
  rw [decoratorOutcomes, List.forall₂_map_right_iff, List.forall₂_same]
  exact fun d _ => ofTag_readDecorator c file name d

/-- Reading a node adds what the node comes to. -/
theorem ofNode_outcomesAt (c : Conventions) (file : SourceFile) (node : Node) :
    OfNode c file node (outcomesAt c file node) := by
  rw [outcomesAt.eq_def]
  split
  · next start callee typeArgs args =>
      split
      · next hcall =>
          obtain ⟨o, ho, houtcomes⟩ := exists_outcome_readCall c file start.line args
          rw [houtcomes]
          exact .registrationCall (isCall_iff.mp hcall) ho
      · next hcall => exact .otherCall fun h => hcall (isCall_iff.mpr h)
  · exact .decorated rfl (forall₂_decoratorOutcomes c file _ _)
  · exact .decorated rfl (forall₂_decoratorOutcomes c file _ _)
  · next hcall hclass hexported =>
      refine .other hcall ?_
      unfold declaredClass?
      split
      · exact (hclass _ _ rfl).elim
      · exact (hexported _ _ _ rfl).elim
      · rfl

/-- The registrations that reading a class adds are those of its decorators. -/
theorem registrations_readClass (name : String) (value : ClassDef) :
    (readClass c file {} name value).registrations =
      (decoratorOutcomes c file name value).flatten.filterMap Outcome.registered? := by
  rw [readClass, Findings.registrations_foldl (appends_readDecorator c file name),
    decoratorOutcomes, ← List.flatMap_def, List.filterMap_flatMap]
  simp only [Findings.filterMap_registered?_outcomes]
  rfl

/-- The refusals that reading a class adds are those of its decorators. -/
theorem diagnostics_readClass (name : String) (value : ClassDef) :
    (readClass c file {} name value).diagnostics =
      (decoratorOutcomes c file name value).flatten.filterMap Outcome.refused? := by
  rw [readClass, Findings.diagnostics_foldl (appends_readDecorator c file name),
    decoratorOutcomes, ← List.flatMap_def, List.filterMap_flatMap]
  simp only [Findings.filterMap_refused?_outcomes]
  rfl

/-- Giving a variable a value registers and refuses nothing. -/
theorem outcomes_bindVariable (name : String) (value : Expr) :
    (bindVariable c {} name value).registrations = [] ∧
      (bindVariable c {} name value).diagnostics = [] := by
  rw [bindVariable]
  split <;> exact ⟨rfl, rfl⟩

/-- The registrations and the refusals that reading a node adds are those of its outcomes. -/
theorem findings_readNode (c : Conventions) (file : SourceFile) (node : Node) :
    (readNode c file {} node).registrations =
        (outcomesAt c file node).flatten.filterMap Outcome.registered? ∧
      (readNode c file {} node).diagnostics =
        (outcomesAt c file node).flatten.filterMap Outcome.refused? := by
  rw [readNode.eq_def]
  split
  · next start callee typeArgs args =>
      rw [outcomesAt]
      split
      · rw [List.flatten_singleton, Findings.filterMap_registered?_outcomes,
          Findings.filterMap_refused?_outcomes]
        exact ⟨rfl, rfl⟩
      · exact ⟨rfl, rfl⟩
  · exact outcomes_bindVariable _ _
  · exact outcomes_bindVariable _ _
  · exact ⟨registrations_readClass _ _, diagnostics_readClass _ _⟩
  · exact ⟨registrations_readClass _ _, diagnostics_readClass _ _⟩
  · next hcall _ _ hclass hexported =>
      have hnothing : outcomesAt c file node = [] := by
        rw [outcomesAt.eq_def]
        split
        · exact (hcall _ _ _ _ rfl).elim
        · exact (hclass _ _ rfl).elim
        · exact (hexported _ _ _ rfl).elim
        · rfl
      rw [hnothing]
      exact ⟨rfl, rfl⟩

/-! ## Places -/

/-- What the places of a module come to makes up the registrations and refusals of its file. -/
structure MakesUp (c : Conventions) (file : SourceFile)
    (outcomes : Place → List (List Outcome)) : Prop where
  registrations : (ofFile c file).1 =
    ((file.module.places.flatMap fun place => (outcomes place).flatten).filterMap
      Outcome.registered?).map (settled (bindings c file))
  diagnostics : (ofFile c file).2 =
    (file.module.places.flatMap fun place => (outcomes place).flatten).filterMap Outcome.refused?

/-- What reading the node at a place adds. -/
def outcomesAtPlace (c : Conventions) (file : SourceFile) (place : Place) : List (List Outcome) :=
  ((file.module.nodeAt? place).map (outcomesAt c file)).getD []

/-- What is read at the places of a module is what is read of its nodes. -/
theorem flatMap_outcomesAtPlace {β : Type} (c : Conventions) (file : SourceFile)
    (pick : Outcome → Option β) :
    (file.module.places.flatMap fun place => (outcomesAtPlace c file place).flatten).filterMap pick =
      file.module.nodes.flatMap fun node => (outcomesAt c file node).flatten.filterMap pick := by
  have hpick : ∀ place, (outcomesAtPlace c file place).flatten.filterMap pick =
      ((file.module.nodeAt? place).map fun node =>
        (outcomesAt c file node).flatten.filterMap pick).getD [] := by
    intro place
    rw [outcomesAtPlace]
    cases file.module.nodeAt? place with
    | none => rfl
    | some node => rfl
  rw [List.filterMap_flatMap, ← file.module.flatMap_places]
  exact congrArg (file.module.places.flatMap ·) (funext hpick)

/-- What is read at the places of a module makes up what is read of its file. -/
theorem makesUp_outcomesAtPlace (c : Conventions) (file : SourceFile) :
    MakesUp c file (outcomesAtPlace c file) := by
  constructor
  · rw [flatMap_outcomesAtPlace, ofFile, Findings.registrations_foldl (appends_readNode c file)]
    simp only [findings_readNode]
    rfl
  · rw [flatMap_outcomesAtPlace, ofFile, Findings.diagnostics_foldl (appends_readNode c file)]
    simp only [findings_readNode]
    rfl

/-- At every place is read what its node comes to. -/
theorem ofNode_outcomesAtPlace {place : Place} {node : Node}
    (h : file.module.nodeAt? place = some node) :
    OfNode c file node (outcomesAtPlace c file place) := by
  rw [outcomesAtPlace, h]
  exact ofNode_outcomesAt c file node

/-- **One outcome for every registration call**: at every place of a module, however deep, a call
    that registers comes to exactly one outcome, with the line of the call: the registration that
    its arguments say, or one refusal if they say none.  No other call comes to any.  The
    registrations and the refusals of the file are those of its places, in pre-order. -/
theorem registration_calls_have_one_outcome (c : Conventions) (file : SourceFile) :
    file.module.places.Pairwise Place.Before ∧
      (∀ place, place ∈ file.module.places ↔ (file.module.nodeAt? place).isSome = true) ∧
      ∃ outcomes : Place → List (List Outcome), MakesUp c file outcomes ∧
        ∀ place node, file.module.nodeAt? place = some node → OfNode c file node (outcomes place) :=
  ⟨Node.pairwise_placesIn _, fun _ => Node.mem_placesIn_iff, outcomesAtPlace c file,
    makesUp_outcomesAtPlace c file, fun _ _ h => ofNode_outcomesAtPlace h⟩

/-- **Decorators with a tag**: every decorator of a class, at every place of a module, comes to what
    the tag that is read of it asks for: one registration of the class for a literal, one refusal for
    anything else, nothing without a tag.  It comes to what the tag that it carries asks for exactly
    if this tag is not left unread. -/
theorem decorators_have_one_outcome_iff (c : Conventions) (file : SourceFile) :
    ∃ outcomes : Place → List (List Outcome), MakesUp c file outcomes ∧
      ∀ place node name value, file.module.nodeAt? place = some node →
        declaredClass? node = some (name, value) →
          List.Forall₂ (fun d given => OfTag file name d.start.line (ReadsTag c d) given ∧
              (OfTag file name d.start.line (CarriesTag c d) given ↔ ¬TagUnread c d))
            value.decorators (outcomes place) := by
  refine ⟨outcomesAtPlace c file, makesUp_outcomesAtPlace c file, ?_⟩
  intro place node name value hnode hclass
  have hread : List.Forall₂ (fun d => OfTag file name d.start.line (ReadsTag c d)) value.decorators
      (outcomesAtPlace c file place) := by
    have hgiven : OfNode c file node (outcomesAtPlace c file place) := ofNode_outcomesAtPlace hnode
    generalize outcomesAtPlace c file place = outcomes at hgiven
    cases hgiven with
    | registrationCall | otherCall => cases hclass
    | decorated hclass' houtcomes =>
        rw [hclass] at hclass'
        cases hclass'
        exact houtcomes
    | other _ hnone =>
        rw [hclass] at hnone
        cases hnone
  exact hread.imp fun d given hgiven => ⟨hgiven, ofTag_carriesTag_iff hgiven⟩

-- `@Component({ tag: TAG })` is neither registered nor refused.
example (file : SourceFile) :
    (readDecorator {} file "A" {} ⟨⟨0, 1⟩, .call ⟨1, 1⟩ (.ident "Component") []
      [.object [.keyValue (.ident ⟨13, 1⟩ "tag") (.ident "TAG")]]⟩).outcomes = [] :=
  rfl

end Registration

end ElementCatalog
