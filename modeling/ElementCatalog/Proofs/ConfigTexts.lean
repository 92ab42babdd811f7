import ElementCatalog.Config.Json
import ElementCatalog.Proofs.WrittenJson

/-!
# Texts of configurations — what is written is read back

Toward: a configuration is read back from its own text, compact or laid out, whatever it holds.  The
route: the fields of the conventions, and then those of a configuration, take the defaults to what
was written, one field after another (`Conventions.readsFields`, `Config.readsFields`); a record
whose fields do so is read as what they take it to.
-/

namespace ElementCatalog

open Json (Layout Reads ReadsFields IsEnd)

/-- A field that holds a list of names is read back. -/
theorem Conventions.reads_namesField (l : Layout) (level : Nat) (name : String)
    (write : Conventions → List String → Conventions) (c : Conventions) (names : List String) :
    Reads ((Conventions.namesField name write).read c) (l.write level (.strings names))
      (write c names) :=
  (Json.reads_strings l level names).map (write c)

/-- The fields of conventions take the defaults to what was written. -/
theorem Conventions.readsFields (l : Layout) (level : Nat) (c : Conventions) :
    ReadsFields l level Conventions.shape {} []
      [ ("registrationFunctions", .strings c.registrationFunctions),
        ("wrapperFactories", .strings c.wrapperFactories),
        ("elementDecorators", .strings c.elementDecorators),
        ("propertyDecorators", .strings c.propertyDecorators),
        ("propertyFactories", .strings c.propertyFactories),
        ("reservedShapeMembers", .strings c.reservedShapeMembers),
        ("eventCallbackPrefix", .string c.eventCallbackPrefix),
        ("dispatchMethods", .strings c.dispatchMethods) ] c := by
  refine .cons _ rfl rfl (reads_namesField l level _ _ _ c.registrationFunctions) ?_
  refine .cons _ rfl rfl (reads_namesField l level _ _ _ c.wrapperFactories) ?_
  refine .cons _ rfl rfl (reads_namesField l level _ _ _ c.elementDecorators) ?_
  refine .cons _ rfl rfl (reads_namesField l level _ _ _ c.propertyDecorators) ?_
  refine .cons _ rfl rfl (reads_namesField l level _ _ _ c.propertyFactories) ?_
  refine .cons _ rfl rfl (reads_namesField l level _ _ _ c.reservedShapeMembers) ?_
  refine .cons _ rfl rfl ((Json.reads_quoted c.eventCallbackPrefix).map fun s =>
    ({ c with eventCallbackPrefix := s, dispatchMethods := ["dispatchEvent"] } : Conventions)) ?_
  refine .cons _ rfl rfl (reads_namesField l level _ _ _ c.dispatchMethods) ?_
  exact .nil _ _

/-- Conventions are read back. -/
theorem Conventions.reads (l : Layout) (level : Nat) (c : Conventions) :
    Reads Conventions.read (l.write level c.toJson) c :=
  (c.readsFields l (level + 1)).reads

namespace Config

/-- The fields of a configuration take the defaults to what was written; a build configuration that
    is left out is none. -/
theorem readsFields (l : Layout) (level : Nat) (c : Config) :
    ReadsFields l level Config.shape {} []
      ([ ("includes", Json.strings c.includes),
         ("ignores", Json.strings c.ignores),
         ("ignoreTestFiles", Json.bool c.ignoreTestFiles) ] ++
        Json.optionalField "buildConfig" (c.buildConfig.map .string) ++
        [("conventions", c.conventions.toJson)]) c := by
  obtain ⟨includes, ignores, ignoreTestFiles, buildConfig, conventions⟩ := c
  refine .cons _ rfl rfl ((Json.reads_strings l level includes).map fun names =>
    ({ includes := names } : Config)) ?_
  refine .cons _ rfl rfl ((Json.reads_strings l level ignores).map fun names =>
    ({ includes, ignores := names } : Config)) ?_
  refine .cons _ rfl rfl ((Json.reads_bool l level ignoreTestFiles).map fun flag =>
    ({ includes, ignores, ignoreTestFiles := flag } : Config)) ?_
  cases buildConfig with
  | none =>
      refine .cons _ rfl rfl ((conventions.reads l level).map fun names =>
        ({ includes, ignores, ignoreTestFiles, conventions := names } : Config)) ?_
      exact .nil _ _
  | some path =>
      refine .cons _ rfl rfl ((Json.reads_optionalString path).map fun path =>
        ({ includes, ignores, ignoreTestFiles, buildConfig := path } : Config)) ?_
      refine .cons _ rfl rfl ((conventions.reads l level).map fun names =>
        ({ includes, ignores, ignoreTestFiles, buildConfig := some path,
           conventions := names } : Config)) ?_
      exact .nil _ _

/-- A configuration is read back, however it is laid out. -/
theorem reads (l : Layout) (level : Nat) (c : Config) :
    Reads (Json.readRecord Config.shape {}) (l.write level c.toJson) c :=
  (c.readsFields l (level + 1)).reads

/-- A text that is read as a configuration up to its end is a whole one. -/
theorem parse_of_reads {text : String} {c : Config}
    (h : Reads (Json.readRecord Config.shape {}) text.toList c) : parse text = .ok c := by
  have hread := h.read_eq [] [] Json.isBlank_nil Json.isEnd_nil
  rw [List.nil_append, List.append_nil] at hread
  rw [parse, hread]
  rfl

/-- A configuration is read back from its compact text. -/
theorem parse_compact (c : Config) : parse (Json.compact c.toJson) = .ok c := by
  refine parse_of_reads ?_
  rw [← Json.write_tight 0]
  exact c.reads Layout.tight 0

/-- A configuration is read back from its laid-out text. -/
theorem parse_pretty (c : Config) : parse (Json.pretty c.toJson) = .ok c := by
  refine parse_of_reads ?_
  rw [Json.pretty, ← Json.write_wide]
  exact c.reads Layout.wide 0

/-- The text of the default configuration file is read as the defaults. -/
theorem parse_defaultText : parse defaultText = .ok {} :=
  parse_pretty {}

/-- The defaults are a valid configuration. -/
theorem fault?_default : ({} : Config).fault? = none := by
  decide +kernel

end Config

end ElementCatalog
