import ElementCatalog.Main
import ElementCatalog.Proofs.CatalogAssembly
import ElementCatalog.Proofs.DirectDispatches
import ElementCatalog.Proofs.DispatchedVariables
import ElementCatalog.Proofs.EventPrecedence
import ElementCatalog.Proofs.ExportSearch
import ElementCatalog.Proofs.ExtractionOutcomes
import ElementCatalog.Proofs.InputMembers
import ElementCatalog.Proofs.LoadedClosure
import ElementCatalog.Proofs.NamespaceHandlers
import ElementCatalog.Proofs.NamespaceParents
import ElementCatalog.Proofs.OpenDeclarations
import ElementCatalog.Proofs.OptionalDispatches
import ElementCatalog.Proofs.ReducedUnions
import ElementCatalog.Proofs.SchemaSoundness
import ElementCatalog.Proofs.ShapeParameters
import ElementCatalog.Proofs.ShapeReadings
import ElementCatalog.Proofs.StaticBlocks
import ElementCatalog.Proofs.TypeParameters
import ElementCatalog.Proofs.UnionAcceptance
import ElementCatalog.Proofs.UnrelatedFiles
import ElementCatalog.Proofs.WellFormedCatalogs
import ElementCatalog.Proofs.WrappedImplementations
import ElementCatalog.Proofs.WrapperVariables
import ElementCatalog.Source.Scoping
import ElementCatalog.Proofs.AliasReadings
import ElementCatalog.Proofs.CallbackAliases
import ElementCatalog.Proofs.MissingMembers
import ElementCatalog.Proofs.PickedKeys
import ElementCatalog.Proofs.EnumerationValues
import ElementCatalog.Proofs.AcceptedKeys
import ElementCatalog.Proofs.RepeatedDeclarations
import ElementCatalog.Proofs.WellKnownNames
import ElementCatalog.Proofs.NormalLocations
import ElementCatalog.Proofs.DiskLocations
import ElementCatalog.Proofs.ConfigLookup
import ElementCatalog.Proofs.ConfigAncestors
import ElementCatalog.Proofs.NamespaceExports
import ElementCatalog.Proofs.FoundFiles
import ElementCatalog.Proofs.PathSets
import ElementCatalog.Proofs.ScannedFiles
import ElementCatalog.Proofs.RuntimeOutcomes
import ElementCatalog.Proofs.ScannedLocations
import ElementCatalog.Proofs.LoadedAssets
import ElementCatalog.Proofs.ConfigTexts
import ElementCatalog.Proofs.AddedFiles
import ElementCatalog.Proofs.AbsolutePaths
import ElementCatalog.Proofs.DefaultIgnores
import ElementCatalog.Proofs.RealPaths
import ElementCatalog.Proofs.InitializedProjects
import ElementCatalog.Proofs.InitializedPrograms
import ElementCatalog.Proofs.InitializedCatalogs
import ElementCatalog.Proofs.AnnouncedEvents
import ElementCatalog.Proofs.DocDefaults
import ElementCatalog.Proofs.LiteralValues
import ElementCatalog.Proofs.ShownPaths
import ElementCatalog.Proofs.WrapperChains
import ElementCatalog.Proofs.WrittenSchemas
import ElementCatalog.Proofs.PropertyNames
import ElementCatalog.Proofs.ObjectWrites
import ElementCatalog.Proofs.PathKeys
