import ResourceKinds.Json.Printer
import ResourceKinds.Json.Decoder
import ResourceKinds.Schema.Synthesis
import ResourceKinds.Schema.Pruning
import ResourceKinds.Version
import ResourceKinds.Kind.Document
import ResourceKinds.Conversion.Registry
import ResourceKinds.Checksum
import ResourceKinds.Encoding
import ResourceKinds.Artifact.Writer
import ResourceKinds.Selector
import ResourceKinds.Generator.Documents
import ResourceKinds.Generator.Script
import ResourceKinds.Conformance.Metaschema
import ResourceKinds.Toml.Reader
import ResourceKinds.Toml.Printer
import ResourceKinds.Settings.Source
import ResourceKinds.Yaml.Reader
import ResourceKinds.Main
import ResourceKinds.Proofs.Schema.ExpansionMemo
import ResourceKinds.Proofs.Schema.TypeMembers
import ResourceKinds.Proofs.Conversion.RoundTrip
import ResourceKinds.Proofs.CommandLine.Sharing
import ResourceKinds.Proofs.Conversion.Hops
import ResourceKinds.Proofs.Schema.Resynthesis
import ResourceKinds.Proofs.CacheHistories
import ResourceKinds.Proofs.Conversion.RegistryHistories
import ResourceKinds.Proofs.Schema.DocumentPruning
import ResourceKinds.Proofs.Schema.Resolution
import ResourceKinds.Proofs.Schema.Admission
import ResourceKinds.Proofs.Schema.TreePruning
import ResourceKinds.Proofs.Schema.SelfContained
import ResourceKinds.Proofs.Artifact.Commit
import ResourceKinds.Proofs.CacheOrder
import ResourceKinds.Proofs.Generator.SplitKinds
import ResourceKinds.Proofs.Generator.KindByKind
import ResourceKinds.Proofs.Generator.SelectedKinds
import ResourceKinds.Proofs.Generator.Hubs
import ResourceKinds.Proofs.Generator.ListedKinds
import ResourceKinds.Proofs.Artifact.Histories
import ResourceKinds.Proofs.Artifact.IndexedSets
import ResourceKinds.Proofs.Schema.Reachability
import ResourceKinds.Proofs.Conversion.EdgeGraphs
import ResourceKinds.Proofs.Conversion.Connections
import ResourceKinds.Proofs.Artifact.Agreement
import ResourceKinds.Proofs.Generator.Orders
import ResourceKinds.Proofs.Files.Climbing
import ResourceKinds.Proofs.Generator.OutputPlaces
import ResourceKinds.Proofs.Schema.PrunedPlaces
import ResourceKinds.Proofs.Schema.Places
import ResourceKinds.Proofs.Schema.OpenMaps
import ResourceKinds.Proofs.Schema.Acceptance
import ResourceKinds.Proofs.Schema.SelectableFields
import ResourceKinds.Proofs.Kind.WiringOutcomes
import ResourceKinds.Proofs.Kind.MergedLists
import ResourceKinds.Proofs.Kind.HubWarnings
import ResourceKinds.Proofs.Generator.Filters
import ResourceKinds.Proofs.Kind.Patterns
import ResourceKinds.Proofs.CacheFailures
import ResourceKinds.Proofs.ViewOutcomes
import ResourceKinds.Proofs.Artifact.Overlay
import ResourceKinds.Proofs.Schema.ExpansionDepth
import ResourceKinds.Proofs.DeclaredVersions
import ResourceKinds.Proofs.CommandLine.ShownSchemas
