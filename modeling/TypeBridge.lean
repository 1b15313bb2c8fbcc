import TypeBridge.Adapter.Descriptor
import TypeBridge.Adapter.Naming
import TypeBridge.Adapter.SharedModule
import TypeBridge.Adapter.Source
import TypeBridge.Adapter.Unit
import TypeBridge.Closure.Builtin
import TypeBridge.Closure.Closure
import TypeBridge.Closure.Reading
import TypeBridge.Command.Arguments
import TypeBridge.Command.Help
import TypeBridge.Command.Report
import TypeBridge.Command.Run
import TypeBridge.Config
import TypeBridge.Declaration.Drawing
import TypeBridge.Declaration.Shape
import TypeBridge.Declaration.Spelling
import TypeBridge.Declaration.Unit
import TypeBridge.Disk.Disk
import TypeBridge.Disk.Path
import TypeBridge.Disk.Task
import TypeBridge.Graph.EmissionOrder
import TypeBridge.Graph.MemberSet
import TypeBridge.Graph.Node
import TypeBridge.Graph.ResolvedType
import TypeBridge.Graph.Substitution
import TypeBridge.Graph.TypeGraph
import TypeBridge.Host.AllowList
import TypeBridge.Host.Annotation
import TypeBridge.Host.Argument
import TypeBridge.Host.HostModel
import TypeBridge.Host.HostType
import TypeBridge.Host.InputError
import TypeBridge.Host.Name
import TypeBridge.Host.Schema
import TypeBridge.Host.Signature
import TypeBridge.Host.Signature.Reader
import TypeBridge.Host.Snapshot
import TypeBridge.Layout.Fragment
import TypeBridge.Layout.Json
import TypeBridge.Layout.Page
import TypeBridge.Pass.Diagnostic
import TypeBridge.Pass.Discovery
import TypeBridge.Pass.Pass
import TypeBridge.Pass.PassError
import TypeBridge.Pass.Phase
import TypeBridge.Pass.Record
import TypeBridge.Pass.Rendering
import TypeBridge.Pass.Session
import TypeBridge.Pass.Step
import TypeBridge.Project.Generation
import TypeBridge.Project.Project
import TypeBridge.Recipe.Draft
import TypeBridge.Recipe.Extraction
import TypeBridge.Recipe.OptionType
import TypeBridge.Recipe.Schema
import TypeBridge.Script.Literal
import TypeBridge.Script.Naming
import TypeBridge.Script.Statement
import TypeBridge.Script.TypeText
import TypeBridge.Search.Components
import TypeBridge.Search.Keyed
import TypeBridge.Search.Schedule
import TypeBridge.Search.Walk
import TypeBridge.Text.Binary64
import TypeBridge.Text.Blank
import TypeBridge.Text.CodeOrder
import TypeBridge.Text.Front
import TypeBridge.Text.Letter
import TypeBridge.Text.Letter.Table
import TypeBridge.Text.Lines
import TypeBridge.Text.Quoted
import TypeBridge.Text.Rest
import TypeBridge.Text.Words
import TypeBridge.Toml.Document
import TypeBridge.Toml.Moment
import TypeBridge.Toml.Number
import TypeBridge.Toml.Reader
import TypeBridge.Toml.Scalars
import TypeBridge.Toml.Value
import TypeBridge.Main
import TypeBridge.Proofs.ComponentLayers
import TypeBridge.Proofs.ComponentSearch
import TypeBridge.Proofs.ClosureContainment
import TypeBridge.Proofs.DeclarationTexts
import TypeBridge.Proofs.DeclarationTopology
import TypeBridge.Proofs.ClosureDistance
import TypeBridge.Proofs.ClosureIndependence
import TypeBridge.Proofs.ClosureWellFormed
import TypeBridge.Proofs.ReferenceScoping
import TypeBridge.Proofs.SchemaCompleteness
import TypeBridge.Proofs.VariableScoping
import TypeBridge.Proofs.AdapterTexts
import TypeBridge.Proofs.AdapterArguments
import TypeBridge.Proofs.VisitorDispatch
import TypeBridge.Proofs.StepHistory
import TypeBridge.Proofs.IdleGeneration
import TypeBridge.Proofs.SignatureRoundTrip
import TypeBridge.Proofs.SignatureGrammar
import TypeBridge.Proofs.SignatureDerivations
import TypeBridge.Proofs.AdapterModuleNames
import TypeBridge.Proofs.OwnMembers
import TypeBridge.Proofs.SignatureReferences
import TypeBridge.Proofs.UnknownArguments
import TypeBridge.Proofs.CollectionScoping
import TypeBridge.Proofs.CapturedVariables
import TypeBridge.Proofs.MemberConflicts
import TypeBridge.Proofs.InheritanceCycles
import TypeBridge.Proofs.EmissionTies
import TypeBridge.Proofs.ResolutionErrors
import TypeBridge.Proofs.MarkedTypes
import TypeBridge.Proofs.OptionOrder
import TypeBridge.Proofs.DeclarationPaths
import TypeBridge.Proofs.SnapshotMerging
import TypeBridge.Proofs.DescriptorTexts
import TypeBridge.Proofs.TypeTexts
import TypeBridge.Proofs.DocumentationComments
import TypeBridge.Proofs.InsertionNumbers
import TypeBridge.Proofs.MemberClashes
import TypeBridge.Proofs.SupertypeChains
import TypeBridge.Proofs.VariantReferences
import TypeBridge.Proofs.ParameterNames
import TypeBridge.Proofs.DeclaredNames
import TypeBridge.Proofs.PageLines
import TypeBridge.Proofs.ClosureTurns
import TypeBridge.Proofs.AdjacencyComponents
import TypeBridge.Proofs.ComposedSubstitutions
import TypeBridge.Proofs.PlacedFragments
import TypeBridge.Proofs.ViablePrefixes
