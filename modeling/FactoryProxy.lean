import FactoryProxy.Artifact.Basic
import FactoryProxy.Artifact.Name
import FactoryProxy.Artifact.Registry
import FactoryProxy.ClassDeclaration
import FactoryProxy.ClassIndex.Basic
import FactoryProxy.ClassIndex.Hierarchy
import FactoryProxy.ClassIndex.Scan
import FactoryProxy.Command.Arguments
import FactoryProxy.Command.Option
import FactoryProxy.Command.Output
import FactoryProxy.Command.Places
import FactoryProxy.Command.Run
import FactoryProxy.Container.Basic
import FactoryProxy.Container.Emission
import FactoryProxy.Container.Manifest
import FactoryProxy.Dependency.Basic
import FactoryProxy.Digest.Sha256
import FactoryProxy.Failure
import FactoryProxy.FileSystem.Basic
import FactoryProxy.FileSystem.Change
import FactoryProxy.FileSystem.IoFailure
import FactoryProxy.FileSystem.SourceFiles
import FactoryProxy.FileSystem.Walk
import FactoryProxy.Generation
import FactoryProxy.Glob.Match
import FactoryProxy.Glob.Pattern
import FactoryProxy.Interface.Model
import FactoryProxy.Interface.Printer
import FactoryProxy.Json.Magnitude
import FactoryProxy.Json.Printer
import FactoryProxy.Json.Reader
import FactoryProxy.Json.Record
import FactoryProxy.Json.Value
import FactoryProxy.Loading.Autoloader
import FactoryProxy.Loading.ProxyLoader
import FactoryProxy.Main
import FactoryProxy.Name.Basic
import FactoryProxy.Name.Scope
import FactoryProxy.OrderedMap
import FactoryProxy.Path.Basic
import FactoryProxy.Path.Join
import FactoryProxy.Php.Expression
import FactoryProxy.Php.Grammar.Declaration
import FactoryProxy.Php.Grammar.Expression
import FactoryProxy.Php.Grammar.Member
import FactoryProxy.Php.Grammar.Name
import FactoryProxy.Php.Grammar.Operand
import FactoryProxy.Php.Grammar.Parameter
import FactoryProxy.Php.Grammar.Statement
import FactoryProxy.Php.Lexer
import FactoryProxy.Php.Node
import FactoryProxy.Php.Reader
import FactoryProxy.Php.SourceFile
import FactoryProxy.Php.Span
import FactoryProxy.Php.Syntax
import FactoryProxy.Php.Template
import FactoryProxy.Php.Token
import FactoryProxy.Proofs.Artifact.Creation
import FactoryProxy.Proofs.Artifact.Documentation
import FactoryProxy.Proofs.Artifact.Layout
import FactoryProxy.Proofs.Artifact.Membership
import FactoryProxy.Proofs.Artifact.Naming
import FactoryProxy.Proofs.Artifact.Persisting
import FactoryProxy.Proofs.Artifact.ReadBack
import FactoryProxy.Proofs.Artifact.Recording
import FactoryProxy.Proofs.ClassIndex.Ambiguity
import FactoryProxy.Proofs.ClassIndex.Ancestry
import FactoryProxy.Proofs.ClassIndex.Construction
import FactoryProxy.Proofs.ClassIndex.Correspondence
import FactoryProxy.Proofs.ClassIndex.Distinctness
import FactoryProxy.Proofs.ClassIndex.Inheritance
import FactoryProxy.Proofs.ClassIndex.Locality
import FactoryProxy.Proofs.ClassIndex.Origin
import FactoryProxy.Proofs.ClassIndex.Reachability
import FactoryProxy.Proofs.ClassIndex.Relocation
import FactoryProxy.Proofs.ClassIndex.Rescan
import FactoryProxy.Proofs.ClassIndex.Respelling
import FactoryProxy.Proofs.ClassIndex.Strictness
import FactoryProxy.Proofs.Command.Generating
import FactoryProxy.Proofs.Command.History
import FactoryProxy.Proofs.Command.Skipping
import FactoryProxy.Proofs.Container.Changes
import FactoryProxy.Proofs.Container.Emission
import FactoryProxy.Proofs.Container.Initializers
import FactoryProxy.Proofs.Container.Manifest
import FactoryProxy.Proofs.Dependency.Expiry
import FactoryProxy.Proofs.Digest.Collision
import FactoryProxy.Proofs.FileSystem.Children
import FactoryProxy.Proofs.FileSystem.Descending
import FactoryProxy.Proofs.FileSystem.Following
import FactoryProxy.Proofs.FileSystem.Growing
import FactoryProxy.Proofs.FileSystem.Linkless
import FactoryProxy.Proofs.FileSystem.Making
import FactoryProxy.Proofs.FileSystem.Opening
import FactoryProxy.Proofs.FileSystem.Overlapping
import FactoryProxy.Proofs.FileSystem.Rewriting
import FactoryProxy.Proofs.FileSystem.Scanning
import FactoryProxy.Proofs.FileSystem.Spelling
import FactoryProxy.Proofs.FileSystem.Walking
import FactoryProxy.Proofs.FileSystem.Writing
import FactoryProxy.Proofs.Generation.Atomicity
import FactoryProxy.Proofs.Generation.FixedPoint
import FactoryProxy.Proofs.Generation.Frame
import FactoryProxy.Proofs.Generation.Freshness
import FactoryProxy.Proofs.Generation.Recording
import FactoryProxy.Proofs.Generation.Reordering
import FactoryProxy.Proofs.Generation.Repeating
import FactoryProxy.Proofs.Generation.Steps
import FactoryProxy.Proofs.Interface.RelativeNames
import FactoryProxy.Proofs.Json.Layout
import FactoryProxy.Proofs.Json.Text
import FactoryProxy.Proofs.Loading.GeneratedTypes
import FactoryProxy.Proofs.Loading.Lasting
import FactoryProxy.Proofs.Loading.Leftovers
import FactoryProxy.Proofs.Loading.ProxyDirectory
import FactoryProxy.Proofs.Loading.Registering
import FactoryProxy.Proofs.Name.Imports
import FactoryProxy.Proofs.Name.Resolution
import FactoryProxy.Proofs.Name.Spelling
import FactoryProxy.Proofs.OrderedMap.Lookup
import FactoryProxy.Proofs.OrderedMap.Rebuild
import FactoryProxy.Proofs.OrderedMap.Spelling
import FactoryProxy.Proofs.Path.Parent
import FactoryProxy.Proofs.Php.BlockComments
import FactoryProxy.Proofs.Php.Comments
import FactoryProxy.Proofs.Php.Deciding
import FactoryProxy.Proofs.Php.Gathering
import FactoryProxy.Proofs.Php.InterfaceFiles
import FactoryProxy.Proofs.Php.NamePlaces
import FactoryProxy.Proofs.Php.PlainFiles
import FactoryProxy.Proofs.Php.PlainPhrases
import FactoryProxy.Proofs.Php.PlainTokens
import FactoryProxy.Proofs.Php.ReadImports
import FactoryProxy.Proofs.Php.ReadInterfaces
import FactoryProxy.Proofs.Php.ReadParameters
import FactoryProxy.Proofs.Php.Reading
import FactoryProxy.Proofs.Php.WrittenImports
import FactoryProxy.Proofs.Php.WrittenNames
import FactoryProxy.Proofs.Reflection.CommentedNames
import FactoryProxy.Proofs.Reflection.CommentedTypes
import FactoryProxy.Proofs.Reflection.Denotation
import FactoryProxy.Proofs.Reflection.GroupImports
import FactoryProxy.Proofs.Reflection.MovedNames
import FactoryProxy.Proofs.Reflection.Sections
import FactoryProxy.Proofs.Reflection.Splicing
import FactoryProxy.Proofs.Reflection.Statements
import FactoryProxy.Proofs.Selection
import FactoryProxy.Proofs.Sequencing
import FactoryProxy.Proofs.Settings.ApplicationRoot
import FactoryProxy.Proofs.Settings.Expansion
import FactoryProxy.Proofs.Settings.Fingerprint
import FactoryProxy.Proofs.Settings.References
import FactoryProxy.Proofs.Settings.Writing
import FactoryProxy.Proofs.Signature.Optionality
import FactoryProxy.Proofs.Text.Bytes
import FactoryProxy.Proofs.Text.Folding
import FactoryProxy.Proofs.Text.Pieces
import FactoryProxy.Proofs.Text.Trimming
import FactoryProxy.Proofs.TypeHint.Expressions
import FactoryProxy.Reflection.Declarations
import FactoryProxy.Reflection.DefaultValue
import FactoryProxy.Selection
import FactoryProxy.Settings.Basic
import FactoryProxy.Settings.Expansion
import FactoryProxy.Settings.Loaded
import FactoryProxy.Settings.Resolved
import FactoryProxy.Settings.Template
import FactoryProxy.Signature.Constructor
import FactoryProxy.Signature.Parameter
import FactoryProxy.Text.Blank
import FactoryProxy.Text.Folding
import FactoryProxy.Text.Join
import FactoryProxy.Text.Split
import FactoryProxy.Text.WordCharacter
import FactoryProxy.Toml.Document
import FactoryProxy.Toml.Moment
import FactoryProxy.Toml.Syntax
import FactoryProxy.Toml.Text
import FactoryProxy.Toml.Value
import FactoryProxy.TypeHint.Builtin
