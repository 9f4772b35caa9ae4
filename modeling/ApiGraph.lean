import ApiGraph.Calendar
import ApiGraph.CommandLine.Arguments
import ApiGraph.CommandLine.Run
import ApiGraph.Datum
import ApiGraph.Deflate
import ApiGraph.Delivery
import ApiGraph.Dict
import ApiGraph.Emitter
import ApiGraph.Digest.Sha256
import ApiGraph.Entity.Basic
import ApiGraph.Entity.Kind
import ApiGraph.Entity.Reader
import ApiGraph.Entity.Writer
import ApiGraph.Failure
import ApiGraph.Files.Place
import ApiGraph.Files.Text
import ApiGraph.Files.Tree
import ApiGraph.Generator
import ApiGraph.Graph
import ApiGraph.Inspection
import ApiGraph.Json.Basic
import ApiGraph.Json.Reader
import ApiGraph.Json.Shape
import ApiGraph.Json.Shown
import ApiGraph.Json.Writer
import ApiGraph.Main
import ApiGraph.Naming
import ApiGraph.Naming.Rule
import ApiGraph.Number.Decimal
import ApiGraph.Number.Double
import ApiGraph.Number.Integer
import ApiGraph.Number.Shortest
import ApiGraph.Pointer
import ApiGraph.Registry
import ApiGraph.Resolve.Basic
import ApiGraph.Resolve.Bench
import ApiGraph.Resolve.Component
import ApiGraph.Resolve.Header
import ApiGraph.Resolve.Node
import ApiGraph.Resolve.Operation
import ApiGraph.Resolve.Parameter
import ApiGraph.Resolve.Payload
import ApiGraph.Resolve.Reference
import ApiGraph.Resolve.Schema
import ApiGraph.Resolve.Walk
import ApiGraph.Roster
import ApiGraph.Schema.Flaw
import ApiGraph.Schema.Form
import ApiGraph.Schema.Keyword
import ApiGraph.Scope
import ApiGraph.Settings.Basic
import ApiGraph.Settings.Load
import ApiGraph.Snapshot
import ApiGraph.Source
import ApiGraph.Source.Answer
import ApiGraph.Source.ContentType
import ApiGraph.Store
import ApiGraph.Terminal
import ApiGraph.Text.Alnum
import ApiGraph.Text.Blank
import ApiGraph.Text.Charset
import ApiGraph.Text.Charset.Page
import ApiGraph.Text.Decimal
import ApiGraph.Text.Printable
import ApiGraph.Text.Quoted
import ApiGraph.Text.Upper
import ApiGraph.Text.Words
import ApiGraph.Version
import ApiGraph.Yaml.Cursor
import ApiGraph.Yaml.Document
import ApiGraph.Yaml.Flaw
import ApiGraph.Yaml.Node
import ApiGraph.Yaml.Node.Reader
import ApiGraph.Yaml.Property
import ApiGraph.Yaml.Scalar.Block
import ApiGraph.Yaml.Scalar.Plain
import ApiGraph.Yaml.Scalar.Quoted
import ApiGraph.Yaml.Tag
import ApiGraph.Yaml.Token
import ApiGraph.Yaml.Token.Lexer
import ApiGraph.Yaml.Value
import ApiGraph.Proofs.FreeVariant
import ApiGraph.Proofs.Registry.Coherence
import ApiGraph.Proofs.Registry.History
import ApiGraph.Proofs.Resolve.Run
import ApiGraph.Proofs.Resolve.Schema
import ApiGraph.Proofs.Resolve.Node
import ApiGraph.Proofs.Resolve.Operation
import ApiGraph.Proofs.Resolve.Component
import ApiGraph.Proofs.Resolve.Walk
import ApiGraph.Proofs.Resolve.Shaped
import ApiGraph.Proofs.Resolve.Traversal
import ApiGraph.Proofs.Resolve.Traversal.Walk
import ApiGraph.Proofs.Resolve.Extension
import ApiGraph.Proofs.Closure
import ApiGraph.Proofs.Resolve.Notices
import ApiGraph.Proofs.Delivery
import ApiGraph.Proofs.Graph
import ApiGraph.Proofs.Handles
import ApiGraph.Proofs.Distinct
import ApiGraph.Proofs.Names
import ApiGraph.Proofs.Json.Alike
import ApiGraph.Proofs.Json.Number
import ApiGraph.Proofs.Json.Quoted
import ApiGraph.Proofs.Json.Canonical
import ApiGraph.Proofs.Resolve.Inline
import ApiGraph.Proofs.Dict
import ApiGraph.Proofs.Json.Order
import ApiGraph.Proofs.Json.Finite
import ApiGraph.Proofs.Shape
import ApiGraph.Proofs.Links
import ApiGraph.Proofs.Resolve.Collection
import ApiGraph.Proofs.Resolve.Made
import ApiGraph.Proofs.Resolve.Visit
import ApiGraph.Proofs.Made
import ApiGraph.Proofs.Payloads
import ApiGraph.Proofs.Stream
import ApiGraph.Proofs.Entity.Finite
import ApiGraph.Proofs.Entity.Reading
import ApiGraph.Proofs.Snapshot
import ApiGraph.Proofs.Reload
import ApiGraph.Proofs.Roster
import ApiGraph.Proofs.CommandLine.History
import ApiGraph.Proofs.CommandLine.Transparency
import ApiGraph.Proofs.CommandLine.Lifecycle
import ApiGraph.Proofs.Graph.History
import ApiGraph.Proofs.Components
import ApiGraph.Proofs.Dependencies
import ApiGraph.Proofs.Resolve.Asking
import ApiGraph.Proofs.Resolve.Questions
import ApiGraph.Proofs.Termination
import ApiGraph.Proofs.Interruption
import ApiGraph.Proofs.Resolve.Carrying
import ApiGraph.Proofs.Resolve.Following
import ApiGraph.Proofs.Appending
import ApiGraph.Proofs.Json.Kin
import ApiGraph.Proofs.Json.Agreeing
import ApiGraph.Proofs.Entity.Kin
import ApiGraph.Proofs.Registry.Kin
import ApiGraph.Proofs.Resolve.Parallel
import ApiGraph.Proofs.Resolve.Reordering
import ApiGraph.Proofs.Resolve.ReorderingComponents
import ApiGraph.Proofs.Resolve.ReorderingWalk
import ApiGraph.Proofs.Reordering
import ApiGraph.Proofs.Json.Chain
import ApiGraph.Proofs.Reached
import ApiGraph.Proofs.Resolve.Foreseen
import ApiGraph.Proofs.Resolve.Foreseen.Node
import ApiGraph.Proofs.Resolve.Foreseen.Operation
import ApiGraph.Proofs.Resolve.Foreseen.Walk
import ApiGraph.Proofs.Foreseen
import ApiGraph.Proofs.Contents
import ApiGraph.Proofs.InlineParameters
import ApiGraph.Proofs.Course
import ApiGraph.Proofs.Emitter
import ApiGraph.Proofs.Arrays
import ApiGraph.Proofs.Chase
import ApiGraph.Proofs.Faithful
import ApiGraph.Proofs.Fidelity
import ApiGraph.Proofs.Dereference
import ApiGraph.Proofs.Resolve.Sparing
import ApiGraph.Proofs.Operations
import ApiGraph.Proofs.Expansion
import ApiGraph.Proofs.Headers
import ApiGraph.Proofs.Labels
import ApiGraph.Proofs.Schema.Keyword
import ApiGraph.Proofs.Aggregates
import ApiGraph.Proofs.Parameters
import ApiGraph.Proofs.Keys
import ApiGraph.Proofs.Pointer
import ApiGraph.Proofs.Required
import ApiGraph.Proofs.Resolve.Aliases
import ApiGraph.Proofs.Aliases
import ApiGraph.Proofs.Pointer.Location
import ApiGraph.Proofs.Registry.Lookup
import ApiGraph.Proofs.Adoption
import ApiGraph.Proofs.Json.Oversize
import ApiGraph.Proofs.Loading
import ApiGraph.Proofs.Claiming
import ApiGraph.Proofs.Identifier
import ApiGraph.Proofs.Resolve.Titled
import ApiGraph.Proofs.Resolve.Sorted
import ApiGraph.Proofs.Resolve.Settled
import ApiGraph.Proofs.Keywords
import ApiGraph.Proofs.Resolve.Spelt
import ApiGraph.Proofs.Identifiers
import ApiGraph.Proofs.Files
import ApiGraph.Proofs.CommandLine.Leavings
