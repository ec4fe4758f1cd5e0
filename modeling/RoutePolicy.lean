import RoutePolicy.Address
import RoutePolicy.Codec.Configuration
import RoutePolicy.Codec.Decision
import RoutePolicy.Codec.Diagnostic
import RoutePolicy.Codec.Policy
import RoutePolicy.Codec.Report
import RoutePolicy.Codec.Route
import RoutePolicy.CommandLine.Arguments
import RoutePolicy.CommandLine.Command
import RoutePolicy.CommandLine.Execution
import RoutePolicy.CommandLine.FileTree
import RoutePolicy.CommandLine.Help
import RoutePolicy.Community
import RoutePolicy.Configuration.Basic
import RoutePolicy.Configuration.Compile
import RoutePolicy.Configuration.Convert
import RoutePolicy.Configuration.Document
import RoutePolicy.Derived.Name
import RoutePolicy.Derived.Policy
import RoutePolicy.Diagnostic.Basic
import RoutePolicy.Diagnostic.Collector
import RoutePolicy.Diagnostic.Report
import RoutePolicy.Digest.Sha256
import RoutePolicy.Epoch
import RoutePolicy.Evaluation.Decision
import RoutePolicy.Evaluation.Evaluate
import RoutePolicy.Evaluation.Interpreter
import RoutePolicy.Evaluation.Run
import RoutePolicy.Event
import RoutePolicy.Failure
import RoutePolicy.Fingerprint
import RoutePolicy.Journal
import RoutePolicy.Json.Basic
import RoutePolicy.Json.Decode
import RoutePolicy.Json.Number
import RoutePolicy.Json.Printer
import RoutePolicy.Json.Reader
import RoutePolicy.LogFilter.Basic
import RoutePolicy.LogFilter.Setting
import RoutePolicy.Main
import RoutePolicy.Ordered.KeyOrder
import RoutePolicy.Ordered.SortedMap
import RoutePolicy.Ordered.SortedSet
import RoutePolicy.Pattern.Basic
import RoutePolicy.Pattern.Reader
import RoutePolicy.Policy.Basic
import RoutePolicy.Policy.Condition
import RoutePolicy.Policy.Name
import RoutePolicy.Policy.Simplify
import RoutePolicy.Policy.Statement
import RoutePolicy.Prefix.Basic
import RoutePolicy.Prefix.Range
import RoutePolicy.Prefix.Text
import RoutePolicy.Proofs.Codec.Configuration
import RoutePolicy.Proofs.Codec.Exact
import RoutePolicy.Proofs.Codec.Plain
import RoutePolicy.Proofs.Codec.Policy
import RoutePolicy.Proofs.Codec.RoundTrip
import RoutePolicy.Proofs.Codec.Route
import RoutePolicy.Proofs.Community.Reading
import RoutePolicy.Proofs.Configuration.Account
import RoutePolicy.Proofs.Configuration.Asked
import RoutePolicy.Proofs.Configuration.Chains
import RoutePolicy.Proofs.Configuration.ClauseOrder
import RoutePolicy.Proofs.Configuration.Collisions
import RoutePolicy.Proofs.Configuration.CompileSound
import RoutePolicy.Proofs.Configuration.Contents
import RoutePolicy.Proofs.Configuration.Converted
import RoutePolicy.Proofs.Configuration.Entries
import RoutePolicy.Proofs.Configuration.EntryPoints
import RoutePolicy.Proofs.Configuration.Findings
import RoutePolicy.Proofs.Configuration.Guard
import RoutePolicy.Proofs.Configuration.Independence
import RoutePolicy.Proofs.Configuration.Inventory
import RoutePolicy.Proofs.Configuration.Members
import RoutePolicy.Proofs.Configuration.NextTerm
import RoutePolicy.Proofs.Configuration.Order
import RoutePolicy.Proofs.Configuration.Reading
import RoutePolicy.Proofs.Configuration.Unusable
import RoutePolicy.Proofs.Configuration.UserPolicies
import RoutePolicy.Proofs.Derived.Programs
import RoutePolicy.Proofs.Diagnostic.Sharing
import RoutePolicy.Proofs.Evaluation.Adequacy
import RoutePolicy.Proofs.Evaluation.Attempts
import RoutePolicy.Proofs.Evaluation.CallDepth
import RoutePolicy.Proofs.Evaluation.Confined
import RoutePolicy.Proofs.Evaluation.Cycles
import RoutePolicy.Proofs.Evaluation.Effect
import RoutePolicy.Proofs.Evaluation.Entering
import RoutePolicy.Proofs.Evaluation.Laws
import RoutePolicy.Proofs.Evaluation.Machine
import RoutePolicy.Proofs.Evaluation.Parallel
import RoutePolicy.Proofs.Evaluation.Refusals
import RoutePolicy.Proofs.Evaluation.Scoping
import RoutePolicy.Proofs.Evaluation.ShortCircuit
import RoutePolicy.Proofs.Evaluation.Termination
import RoutePolicy.Proofs.Evaluation.Unwinding
import RoutePolicy.Proofs.Evaluation.Waiting
import RoutePolicy.Proofs.Evaluation.WorkingRoute
import RoutePolicy.Proofs.Fingerprint
import RoutePolicy.Proofs.Json.Printer
import RoutePolicy.Proofs.Ordered.SortedMap
import RoutePolicy.Proofs.Ordered.SortedSet
import RoutePolicy.Proofs.Policy.NormalForm
import RoutePolicy.Proofs.Policy.References
import RoutePolicy.Proofs.Policy.SimplifySound
import RoutePolicy.Proofs.Policy.Writes
import RoutePolicy.Proofs.Prefix.Ranges
import RoutePolicy.Proofs.Prefix.Reading
import RoutePolicy.Proofs.Prefix.Selection
import RoutePolicy.Proofs.Prefix.Text
import RoutePolicy.Proofs.Registry.ByName
import RoutePolicy.Proofs.Registry.Define
import RoutePolicy.Proofs.Registry.Extension
import RoutePolicy.Proofs.Registry.FreezeSound
import RoutePolicy.Proofs.Registry.Linked
import RoutePolicy.Proofs.Registry.Linking
import RoutePolicy.Proofs.Registry.Provenance
import RoutePolicy.Proofs.Registry.Redefinition
import RoutePolicy.Proofs.Registry.Simplified
import RoutePolicy.Proofs.Registry.SimplifyAll
import RoutePolicy.Proofs.Route.Community
import RoutePolicy.Proofs.Route.Overlay
import RoutePolicy.Proofs.Table.Defaults
import RoutePolicy.Proofs.Table.Equivalence
import RoutePolicy.Proofs.Table.Frozen
import RoutePolicy.Proofs.Table.Renaming
import RoutePolicy.Registry.Basic
import RoutePolicy.Registry.Link
import RoutePolicy.Registry.Provenance
import RoutePolicy.Route.Attribute
import RoutePolicy.Route.Basic
import RoutePolicy.Route.Overlay
import RoutePolicy.Route.Protocol
import RoutePolicy.Scenario.Basic
import RoutePolicy.Scenario.Campus
import RoutePolicy.Scenario.Leaking
import RoutePolicy.Scenario.Presentation
import RoutePolicy.Scenario.Run
import RoutePolicy.Scenario.Transit
import RoutePolicy.Table
import RoutePolicy.Text.Alphabetic
import RoutePolicy.Text.Alphanumeric
import RoutePolicy.Text.Blank
import RoutePolicy.Text.ByteSlice
import RoutePolicy.Text.Decimal
import RoutePolicy.Text.Hexadecimal
import RoutePolicy.Text.Magnitude
import RoutePolicy.Text.Pad
import RoutePolicy.Text.Split
import RoutePolicy.Toml.Document
import RoutePolicy.Toml.Number
import RoutePolicy.Toml.Text
import RoutePolicy.Toml.Tree
import RoutePolicy.Toml.Trivia
import RoutePolicy.Toml.Value
