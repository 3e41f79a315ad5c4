import Archetype.Artifact.Codec
import Archetype.Artifact.CompiledScript
import Archetype.Bounded
import Archetype.CommandLine.Options
import Archetype.CommandLine.Run
import Archetype.CommandLine.ScriptPath
import Archetype.Decimal.Shortest
import Archetype.Error
import Archetype.Expression.Basic
import Archetype.Expression.Error
import Archetype.Expression.Evaluation
import Archetype.Expression.Folding
import Archetype.Expression.Lexer
import Archetype.Expression.Parser
import Archetype.Expression.Printer
import Archetype.Expression.Token
import Archetype.Files.Failure
import Archetype.Files.Tree
import Archetype.Flatten.CallTable
import Archetype.Flatten.Compile
import Archetype.Flatten.Prune
import Archetype.Flatten.Rebuild
import Archetype.Generation.Assembly
import Archetype.Generation.Config
import Archetype.Generation.Inputs
import Archetype.Generation.Outputs
import Archetype.Generation.Run
import Archetype.Input.Interactive
import Archetype.Input.Request
import Archetype.Input.Resolver
import Archetype.Json.Basic
import Archetype.Json.Number
import Archetype.Json.Printer
import Archetype.Json.Raw
import Archetype.Json.Reading
import Archetype.Library
import Archetype.Library.Directory
import Archetype.Main
import Archetype.Model.Basic
import Archetype.Model.Json
import Archetype.Model.Merge
import Archetype.Model.MergeMap
import Archetype.Model.Sort
import Archetype.Proofs.Artifact.Decoding
import Archetype.Proofs.Artifact.RoundTrip
import Archetype.Proofs.Expression.Agreement
import Archetype.Proofs.Expression.Derivation
import Archetype.Proofs.Expression.Folding
import Archetype.Proofs.Expression.Grammar
import Archetype.Proofs.Expression.Lookups
import Archetype.Proofs.Expression.Normal
import Archetype.Proofs.Expression.Placeholders
import Archetype.Proofs.Expression.RoundTrip
import Archetype.Proofs.Expression.Spelling
import Archetype.Proofs.Flatten.AlreadyFlat
import Archetype.Proofs.Flatten.Buildable
import Archetype.Proofs.Flatten.CallGraph
import Archetype.Proofs.Flatten.Closed
import Archetype.Proofs.Flatten.DeadNodes
import Archetype.Proofs.Flatten.Discovery
import Archetype.Proofs.Flatten.Exploring
import Archetype.Proofs.Flatten.Finished
import Archetype.Proofs.Flatten.Fitting
import Archetype.Proofs.Flatten.Flattened
import Archetype.Proofs.Flatten.Frames
import Archetype.Proofs.Flatten.Itinerary
import Archetype.Proofs.Flatten.Logged
import Archetype.Proofs.Flatten.Obfuscation
import Archetype.Proofs.Flatten.Origins
import Archetype.Proofs.Flatten.Orphans
import Archetype.Proofs.Flatten.Paired
import Archetype.Proofs.Flatten.PairedTrees
import Archetype.Proofs.Flatten.Pruning
import Archetype.Proofs.Flatten.Reached
import Archetype.Proofs.Flatten.Rebuilding
import Archetype.Proofs.Flatten.Rebuilt
import Archetype.Proofs.Flatten.RebuiltOnce
import Archetype.Proofs.Flatten.Recompiling
import Archetype.Proofs.Flatten.Recursion
import Archetype.Proofs.Flatten.Relabelled
import Archetype.Proofs.Flatten.Renumbered
import Archetype.Proofs.Flatten.Rescanning
import Archetype.Proofs.Flatten.Resolution
import Archetype.Proofs.Flatten.Scanning
import Archetype.Proofs.Flatten.Sharing
import Archetype.Proofs.Flatten.Simulation
import Archetype.Proofs.Flatten.Sites
import Archetype.Proofs.Flatten.Spliced
import Archetype.Proofs.Flatten.SplicedSites
import Archetype.Proofs.Flatten.SplicedWalk
import Archetype.Proofs.Flatten.Straight
import Archetype.Proofs.Flatten.Surveyed
import Archetype.Proofs.Flatten.Trimmed
import Archetype.Proofs.Flatten.Unresolved
import Archetype.Proofs.Generation.AlikeVisitors
import Archetype.Proofs.Generation.AskedOnce
import Archetype.Proofs.Generation.BoundValues
import Archetype.Proofs.Generation.CallSites
import Archetype.Proofs.Generation.Collapsing
import Archetype.Proofs.Generation.CollapsingVisitors
import Archetype.Proofs.Generation.Consultations
import Archetype.Proofs.Generation.Endings
import Archetype.Proofs.Generation.Flattening
import Archetype.Proofs.Generation.Inlining
import Archetype.Proofs.Generation.InputPaths
import Archetype.Proofs.Generation.InputScopes
import Archetype.Proofs.Generation.LaterPasses
import Archetype.Proofs.Generation.Meaning
import Archetype.Proofs.Generation.Passes
import Archetype.Proofs.Generation.ResolvedInputs
import Archetype.Proofs.Generation.Visitors
import Archetype.Proofs.Input.Asking
import Archetype.Proofs.Lockstep
import Archetype.Proofs.Model.Association
import Archetype.Proofs.Model.Index
import Archetype.Proofs.Model.Keys
import Archetype.Proofs.Model.Merging
import Archetype.Proofs.Model.Sorting
import Archetype.Proofs.Naming
import Archetype.Proofs.Scope.Collapsed
import Archetype.Proofs.Scope.CollapsedLookups
import Archetype.Proofs.Scope.CollapsedSearch
import Archetype.Proofs.Scope.Dissolving
import Archetype.Proofs.Scope.Extending
import Archetype.Proofs.Scope.FullPaths
import Archetype.Proofs.Scope.Growth
import Archetype.Proofs.Scope.InputNames
import Archetype.Proofs.Scope.Nearest
import Archetype.Proofs.Scope.Operations
import Archetype.Proofs.Scope.Pairing
import Archetype.Proofs.Scope.Precedence
import Archetype.Proofs.Scope.Renamed
import Archetype.Proofs.Scope.Renaming
import Archetype.Proofs.Scope.Retracing
import Archetype.Proofs.Scope.Routes
import Archetype.Proofs.Scope.Search
import Archetype.Proofs.Scope.Segments
import Archetype.Proofs.Scope.WellFormed
import Archetype.Proofs.Script.Checking
import Archetype.Proofs.Script.Conversion
import Archetype.Proofs.Script.Matched
import Archetype.Proofs.Script.Rechecking
import Archetype.Proofs.Script.Similar
import Archetype.Proofs.Stateful
import Archetype.Proofs.Text.Trimming
import Archetype.Proofs.Value.ListTexts
import Archetype.Proofs.Walk.Alike
import Archetype.Proofs.Walk.Apart
import Archetype.Proofs.Walk.Balanced
import Archetype.Proofs.Walk.Calls
import Archetype.Proofs.Walk.Charting
import Archetype.Proofs.Walk.Comparison
import Archetype.Proofs.Walk.Entered
import Archetype.Proofs.Walk.Extension
import Archetype.Proofs.Walk.Failures
import Archetype.Proofs.Walk.Forest
import Archetype.Proofs.Walk.Lifting
import Archetype.Proofs.Walk.Linked
import Archetype.Proofs.Walk.Methods
import Archetype.Proofs.Walk.Noting
import Archetype.Proofs.Walk.Outcome
import Archetype.Proofs.Walk.Pushing
import Archetype.Proofs.Walk.Related
import Archetype.Proofs.Walk.Role
import Archetype.Proofs.Walk.Standing
import Archetype.Proofs.Walk.Table
import Archetype.Proofs.Walk.Trace
import Archetype.Proofs.Walk.Tracking
import Archetype.Proofs.Walk.Upholding
import Archetype.Proofs.Walk.Visibility
import Archetype.Scope.Display
import Archetype.Scope.Lookup
import Archetype.Scope.Path
import Archetype.Scope.Tree
import Archetype.Script.Attributes
import Archetype.Script.Builder
import Archetype.Script.Display
import Archetype.Script.Document
import Archetype.Script.Error
import Archetype.Script.Kind
import Archetype.Script.Node
import Archetype.Table
import Archetype.Template
import Archetype.Text.Alphanumeric
import Archetype.Text.Blank
import Archetype.Text.Fields
import Archetype.Text.Integer
import Archetype.Value
import Archetype.Value.Reading
import Archetype.Value.Text
import Archetype.Walk
