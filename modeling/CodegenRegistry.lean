import CodegenRegistry.Argument
import CodegenRegistry.Batch.Composition
import CodegenRegistry.Batch.Invocation
import CodegenRegistry.Binding
import CodegenRegistry.Catalog
import CodegenRegistry.Choice
import CodegenRegistry.Diagnostic
import CodegenRegistry.Event
import CodegenRegistry.Expansion
import CodegenRegistry.Generator
import CodegenRegistry.Logged
import CodegenRegistry.NameTable
import CodegenRegistry.Parameter
import CodegenRegistry.Position
import CodegenRegistry.Proofs.Batch.Admission
import CodegenRegistry.Proofs.Batch.Faults
import CodegenRegistry.Proofs.Expansion.Flattening
import CodegenRegistry.Proofs.Expansion.Hints
import CodegenRegistry.Proofs.Expansion.Reachability
import CodegenRegistry.Proofs.Expansion.Walk
import CodegenRegistry.Proofs.Loops
import CodegenRegistry.Proofs.Spelling.Search
import CodegenRegistry.Registry
import CodegenRegistry.Resolution
import CodegenRegistry.Session
import CodegenRegistry.Settings
import CodegenRegistry.Settings.File
import CodegenRegistry.Site
import CodegenRegistry.Spelling
import CodegenRegistry.Text.EditDistance
import CodegenRegistry.Text.Printable
import CodegenRegistry.Text.Quoted
import CodegenRegistry.Toml.Document
import CodegenRegistry.Toml.Item
import CodegenRegistry.Toml.Number
import CodegenRegistry.Toml.Statement
import CodegenRegistry.Toml.Token
import CodegenRegistry.Toml.Value
import CodegenRegistry.Proofs.Session.Lifecycle
import CodegenRegistry.Proofs.Session.RegistrationOrder
import CodegenRegistry.Proofs.Binding.Matching
import CodegenRegistry.Proofs.Batch.DependencyOrder
import CodegenRegistry.Proofs.Batch.Inlining
import CodegenRegistry.Proofs.Batch.Splitting
import CodegenRegistry.Proofs.Expansion.Support
import CodegenRegistry.Proofs.Batch.ArgumentUse
import CodegenRegistry.Proofs.Batch.ArgumentOrder
import CodegenRegistry.Proofs.Expansion.Likeness
import CodegenRegistry.Proofs.Batch.Likeness
import CodegenRegistry.Proofs.Batch.NewNames
import CodegenRegistry.Proofs.Batch.Applications
import CodegenRegistry.Proofs.Batch.HandlerIndependence
import CodegenRegistry.Proofs.Session.Description
import CodegenRegistry.Proofs.Expansion.Recurrence
import CodegenRegistry.Proofs.Expansion.Locality
import CodegenRegistry.Proofs.Expansion.Nesting
import CodegenRegistry.Proofs.Spelling.Alignment
import CodegenRegistry.Proofs.Spelling.EditSequences
import CodegenRegistry.Proofs.Expansion.Typos
import CodegenRegistry.Proofs.Binding.Traversal
import CodegenRegistry.Proofs.Binding.Construction
import CodegenRegistry.Proofs.Binding.Modifiers
import CodegenRegistry.Proofs.Batch.Relabelling
import CodegenRegistry.Proofs.Toml.Numerals
import CodegenRegistry.Proofs.Toml.Scanning
import CodegenRegistry.Proofs.Toml.Lines
import CodegenRegistry.Proofs.Toml.FirstLine
import CodegenRegistry.Proofs.Settings.Layouts
import CodegenRegistry.Proofs.Settings.Strictness
import CodegenRegistry.Proofs.Batch.Reporting
import CodegenRegistry.Proofs.Expansion.Resumption
import CodegenRegistry.Proofs.Positions
import CodegenRegistry.Proofs.Session.History
