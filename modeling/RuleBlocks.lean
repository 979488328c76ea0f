import RuleBlocks.Search.Id
import RuleBlocks.Main
import RuleBlocks.Proofs.Registry.Classification
import RuleBlocks.Proofs.Registry.Timeline
import RuleBlocks.Proofs.Registry.Serialization
import RuleBlocks.Proofs.Registry.Initialization
import RuleBlocks.Proofs.Registry.Listening
import RuleBlocks.Proofs.Template.NormalForm
import RuleBlocks.Proofs.Template.Spelling
import RuleBlocks.Proofs.Template.Reading
import RuleBlocks.Proofs.Template.RoundTrip
import RuleBlocks.Proofs.Registry.Compilation
import RuleBlocks.Proofs.Registry.Rendering
import RuleBlocks.Proofs.Function.Builtins
import RuleBlocks.Proofs.Registry.Visibility
import RuleBlocks.Proofs.Search.Continuity
import RuleBlocks.Proofs.Search.Lookup
import RuleBlocks.Proofs.Search.History
import RuleBlocks.Proofs.Template.Grammar
import RuleBlocks.Proofs.Template.Acceptance
import RuleBlocks.Proofs.Template.Sandbox
import RuleBlocks.Proofs.Template.Composition
import RuleBlocks.Proofs.Template.Dependence
import RuleBlocks.Proofs.Search.Refusal
import RuleBlocks.Proofs.Registry.LastWrite
import RuleBlocks.Proofs.Search.Calls
import RuleBlocks.Proofs.Search.Races
import RuleBlocks.Proofs.Search.Passage
import RuleBlocks.Proofs.Search.Outcome
import RuleBlocks.Proofs.Search.Deadline
import RuleBlocks.Proofs.Registry.Accounting
import RuleBlocks.Proofs.CommandLine.Check
import RuleBlocks.Proofs.Template.Comments
import RuleBlocks.Proofs.Template.Literal
import RuleBlocks.Proofs.Document.Widening
import RuleBlocks.Proofs.Template.Normality
import RuleBlocks.Proofs.Template.Finality
import RuleBlocks.Proofs.Template.Missing
import RuleBlocks.Proofs.Registry.Order
import RuleBlocks.Proofs.Function.Admission
import RuleBlocks.Proofs.Search.Cleanup
import RuleBlocks.Proofs.Search.Waiting
import RuleBlocks.Proofs.Template.Additions
import RuleBlocks.Proofs.Function.Signature
import RuleBlocks.Proofs.Template.Scanning
