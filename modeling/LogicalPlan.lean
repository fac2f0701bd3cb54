import LogicalPlan.Frame
import LogicalPlan.Graph
import LogicalPlan.Json.Reader
import LogicalPlan.Json.Writer
import LogicalPlan.Log
import LogicalPlan.Lowering.Grammar
import LogicalPlan.Plan.Change
import LogicalPlan.Plan.Equality
import LogicalPlan.Plan.Export
import LogicalPlan.Proofs.Derivation.Concatenation
import LogicalPlan.Proofs.Derivation.Contexts
import LogicalPlan.Proofs.Derivation.Division
import LogicalPlan.Proofs.Derivation.Erasure
import LogicalPlan.Proofs.Derivation.Joins
import LogicalPlan.Proofs.Derivation.Located
import LogicalPlan.Proofs.Derivation.Renaming
import LogicalPlan.Proofs.Derivation.SetOperations
import LogicalPlan.Proofs.Derivation.Uniqueness
import LogicalPlan.Proofs.Document.Literals
import LogicalPlan.Proofs.Document.Recoding
import LogicalPlan.Proofs.Document.RoundTrip
import LogicalPlan.Proofs.Expr.Legible
import LogicalPlan.Proofs.Graph.Paths
import LogicalPlan.Proofs.Lowering.Advisories
import LogicalPlan.Proofs.Lowering.Aggregates
import LogicalPlan.Proofs.Lowering.Correspondence
import LogicalPlan.Proofs.Lowering.EarlyCheck
import LogicalPlan.Proofs.Lowering.Embedding
import LogicalPlan.Proofs.Lowering.Namings
import LogicalPlan.Proofs.Lowering.References
import LogicalPlan.Proofs.Lowering.SelectList
import LogicalPlan.Proofs.Lowering.Terms
import LogicalPlan.Proofs.Lowering.Verification
import LogicalPlan.Proofs.Lowering.Windows
import LogicalPlan.Proofs.Plan.Export
import LogicalPlan.Proofs.Plan.Inspection
import LogicalPlan.Proofs.Plan.Signature
import LogicalPlan.Proofs.Query.WellFormed
import LogicalPlan.Proofs.Store.Rows
import LogicalPlan.Store
import LogicalPlan.Value.Key
import LogicalPlan.Value.Path
