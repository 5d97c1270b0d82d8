import Drafting.Text.Blank
import Drafting.Text.Quoted
import Drafting.Decimal.Shortest
import Drafting.Decimal.Reading
import Drafting.Document.Value
import Drafting.Document.Json
import Drafting.Document.Access
import Drafting.Geometry.Saved
import Drafting.Geometry.Summary
import Drafting.Graph.Extraction
import Drafting.Graph.Coincidence
import Drafting.Constraint.Duplicate
import Drafting.Constraint.Make
import Drafting.Constraint.Saved
import Drafting.System.Equation
import Drafting.System.Footprint
import Drafting.Linear.Orthogonal
import Drafting.Solver.GaussNewton
import Drafting.Fit.Method
import Drafting.Settings.Tolerances
import Drafting.Settings.Version
import Drafting.Solver.Selection
import Drafting.Graph.Implicit
import Drafting.Suggestion
import Drafting.WriteBack
import Drafting.Sketch.Saved
import Drafting.Proofs.ErrorBoundary
import Drafting.Proofs.Integrity
import Drafting.Proofs.Satisfaction
import Drafting.Proofs.Frame
import Drafting.Proofs.Verdict
import Drafting.Proofs.Reproduction
import Drafting.Proofs.Evaluation
import Drafting.Proofs.ResidualCount
import Drafting.Proofs.IterationCap
import Drafting.Proofs.PartNames
import Drafting.Proofs.SavedForm
import Drafting.Proofs.Duplicates
import Drafting.Proofs.SolvedAgain
import Drafting.Proofs.Atomicity
import Drafting.Proofs.Bystanders
import Drafting.Proofs.Agreement
import Drafting.Proofs.Disabled
import Drafting.Proofs.Suggesting
import Drafting.Proofs.Acceptance
import Drafting.Proofs.Unmoved
import Drafting.Proofs.Dangling
import Drafting.Proofs.Patterns
import Drafting.Proofs.Requirements
import Drafting.Proofs.Removal
import Drafting.Proofs.Magnitudes
import Drafting.Proofs.Equivalence
import Drafting.Proofs.Exchange
import Drafting.Proofs.Redundancy
import Drafting.Proofs.Ordering
import Drafting.Proofs.Rectangles
import Drafting.Proofs.AxisAligned
import Drafting.Proofs.DampedStep
import Drafting.Proofs.Vanishing
import Drafting.Proofs.LookUps
import Drafting.Proofs.ElementFormat
import Drafting.Proofs.BackendChoice
import Drafting.Proofs.Concatenation
import Drafting.Proofs.Locality
import Drafting.Proofs.Tolerances
