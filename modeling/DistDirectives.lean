import DistDirectives.Main
import DistDirectives.Proofs.Mapping.RoundTrip
import DistDirectives.Proofs.Disk.Children
import DistDirectives.Proofs.Disk.Project
import DistDirectives.Proofs.Disk.Site
import DistDirectives.Proofs.Disk.Replacement
import DistDirectives.Proofs.Run.Discovery
import DistDirectives.Proofs.Mapping.Places
import DistDirectives.Proofs.Run.Expansion
import DistDirectives.Proofs.Run.Coverage
import DistDirectives.Proofs.Run.Processing
import DistDirectives.Proofs.Run.Effect
import DistDirectives.Proofs.Run.Plan
import DistDirectives.Proofs.Run.Reports
import DistDirectives.Proofs.Disk.Decision
import DistDirectives.Proofs.Run.Difference
import DistDirectives.Proofs.Run.Idempotence
import DistDirectives.Proofs.Run.Precedence
import DistDirectives.Proofs.Run.Order
import DistDirectives.Proofs.Run.DryRun
import DistDirectives.Proofs.Run.Halting
import DistDirectives.Proofs.Run.Policy
import DistDirectives.Proofs.Run.SourcePaths
import DistDirectives.Proofs.Run.Commutation
import DistDirectives.Proofs.Run.Restriction
import DistDirectives.Proofs.Run.Splitting
import DistDirectives.Proofs.Run.Preservation
import DistDirectives.Proofs.Run.Distinctness
import DistDirectives.Proofs.Run.Exactness
import DistDirectives.Proofs.Run.Containment
import DistDirectives.Proofs.Run.Wildcard
import DistDirectives.Proofs.Text.Blank
import DistDirectives.Proofs.Directive.Condition
import DistDirectives.Proofs.Directive.Replacement
import DistDirectives.Proofs.Directive.Scan
import DistDirectives.Proofs.Directive.Printing
import DistDirectives.Proofs.Target.Acceptance
import DistDirectives.Proofs.Run.Cache
import DistDirectives.Proofs.Directive.Edit
import DistDirectives.Proofs.Path.Canonical
import DistDirectives.Proofs.Run.Refusal
import DistDirectives.Proofs.Directive.Convergence
import DistDirectives.Proofs.Directive.LineEndings
import DistDirectives.Proofs.Directive.Reapplication
import DistDirectives.Proofs.Directive.CarriageReturns
import DistDirectives.Proofs.Directive.Explanation
import DistDirectives.Proofs.Run.Candidates
import DistDirectives.Proofs.Disk.Atomicity
import DistDirectives.Proofs.Disk.Permissions
import DistDirectives.Proofs.Run.Limits
import DistDirectives.Proofs.Path.Stripping
import DistDirectives.Proofs.Mapping.Origins
