import ConstraintNet.CommandLine
import ConstraintNet.Deadline.Protocol
import ConstraintNet.Graph.Build
import ConstraintNet.Main
import ConstraintNet.Numbered
import ConstraintNet.Proofs.ArcConsistency
import ConstraintNet.Proofs.Balance
import ConstraintNet.Proofs.Cancellation
import ConstraintNet.Proofs.Checks
import ConstraintNet.Proofs.Coherence
import ConstraintNet.Proofs.Completeness
import ConstraintNet.Proofs.ConfigurationText
import ConstraintNet.Proofs.ConfiguredRuns
import ConstraintNet.Proofs.Deadlines
import ConstraintNet.Proofs.Descriptions
import ConstraintNet.Proofs.Domination
import ConstraintNet.Proofs.FirstSolution
import ConstraintNet.Proofs.Forests
import ConstraintNet.Proofs.Histories
import ConstraintNet.Proofs.LookAhead
import ConstraintNet.Proofs.Maintenance
import ConstraintNet.Proofs.Moves
import ConstraintNet.Proofs.Passes
import ConstraintNet.Proofs.Projections
import ConstraintNet.Proofs.Puzzles
import ConstraintNet.Proofs.Queueing
import ConstraintNet.Proofs.Refusals
import ConstraintNet.Proofs.Repairs
import ConstraintNet.Proofs.Rounds
import ConstraintNet.Proofs.Selection
import ConstraintNet.Proofs.SparedSolutions
import ConstraintNet.Report.Shown
