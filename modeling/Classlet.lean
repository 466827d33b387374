import Classlet.Analysis.Sequence
import Classlet.Files.Desk
import Classlet.Main
import Classlet.Scan.Lossless
import Classlet.Proofs.Scan.Layout
import Classlet.Proofs.Scan.Respacing
import Classlet.Proofs.Analysis.Concatenation
import Classlet.Proofs.Analysis.Isolation
import Classlet.Proofs.Analysis.Viability
import Classlet.Proofs.Analysis.Relabelling
import Classlet.Proofs.Analysis.Requests
import Classlet.Proofs.Analysis.Layers
import Classlet.Proofs.Analysis.Lookahead
import Classlet.Proofs.Analysis.Headings
import Classlet.Proofs.Analysis.Thinning
import Classlet.Proofs.Analysis.Diagnosis
import Classlet.Proofs.Report.Marking
import Classlet.Proofs.Command.Runs
import Classlet.Proofs.Command.Sessions
import Classlet.Proofs.Expression.Extent
import Classlet.Proofs.Command.Braces
import Classlet.Proofs.Expression.Printing
import Classlet.Proofs.Analysis.Provenance
import Classlet.Proofs.Console.Unstyled
import Classlet.Proofs.Console.Logs
import Classlet.Proofs.Report.Clean
import Classlet.Proofs.Command.Coloring
import Classlet.Proofs.Scan.Clearing
import Classlet.Proofs.Scan.LineEndings
import Classlet.Proofs.Scan.Chunks
import Classlet.Proofs.Command.Appending
import Classlet.Proofs.Analysis.MethodScope
import Classlet.Proofs.Scope.Stacks
import Classlet.Proofs.Analysis.Respelling
import Classlet.Proofs.Report.Topics
import Classlet.Proofs.Report.Columns
import Classlet.Proofs.Descent.Termination
