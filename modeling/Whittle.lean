import Whittle.FrontEnd.Bracket
import Whittle.Main
import Whittle.Proofs.Check.Agreement
import Whittle.Proofs.Dependency.Reaching
import Whittle.Proofs.Edit.Cutting
import Whittle.Proofs.Edit.Overlap
import Whittle.Proofs.Edit.TrimmingAgain
import Whittle.Proofs.Program.Exits
import Whittle.Proofs.Query.Axes
import Whittle.Proofs.Query.Rendering
import Whittle.Proofs.Server.Inputs
import Whittle.Proofs.Session.Answers
import Whittle.Proofs.Session.Copying
import Whittle.Proofs.Session.Isolation
import Whittle.Proofs.Session.Minimality
import Whittle.Proofs.Session.Repetition
import Whittle.Proofs.Session.Shrinking
import Whittle.Proofs.Session.Statistics
import Whittle.Proofs.Session.Termination
import Whittle.Proofs.Session.Variants
import Whittle.Proofs.Term.Columns
import Whittle.Proofs.Term.Loading
import Whittle.Proofs.Tree.Arena
