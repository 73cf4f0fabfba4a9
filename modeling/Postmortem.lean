import Postmortem.Main
import Postmortem.Node.Site
import Postmortem.Progress.Lookup
import Postmortem.Proofs.Agreement
import Postmortem.Proofs.Entities
import Postmortem.Proofs.Acceptance
import Postmortem.Proofs.Reports
import Postmortem.Proofs.Decoding
import Postmortem.Proofs.Scanning
import Postmortem.Proofs.Tokenizing
import Postmortem.Proofs.Composing
import Postmortem.Proofs.Limits
import Postmortem.Proofs.Alike
import Postmortem.Proofs.Unfolding
import Postmortem.Proofs.Fitting
import Postmortem.Proofs.Precedence
import Postmortem.Proofs.Listings
import Postmortem.Proofs.Independence
import Postmortem.Proofs.Verdict
import Postmortem.Proofs.KeyOrder
import Postmortem.Proofs.HandleNormalForm
import Postmortem.Proofs.Integers
import Postmortem.Proofs.Deletion
import Postmortem.Proofs.Siblings
import Postmortem.Proofs.Diagnosis
import Postmortem.Proofs.Locating
import Postmortem.Proofs.PrintedTable
import Postmortem.Proofs.Positions
import Postmortem.Proofs.Submissions
import Postmortem.Proofs.PathReading
import Postmortem.Proofs.Places
import Postmortem.Proofs.Arrays
