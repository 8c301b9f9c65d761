import Brokerage.Command.Folder
import Brokerage.Csv.Reader
import Brokerage.Main
import Brokerage.Proofs.Command.Failure
import Brokerage.Proofs.Command.Runs
import Brokerage.Proofs.Csv.Reading
import Brokerage.Proofs.Registry.Admissions
import Brokerage.Proofs.Registry.Announcements
import Brokerage.Proofs.Registry.Attempts
import Brokerage.Proofs.Registry.Candidates
import Brokerage.Proofs.Registry.Catalog
import Brokerage.Proofs.Registry.Inertness
import Brokerage.Proofs.Registry.Refusal
import Brokerage.Proofs.Registry.Reordering
import Brokerage.Proofs.Registry.Replacement
import Brokerage.Proofs.Registry.Steadiness
import Brokerage.Proofs.Registry.Storage
import Brokerage.Proofs.Registry.Table
import Brokerage.Proofs.Registry.Withdrawal
import Brokerage.Proofs.Report.Batches
import Brokerage.Proofs.Report.Capacity
import Brokerage.Proofs.Settings.Decoding
import Brokerage.Proofs.Settings.Listing
import Brokerage.Proofs.Settings.Locality
import Brokerage.Proofs.Transaction.Cancellation
import Brokerage.Proofs.Transaction.Completion
import Brokerage.Proofs.Transaction.Drafting
import Brokerage.Scenario.Play
