import Leasehold.Error.Announced
import Leasehold.Fleet.Step
import Leasehold.Main
import Leasehold.Proofs.Exclusion
import Leasehold.Proofs.Custody
import Leasehold.Proofs.Ceiling
import Leasehold.Proofs.Floor
import Leasehold.Proofs.RedisContract
import Leasehold.Proofs.FailClosed
import Leasehold.Proofs.TimestampWidth
import Leasehold.Proofs.TableContract
import Leasehold.Proofs.NodeContract
import Leasehold.Proofs.PhantomWrites
import Leasehold.Proofs.Remarks
import Leasehold.Proofs.Bookkeeping
import Leasehold.Proofs.Accounts
import Leasehold.Proofs.FleetExecution
import Leasehold.Proofs.RoundTrip
import Leasehold.Proofs.AnyContent
import Leasehold.Proofs.Aftermath
import Leasehold.Proofs.Winner
import Leasehold.Proofs.Diagnostics
import Leasehold.Proofs.Intake
import Leasehold.Proofs.Retries
import Leasehold.Proofs.Segments
import Leasehold.Proofs.Lookup
import Leasehold.Proofs.Admission
import Leasehold.Proofs.AcceptedTerms
import Leasehold.Proofs.Closing
import Leasehold.Proofs.ExitCodes
import Leasehold.Proofs.FailureCounts
