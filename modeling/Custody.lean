import Custody.Main
import Custody.Workspace
import Custody.Proofs.Borrowing.Integrity
import Custody.Proofs.Checking.Exclusivity
import Custody.Proofs.Checking.Backing
import Custody.Proofs.Checking.Closure
import Custody.Proofs.Checking.Linking
import Custody.Proofs.Checking.Reordering
import Custody.Proofs.Documents.Snapshots
import Custody.Proofs.Execution.Authority
import Custody.Proofs.Execution.Conservation
import Custody.Proofs.Execution.Isolation
import Custody.Proofs.Execution.Liveness
import Custody.Proofs.Execution.Packing
import Custody.Proofs.Spellings.Arguments
import Custody.Proofs.Spellings.Types
import Custody.Proofs.Storage.Independence
import Custody.Proofs.Types.Constraints
import Custody.Proofs.Types.Remembered
import Custody.Proofs.Values.Writes
