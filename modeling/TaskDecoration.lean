import TaskDecoration.Function
import TaskDecoration.Decoration.Declare
import TaskDecoration.Encoding
import TaskDecoration.Signature.Shorthand
import TaskDecoration.Proofs.Acceptance
import TaskDecoration.Proofs.Admission
import TaskDecoration.Proofs.Balance
import TaskDecoration.Proofs.Capacity
import TaskDecoration.Proofs.Chronicle
import TaskDecoration.Proofs.Commitment
import TaskDecoration.Proofs.Edits
import TaskDecoration.Proofs.Encoding
import TaskDecoration.Proofs.Location
import TaskDecoration.Proofs.Misfit
import TaskDecoration.Proofs.Ownership
import TaskDecoration.Proofs.Policy
import TaskDecoration.Proofs.Positions
import TaskDecoration.Proofs.Receiver
import TaskDecoration.Proofs.Rejection
import TaskDecoration.Proofs.Replacement
import TaskDecoration.Proofs.Seeding
import TaskDecoration.Proofs.Sharing
import TaskDecoration.Proofs.Software
import TaskDecoration.Proofs.Spellings
import TaskDecoration.Proofs.Teardown
import TaskDecoration.Proofs.Validation
