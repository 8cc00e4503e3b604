import Retransmission.Proofs.Cache.Ledger
import Retransmission.Proofs.Feedback.Exactness
import Retransmission.Proofs.Reception.Epochs
import Retransmission.Proofs.Reception.Losses
import Retransmission.Proofs.Cache.Changes
import Retransmission.Proofs.Ring.Memory
import Retransmission.Proofs.Cache.Reading
import Retransmission.Proofs.Cache.Lifetime
import Retransmission.Proofs.Cache.Rotation
import Retransmission.Proofs.Reception.Conservation
import Retransmission.Proofs.Cache.Restarts
import Retransmission.Proofs.Cache.Copies
import Retransmission.Proofs.Machine.Completion
import Retransmission.Proofs.Feedback.Retreat
import Retransmission.Proofs.Feedback.Coverage
import Retransmission.Proofs.Reception.Periods
import Retransmission.Proofs.Reception.Interleaving
import Retransmission.Proofs.Log.Replay
import Retransmission.Proofs.Reception.Fraction
import Retransmission.Proofs.Feedback.Lossless
import Retransmission.Proofs.Cache.Admission
import Retransmission.Proofs.Cache.Growth
import Retransmission.Proofs.Feedback.Entries
