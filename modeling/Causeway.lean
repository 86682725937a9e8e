import Causeway.Machine.Session
import Causeway.Proofs.OwnershipCycles
import Causeway.Proofs.CallExits
import Causeway.Proofs.PassConsumers
import Causeway.Proofs.Draining
import Causeway.Proofs.CursorPlaces
import Causeway.Proofs.Composition
import Causeway.Proofs.LinearStates
import Causeway.Proofs.StaleHandles
import Causeway.Proofs.Independence
import Causeway.Proofs.InwardDecoding
import Causeway.Proofs.CallFailures
import Causeway.Proofs.Prefixes
import Causeway.Proofs.FrameChains
import Causeway.Proofs.PendingErrors
import Causeway.Proofs.Exports
import Causeway.Proofs.FailedCollections
import Causeway.Proofs.ValueEquality
import Causeway.Proofs.HintedPasses
import Causeway.Proofs.StrictRuns
import Causeway.Proofs.ReleaseOrder
import Causeway.Proofs.TupleReaders
import Causeway.Proofs.Exhaustion
import Causeway.Proofs.TracedRuns
import Causeway.Proofs.Iteration
