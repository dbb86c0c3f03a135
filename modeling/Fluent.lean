import Fluent.Main
import Fluent.Value.Handles
import Fluent.Proofs.Arena.Assignment
import Fluent.Proofs.Arena.Kept
import Fluent.Proofs.Evaluation.Composition
import Fluent.Proofs.Evaluation.Shuffling
import Fluent.Proofs.Arena.Slots
import Fluent.Proofs.Arena.Snapshot
import Fluent.Proofs.Arena.Stale
import Fluent.Proofs.Evaluation.Discipline
import Fluent.Proofs.Evaluation.Leaks
import Fluent.Proofs.Evaluation.Observers
import Fluent.Proofs.Evaluation.Recorded
import Fluent.Proofs.Evaluation.Refusal
import Fluent.Proofs.Evaluation.Siblings
import Fluent.Proofs.Evaluation.Serving
import Fluent.Proofs.Reader.Location
import Fluent.Proofs.Reader.RoundTrip
import Fluent.Proofs.Evaluation.Paths
import Fluent.Proofs.Arena.Ancestry
import Fluent.Proofs.Registration.History
import Fluent.Proofs.Reader.Progress
