import SnapshotStore.Proofs.Document.Kept
import SnapshotStore.Proofs.Pipeline.AnyOrder
import SnapshotStore.Proofs.Pipeline.Gaps
import SnapshotStore.Proofs.Pipeline.Strict
import SnapshotStore.Proofs.Query.Conjunction
import SnapshotStore.Proofs.Query.Threshold
import SnapshotStore.Proofs.Snapshot.AllOrNothing
import SnapshotStore.Proofs.Snapshot.Validation
import SnapshotStore.Proofs.Store.Collisions
import SnapshotStore.Proofs.Store.Compose
import SnapshotStore.Proofs.Store.Durable
import SnapshotStore.Proofs.Store.NoLostUpdate
import SnapshotStore.Proofs.Store.RoundTrip
import SnapshotStore.Proofs.Store.Untouched
import SnapshotStore.Store.Any
