import ObliviousStorage.Gateway.Opening
import ObliviousStorage.Gateway.Records
import ObliviousStorage.Handover.Recording
import ObliviousStorage.Heap.Sample
import ObliviousStorage.Index.Builder
import ObliviousStorage.Page.Summary
import ObliviousStorage.Storage.Choice
import ObliviousStorage.Storage.Faulty
import ObliviousStorage.Storage.Files
import ObliviousStorage.Storage.Memory
import ObliviousStorage.Storage.Traced
import ObliviousStorage.Proofs.Catalog.Histories
import ObliviousStorage.Proofs.Catalog.Origins
import ObliviousStorage.Proofs.Gateway.Accesses
import ObliviousStorage.Proofs.Gateway.RecordRuns
import ObliviousStorage.Proofs.Index.Chains
import ObliviousStorage.Proofs.Index.Circling
import ObliviousStorage.Proofs.Index.Exactness
import ObliviousStorage.Proofs.Index.Modes
import ObliviousStorage.Proofs.Index.Renumbering
import ObliviousStorage.Proofs.Opening.Capacities
import ObliviousStorage.Proofs.Opening.Disclosure
import ObliviousStorage.Proofs.Opening.Fidelity
import ObliviousStorage.Proofs.Opening.Frames
import ObliviousStorage.Proofs.Opening.Reopening
import ObliviousStorage.Proofs.Opening.Retrying
import ObliviousStorage.Proofs.Storage.Interchangeable
import ObliviousStorage.Proofs.Storage.Tails
import ObliviousStorage.Proofs.Gateway.Screening
import ObliviousStorage.Proofs.Gateway.Refusals
import ObliviousStorage.Proofs.Gateway.Prefixes
import ObliviousStorage.Proofs.Gateway.Scanning
import ObliviousStorage.Proofs.Index.Layouts
import ObliviousStorage.Proofs.Index.BuiltShape
import ObliviousStorage.Proofs.Index.LevelOrder
import ObliviousStorage.Proofs.Index.HandingOver
import ObliviousStorage.Proofs.Index.PageEdits
import ObliviousStorage.Proofs.Storage.Identities
import ObliviousStorage.Proofs.Page.Tags
import ObliviousStorage.Proofs.Heap.Copies
import ObliviousStorage.Proofs.Catalog.Columns
import ObliviousStorage.Proofs.Catalog.ForeignRows
import ObliviousStorage.Proofs.Catalog.GuardedUpdates
import ObliviousStorage.Proofs.Index.Bookkeeping
import ObliviousStorage.Proofs.Index.Thrift
