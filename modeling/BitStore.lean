import BitStore.Settings.Json
import BitStore.Settings.Environment
import BitStore.Arena.Audit
import BitStore.MappedFile
import BitStore.Store.Resize
import BitStore.Usage.Clock
import BitStore.Usage.Json
import BitStore.Proofs.Arena.Audited
import BitStore.Proofs.Arena.Failure
import BitStore.Proofs.Arena.Pointers
import BitStore.Proofs.Store.Ledger
import BitStore.Proofs.Store.Requests
import BitStore.Proofs.Store.Backends
import BitStore.Proofs.Store.Vectors
import BitStore.Proofs.Store.Owners
import BitStore.Proofs.Store.Workspace
import BitStore.Proofs.Store.Isolation
import BitStore.Proofs.Store.Ownership
import BitStore.Proofs.Store.Refusal
import BitStore.Proofs.Store.Spacious
import BitStore.Proofs.Usage.Calls
import BitStore.Proofs.Usage.Nesting
import BitStore.Proofs.Usage.Readings
import BitStore.Proofs.Usage.Closings
import BitStore.Proofs.Store.Accounting
import BitStore.Proofs.Arena.Faultless
import BitStore.Proofs.Usage.Lossless
import BitStore.Proofs.Usage.Chronology
import BitStore.Proofs.Json.Reading
import BitStore.Proofs.Json.Scalars
import BitStore.Proofs.Json.Records
import BitStore.Proofs.Usage.RoundTrip
import BitStore.Proofs.Arena.Frees
import BitStore.Proofs.Usage.Independence
import BitStore.Proofs.Store.Routing
import BitStore.Proofs.Store.Tenants
import BitStore.Proofs.Text.Blanks
import BitStore.Proofs.Settings.ByteSizes
import BitStore.Proofs.Settings.Spellings
import BitStore.Proofs.Files.Mirror
import BitStore.Proofs.Store.Resizing
import BitStore.Proofs.Arena.Reversal
import BitStore.Proofs.Arena.Sizes
import BitStore.Proofs.Arena.Figures
import BitStore.Proofs.Usage.Sparsity
import BitStore.Proofs.Usage.Ordering
import BitStore.Proofs.Store.Ranks
import BitStore.Proofs.Store.Shrinking
import BitStore.Proofs.Pages.Probing
import BitStore.Proofs.Files.Truncation
import BitStore.Proofs.Store.Reporting
import BitStore.Proofs.Arena.Sequence
import BitStore.Proofs.Pages.LastLines
